import SchemaTypes.Text.Ranges
/-!
# Blanks

The characters with the Unicode property White_Space, which trimming removes at both ends.
The zero-width space and the byte order mark are not among them.
-/
namespace SchemaTypes.Text

def blankRanges : Ranges :=
  [(0x9, 0xD), (0x20, 0x20), (0x85, 0x85), (0xA0, 0xA0), (0x1680, 0x1680), (0x2000, 0x200A),
   (0x2028, 0x2029), (0x202F, 0x202F), (0x205F, 0x205F), (0x3000, 0x3000)]

def isBlank (c : Char) : Bool := blankRanges.contains c.toNat

/-- The characters between the blanks at both ends. -/
def trimChars (cs : List Char) : List Char := ((cs.dropWhile isBlank).reverse.dropWhile isBlank).reverse

def trim (text : String) : String := String.ofList (trimChars text.toList)

example : trim "\u3000 a b\t" = "a b" := by decide +kernel
example : trim "\u200bx" = "\u200bx" := by decide +kernel

end SchemaTypes.Text
