import SchemaTypes.Json.Basic
import SchemaTypes.Text.Replace
import SchemaTypes.Text.Utf8
/-!
# References and pointers

A reference is a document part and, behind the first hash sign, a fragment.  The fragment is
percent-decoded and then read as a JSON pointer, whose tokens write `~` as `~0` and `/` as `~1`.
-/
namespace SchemaTypes.Reference

/-- The document part and the fragment of a reference. -/
def split (reference : String) : String × String :=
  let text := reference.toList
  (String.ofList (text.takeWhile (· ≠ '#')), String.ofList ((text.dropWhile (· ≠ '#')).drop 1))

/-! ## Percent encoding -/

def hexOfByte? (byte : Nat) : Option Nat :=
  if 0x30 ≤ byte ∧ byte ≤ 0x39 then some (byte - 0x30)
  else if 0x41 ≤ byte ∧ byte ≤ 0x46 then some (byte - 0x37)
  else if 0x61 ≤ byte ∧ byte ≤ 0x66 then some (byte - 0x57)
  else none

/-- The byte two bytes behind a percent sign stand for.  The first may be a plus sign. -/
def escapedByte? (high low : Nat) : Option Nat :=
  match hexOfByte? low with
  | none => none
  | some low => if high = 0x2B then some low else (hexOfByte? high).map (16 * · + low)

/-- The bytes a fragment's bytes stand for; a percent sign that escapes nothing is itself. -/
def decodeBytes : List Nat → List Nat
  | [] => []
  | [a] => [a]
  | [a, b] => [a, b]
  | a :: high :: low :: rest =>
    if a = 0x25 then
      match escapedByte? high low with
      | some byte => byte :: decodeBytes rest
      | none => a :: decodeBytes (high :: low :: rest)
    else a :: decodeBytes (high :: low :: rest)

/-- The decoded text of a fragment; bytes that are no UTF-8 become U+FFFD. -/
def decodeFragment (fragment : String) : String :=
  String.ofList (Text.Utf8.decodeLossy (decodeBytes (Text.Utf8.encode fragment.toList)))

/-! ## Pointers -/

def unescapeToken (token : List Char) : List Char :=
  Text.replaceAll ['~', '0'] ['~'] (Text.replaceAll ['~', '1'] ['/'] token)

/-- The number of an array item: decimal, without leading zeros, below `2^64`. -/
def index? (token : List Char) : Option Nat :=
  if token.isEmpty ∨ ¬ token.all Char.isDigit ∨ (token.head? = some '0' ∧ 1 < token.length) then none
  else
    let value := token.foldl (fun n c => 10 * n + (c.toNat - 48)) 0
    if value < Nat.pow 2 64 then some value else none

/-- The part of a value one token leads to. -/
def step? (value : Json) (token : List Char) : Option Json :=
  match value with
  | .object members => Members.get? members (String.ofList token)
  | .array items => (index? token).bind (items[·]?)
  | _ => none

/-- The node a decoded fragment addresses.  The empty one is the whole document. -/
def lookup? (document : Json) (pointer : String) : Option Json :=
  match pointer.toList with
  | [] => some document
  | '/' :: rest =>
    ((Text.splitAt '/' rest).map unescapeToken).foldl (fun value? token => value?.bind (step? · token))
      (some document)
  | _ => none

/-- The last token of a decoded fragment, which names a definition. -/
def lastSegment? (pointer : String) : Option String :=
  match Text.lastPart '/' pointer.toList with
  | [] => none
  | token => some (String.ofList (unescapeToken token))

example : decodeFragment "%2Fa%+Fb%2" = "/a\x0fb%2" := by decide +kernel

end SchemaTypes.Reference
