/-!
# Bytes as text

`decodeLossy` reads UTF-8.  Where the bytes are no UTF-8, each longest stretch that could
have started a character, or else a single byte, is read as U+FFFD.
-/
namespace SchemaTypes.Text.Utf8

/-- What has to follow a first byte: how many bytes, and the range of the second one. -/
def followers? (first : Nat) : Option (Nat × Nat × Nat) :=
  if first < 0x80 then some (0, 0x80, 0xBF)
  else if 0xC2 ≤ first ∧ first ≤ 0xDF then some (1, 0x80, 0xBF)
  else if first = 0xE0 then some (2, 0xA0, 0xBF)
  else if first = 0xED then some (2, 0x80, 0x9F)
  else if 0xE1 ≤ first ∧ first ≤ 0xEF then some (2, 0x80, 0xBF)
  else if first = 0xF0 then some (3, 0x90, 0xBF)
  else if 0xF1 ≤ first ∧ first ≤ 0xF3 then some (3, 0x80, 0xBF)
  else if first = 0xF4 then some (3, 0x80, 0x8F)
  else none

/-- The payload of a first byte that `count` bytes follow. -/
def leadBits (count first : Nat) : Nat :=
  if count = 0 then first else first % Nat.pow 2 (6 - count)

def replacement : Char := '\uFFFD'

/-- The decoder between two bytes: nothing begun, or a character of which `owed` bytes are
missing, the next one between `low` and `high`. -/
inductive Decoder where
  | idle
  | within (owed low high code : Nat)

/-- Take a byte that begins a character. -/
def start (byte : Nat) : Decoder × List Char :=
  match followers? byte with
  | none => (.idle, [replacement])
  | some (0, _, _) => (.idle, [Char.ofNat byte])
  | some (count, low, high) => (.within count low high (leadBits count byte), [])

/-- Take a byte.  One that cannot continue the character ends it and is taken anew. -/
def step : Decoder → Nat → Decoder × List Char
  | .idle, byte => start byte
  | .within owed low high code, byte =>
    if low ≤ byte ∧ byte ≤ high then
      let code := code * 64 + byte % 64
      if owed = 1 then (.idle, [Char.ofNat code]) else (.within (owed - 1) 0x80 0xBF code, [])
    else
      let (next, chars) := start byte
      (next, replacement :: chars)

/-- What the end of the bytes leaves. -/
def finish : Decoder → List Char
  | .idle => []
  | .within .. => [replacement]

def decodeFrom (decoder : Decoder) : List Nat → List Char
  | [] => finish decoder
  | byte :: rest =>
    let (next, chars) := step decoder byte
    chars ++ decodeFrom next rest

def decodeLossy (bytes : List Nat) : List Char := decodeFrom .idle bytes

/-- The bytes of one character. -/
def encodeChar (c : Char) : List Nat :=
  let code := c.toNat
  if code < 0x80 then [code]
  else if code < 0x800 then [0xC0 + code / 64, 0x80 + code % 64]
  else if code < 0x10000 then [0xE0 + code / 4096, 0x80 + code / 64 % 64, 0x80 + code % 64]
  else [0xF0 + code / 262144, 0x80 + code / 4096 % 64, 0x80 + code / 64 % 64, 0x80 + code % 64]

def encode (chars : List Char) : List Nat := chars.flatMap encodeChar

example : decodeLossy (encode "aé日🙂".toList) = "aé日🙂".toList := by decide +kernel

/-- A truncated character is one replacement, a stray byte one each. -/
example : decodeLossy [0xE6, 0x97, 0x41, 0x80, 0xFF] = ['\uFFFD', 'A', '\uFFFD', '\uFFFD'] := by
  decide +kernel

end SchemaTypes.Text.Utf8
