import Mathlib.Logic.ExistsUnique
import SchemaTypes.Proofs.Text.Utf8
import SchemaTypes.Reference.Pointer
/-!
# Percent escapes

The bytes of a fragment are scanned from the left.  An escape is a percent sign with two hexadecimal digits behind it,
which stand for a byte (`hexPair?`); whatever begins no escape is kept as it is.  `Scan` says this for any rule about the
two bytes behind a percent sign.

The rule of `decodeBytes` is a little wider, for it takes a plus sign in the place of the first digit.  No byte below 16
is a plus sign, so every such escape costs the text one: the decoded text is the one that digits alone give exactly if no
percent sign has a plus sign and a digit behind it (`decodeFragment_scanned`).
-/
namespace SchemaTypes.Reference

/-! ## Hexadecimal digits -/

/-- The letters of the larger digits. -/
inductive HexCase where
  | upper
  | lower

def HexCase.digits : HexCase → List Char
  | .upper => "0123456789ABCDEF".toList
  | .lower => "0123456789abcdef".toList

def hexDigit (letters : HexCase) (value : Nat) : Char := letters.digits.getD value '0'

theorem hexOfByte?_hexDigit (letters : HexCase) : ∀ value < 16,
    hexOfByte? (hexDigit letters value).toNat = some value := by
  cases letters <;> decide

/-- **The hexadecimal digits** are the ten digits and six letters, in either case. -/
theorem hexOfByte?_eq_some_iff {byte value : Nat} :
    hexOfByte? byte = some value ↔ value < 16 ∧ ∃ letters : HexCase, byte = (hexDigit letters value).toNat := by
  constructor
  · intro h
    have hupper : ∀ value < 10, (hexDigit .upper value).toNat = 0x30 + value := by decide
    have hupper' : ∀ value < 16, 10 ≤ value → (hexDigit .upper value).toNat = 0x37 + value := by decide
    have hlower : ∀ value < 16, 10 ≤ value → (hexDigit .lower value).toNat = 0x57 + value := by decide
    unfold hexOfByte? at h
    split at h
    · cases h
      exact ⟨by omega, .upper, by rw [hupper _ (by omega)]; omega⟩
    split at h
    · cases h
      exact ⟨by omega, .upper, by rw [hupper' _ (by omega) (by omega)]; omega⟩
    split at h
    · cases h
      exact ⟨by omega, .lower, by rw [hlower _ (by omega) (by omega)]; omega⟩
    · cases h
  · rintro ⟨hvalue, letters, rfl⟩
    exact hexOfByte?_hexDigit letters value hvalue

/-- What two bytes behind a percent sign stand for, if both are hexadecimal digits. -/
def hexPair? (high low : Nat) : Option Nat :=
  match hexOfByte? high, hexOfByte? low with
  | some high, some low => some (16 * high + low)
  | _, _ => none

/-- **An escape** has two hexadecimal digits, and stands for the number that they write. -/
theorem hexPair?_eq_some_iff {high low byte : Nat} : hexPair? high low = some byte ↔
    ∃ first < 16, ∃ second < 16, byte = 16 * first + second ∧
      (∃ letters, high = (hexDigit letters first).toNat) ∧ ∃ letters, low = (hexDigit letters second).toNat := by
  have hdigits : hexPair? high low = some byte ↔
      ∃ first second, hexOfByte? high = some first ∧ hexOfByte? low = some second ∧ byte = 16 * first + second := by
    unfold hexPair?
    cases hexOfByte? high <;> cases hexOfByte? low <;> simp [eq_comm]
  rw [hdigits]
  constructor
  · rintro ⟨first, second, hhigh, hlow, hbyte⟩
    obtain ⟨hfirst, hhigh⟩ := hexOfByte?_eq_some_iff.1 hhigh
    obtain ⟨hsecond, hlow⟩ := hexOfByte?_eq_some_iff.1 hlow
    exact ⟨first, hfirst, second, hsecond, hbyte, hhigh, hlow⟩
  · rintro ⟨first, hfirst, second, hsecond, hbyte, hhigh, hlow⟩
    exact ⟨first, second, hexOfByte?_eq_some_iff.2 ⟨hfirst, hhigh⟩, hexOfByte?_eq_some_iff.2 ⟨hsecond, hlow⟩, hbyte⟩

/-- The bytes have a percent sign, a plus sign and a hexadecimal digit one behind the other. -/
def Signed (bytes : List Nat) : Prop := ∃ digit, (hexOfByte? digit).isSome ∧ [0x25, 0x2B, digit] <:+: bytes

/-! ## Scans -/

/-- The second list is what a scan of the first one from the left makes of it. -/
inductive Scan (escape? : Nat → Nat → Option Nat) : List Nat → List Nat → Prop
  | done : Scan escape? [] []
  /-- An escape is replaced by the byte that it stands for. -/
  | escape {high low byte : Nat} {rest out : List Nat} : escape? high low = some byte → Scan escape? rest out →
    Scan escape? (0x25 :: high :: low :: rest) (byte :: out)
  /-- A byte that begins no escape is kept. -/
  | verbatim {byte : Nat} {rest out : List Nat} :
    (∀ high low more, byte = 0x25 → rest = high :: low :: more → escape? high low = none) → Scan escape? rest out →
    Scan escape? (byte :: rest) (byte :: out)

section
variable {escape? : Nat → Nat → Option Nat} {bytes out out' : List Nat}

theorem Scan.unique (h : Scan escape? bytes out) (h' : Scan escape? bytes out') : out = out' := by
  induction h generalizing out' with
  | done =>
    cases h'
    rfl
  | escape hbyte _ ih =>
    cases h' with
    | escape hbyte' hrest =>
      obtain rfl := Option.some.inj (hbyte.symm.trans hbyte')
      rw [ih hrest]
    | verbatim hnone _ => exact nomatch (hnone _ _ _ rfl rfl).symm.trans hbyte
  | verbatim hnone _ ih =>
    cases h' with
    | escape hbyte _ => exact nomatch (hnone _ _ _ rfl rfl).symm.trans hbyte
    | verbatim _ hrest => rw [ih hrest]

theorem Scan.verbatim_of_ne {byte : Nat} {rest : List Nat} (hbyte : byte ≠ 0x25) (h : Scan escape? rest out) :
    Scan escape? (byte :: rest) (byte :: out) := .verbatim (fun _ _ _ heq => absurd heq hbyte) h

/-- Behind any other byte than a percent sign a scan goes on. -/
theorem Scan.of_cons_ne {byte : Nat} {rest : List Nat} (hbyte : byte ≠ 0x25) (h : Scan escape? (byte :: rest) out) :
    ∃ more, out = byte :: more ∧ Scan escape? rest more := by
  cases h with
  | escape => exact absurd rfl hbyte
  | verbatim _ hrest => exact ⟨_, rfl, hrest⟩

end

/-- What there is to scan can be scanned, by any rule. -/
theorem exists_scan (escape? : Nat → Nat → Option Nat) : ∀ bytes : List Nat, ∃ out, Scan escape? bytes out
  | [] => ⟨[], .done⟩
  | byte :: rest => by
    obtain ⟨out, hrest⟩ := exists_scan escape? rest
    by_cases hescape : ∃ high low more value, byte = 0x25 ∧ rest = high :: low :: more ∧ escape? high low = some value
    · obtain ⟨high, low, more, value, rfl, rfl, hvalue⟩ := hescape
      obtain ⟨out', hmore⟩ := exists_scan escape? more
      exact ⟨value :: out', .escape hvalue hmore⟩
    · refine ⟨byte :: out, .verbatim (fun high low more hbyte heq => ?_) hrest⟩
      cases hvalue : escape? high low with
      | none => rfl
      | some value => exact absurd ⟨high, low, more, value, hbyte, heq, hvalue⟩ hescape

theorem decodeBytes_cons_of_ne {byte : Nat} (h : byte ≠ 0x25) (rest : List Nat) :
    decodeBytes (byte :: rest) = byte :: decodeBytes rest := by
  match rest with
  | [] => rfl
  | [_] => rfl
  | high :: low :: rest => rw [decodeBytes, if_neg h]

theorem decodeBytes_escape {high low byte : Nat} (h : escapedByte? high low = some byte) (rest : List Nat) :
    decodeBytes (0x25 :: high :: low :: rest) = byte :: decodeBytes rest := by
  rw [decodeBytes, if_pos rfl, h]

/-- **Decoding is a scan** by its own rule. -/
theorem decodeBytes_eq {bytes out : List Nat} (h : Scan escapedByte? bytes out) : decodeBytes bytes = out := by
  induction h with
  | done => rfl
  | escape hbyte _ ih => rw [decodeBytes_escape hbyte, ih]
  | @verbatim byte rest out hnone _ ih =>
    match rest, hnone, ih with
    | [], _, ih => rw [← ih]; rfl
    | [_], _, ih => rw [← ih]; rfl
    | high :: low :: more, hnone, ih =>
      by_cases hbyte : byte = 0x25
      · rw [decodeBytes, if_pos hbyte, hnone high low more hbyte rfl, ih]
      · rw [decodeBytes, if_neg hbyte, ih]

/-! ## Plus signs

Where the two rules differ, one scan has a byte below 16 and the other one the three bytes as they are, and both go on
behind them. -/

section
variable {high low byte : Nat} {bytes rest plain out : List Nat}

theorem ne_of_hexOfByte? {digit value : Nat} (h : hexOfByte? digit = some value) :
    value < 16 ∧ digit ≠ 0x25 ∧ digit ≠ 0x2B := by
  grind [hexOfByte?]

theorem escapedByte?_plus (low : Nat) : escapedByte? 0x2B low = hexOfByte? low := by
  unfold escapedByte?
  cases hexOfByte? low <;> rfl

theorem escapedByte?_of_ne (hhigh : high ≠ 0x2B) : escapedByte? high low = hexPair? high low := by
  unfold escapedByte? hexPair?
  cases hexOfByte? low <;> cases hexOfByte? high <;> simp [hhigh]

theorem signed_of_rest (h : Signed rest) : Signed (byte :: rest) := by
  obtain ⟨digit, hdigit, hoccurs⟩ := h
  exact ⟨digit, hdigit, hoccurs.trans (List.suffix_cons byte rest).isInfix⟩

/-- A sign is in front or further behind. -/
theorem signed_cons (h : Signed (byte :: rest)) : Signed rest ∨
    ∃ digit more, byte = 0x25 ∧ rest = 0x2B :: digit :: more ∧ (hexOfByte? digit).isSome := by
  obtain ⟨digit, hdigit, hoccurs⟩ := h
  rcases List.infix_cons_iff.1 hoccurs with ⟨more, hfront⟩ | hbehind
  · obtain ⟨rfl, hrest⟩ := List.cons.inj hfront
    exact .inr ⟨digit, more, rfl, hrest.symm, hdigit⟩
  · exact .inl ⟨digit, hdigit, hbehind⟩

/-- Without signs the digits alone are looked at. -/
theorem Scan.escaped_of_not_signed (h : Scan hexPair? bytes plain) (hsigned : ¬ Signed bytes) :
    Scan escapedByte? bytes plain := by
  induction h with
  | done => exact .done
  | @escape high low byte rest out hbyte _ ih =>
    have hhigh : high ≠ 0x2B := by
      rintro rfl
      cases hbyte
    refine .escape ((escapedByte?_of_ne hhigh).trans hbyte) (ih fun hrest => hsigned ?_)
    exact signed_of_rest (signed_of_rest (signed_of_rest hrest))
  | @verbatim byte rest out hnone _ ih =>
    refine .verbatim (fun high low more hbyte heq => ?_) (ih fun hrest => hsigned (signed_of_rest hrest))
    by_cases hhigh : high = 0x2B
    · subst hhigh hbyte heq
      rw [escapedByte?_plus, ← Option.not_isSome_iff_eq_none]
      exact fun hdigit => hsigned ⟨low, hdigit, (List.prefix_append [0x25, 0x2B, low] more).isInfix⟩
    · rw [escapedByte?_of_ne hhigh]
      exact hnone high low more hbyte heq

/-- No sign reaches over two digits. -/
theorem signed_of_pair (hpair : hexPair? high low = some byte) (h : Signed (0x25 :: high :: low :: rest)) :
    Signed rest := by
  obtain ⟨_, hfirst, _, hsecond, -, hhigh, hlow⟩ := hexPair?_eq_some_iff.1 hpair
  have hhigh := ne_of_hexOfByte? (hexOfByte?_eq_some_iff.2 ⟨hfirst, hhigh⟩)
  have hlow := ne_of_hexOfByte? (hexOfByte?_eq_some_iff.2 ⟨hsecond, hlow⟩)
  rcases signed_cons h with h | ⟨_, _, -, heq, -⟩
  · rcases signed_cons h with h | ⟨_, _, heq, -, -⟩
    · rcases signed_cons h with h | ⟨_, _, heq, -, -⟩
      · exact h
      · exact absurd heq hlow.2.1
    · exact absurd heq hhigh.2.1
  · exact absurd (List.cons.inj heq).1 hhigh.2.2

/-- The digits alone keep the three bytes of a sign. -/
theorem Scan.of_sign (hdigit : hexOfByte? low = some byte) (h : Scan hexPair? (0x25 :: 0x2B :: low :: rest) plain) :
    ∃ more, plain = 0x25 :: 0x2B :: low :: more ∧ Scan hexPair? rest more := by
  cases h with
  | escape hnone _ => cases hnone
  | verbatim _ hbehind =>
    obtain ⟨_, rfl, hdigits⟩ := hbehind.of_cons_ne (by decide)
    obtain ⟨more, rfl, hmore⟩ := hdigits.of_cons_ne (ne_of_hexOfByte? hdigit).2.1
    exact ⟨more, rfl, hmore⟩

/-- **Every sign costs a plus sign.** -/
theorem count_plus (h : Scan escapedByte? bytes out) : ∀ plain, Scan hexPair? bytes plain →
    out.count 0x2B ≤ plain.count 0x2B ∧ (Signed bytes → out.count 0x2B < plain.count 0x2B) := by
  induction h with
  | done =>
    intro plain hplain
    cases hplain
    exact ⟨Nat.le_refl _, fun ⟨_, _, hoccurs⟩ => by simp at hoccurs⟩
  | @escape high low byte rest out hbyte _ ih =>
    intro plain hplain
    by_cases hhigh : high = 0x2B
    · -- one plus sign less, and the byte is none
      subst hhigh
      rw [escapedByte?_plus] at hbyte
      obtain ⟨hvalue, -, hplus⟩ := ne_of_hexOfByte? hbyte
      obtain ⟨more, rfl, hmore⟩ := hplain.of_sign hbyte
      have hrest := (ih more hmore).1
      have hout : (byte :: out).count 0x2B = out.count 0x2B := List.count_cons_of_ne (by omega)
      have hplain : (0x25 :: 0x2B :: low :: more).count 0x2B = more.count 0x2B + 1 := by
        rw [List.count_cons_of_ne (by decide), List.count_cons_self, List.count_cons_of_ne hplus]
      rw [hout, hplain]
      exact ⟨Nat.le_succ_of_le hrest, fun _ => Nat.lt_succ_of_le hrest⟩
    · rw [escapedByte?_of_ne hhigh] at hbyte
      cases hplain with
      | verbatim hnone _ => exact nomatch (hnone _ _ _ rfl rfl).symm.trans hbyte
      | escape hbyte' hmore =>
        obtain rfl := Option.some.inj (hbyte.symm.trans hbyte')
        obtain ⟨hle, hlt⟩ := ih _ hmore
        rw [List.count_cons, List.count_cons]
        exact ⟨Nat.add_le_add_right hle _, fun hsigned => Nat.add_lt_add_right (hlt (signed_of_pair hbyte hsigned)) _⟩
  | @verbatim byte rest out hnone _ ih =>
    intro plain hplain
    cases hplain with
    | escape hpair _ =>
      refine absurd (hnone _ _ _ rfl rfl) ?_
      rw [escapedByte?_of_ne, hpair]
      · exact Option.some_ne_none _
      · rintro rfl
        cases hpair
    | verbatim _ hmore =>
      obtain ⟨hle, hlt⟩ := ih _ hmore
      rw [List.count_cons, List.count_cons]
      refine ⟨Nat.add_le_add_right hle _, fun hsigned => Nat.add_lt_add_right (hlt ?_) _⟩
      rcases signed_cons hsigned with hsigned | ⟨digit, more, hbyte, heq, hdigit⟩
      · exact hsigned
      · rw [← escapedByte?_plus, hnone _ _ _ hbyte heq] at hdigit
        cases hdigit

end

/-! ## Fragments -/

/-- The text that bytes are, where they are text. -/
def readBytes (bytes : List Nat) : String := String.ofList (Text.Utf8.decodeLossy bytes)

theorem readBytes_inj_count {bytes others : List Nat} (h : readBytes bytes = readBytes others) :
    bytes.count 0x2B = others.count 0x2B := by
  have hchars : Text.Utf8.decodeLossy bytes = Text.Utf8.decodeLossy others := String.ofList_inj.1 h
  have hcount : ∀ bytes, (Text.Utf8.decodeLossy bytes).count '+' = bytes.count 0x2B :=
    Text.Utf8.count_decodeLossy (by decide) (by decide)
  rw [← hcount, ← hcount, hchars]

/-- **What fragments are decoded to.**  The bytes of any fragment can be scanned, in one way, for percent signs with two
hexadecimal digits.  The fragment is decoded to the text of what this gives exactly if no percent sign in it has a plus
sign and a digit behind it; and always to the text of what a scan gives that takes these for escapes, too. -/
theorem decodeFragment_scanned (fragment : String) :
    (∃! plain, Scan hexPair? (Text.Utf8.encode fragment.toList) plain) ∧
    (∀ plain, Scan hexPair? (Text.Utf8.encode fragment.toList) plain →
      (decodeFragment fragment = readBytes plain ↔ ¬ Signed (Text.Utf8.encode fragment.toList))) ∧
    ∀ out, Scan escapedByte? (Text.Utf8.encode fragment.toList) out → decodeFragment fragment = readBytes out := by
  have hdecoded : ∀ out, Scan escapedByte? (Text.Utf8.encode fragment.toList) out →
      decodeFragment fragment = readBytes out := by
    intro out hout
    unfold decodeFragment readBytes
    rw [decodeBytes_eq hout]
  refine ⟨?_, fun plain hplain => ⟨fun heq hsigned => ?_, fun hsigned => ?_⟩, hdecoded⟩
  · obtain ⟨plain, hplain⟩ := exists_scan hexPair? (Text.Utf8.encode fragment.toList)
    exact ⟨plain, hplain, fun other hother => hother.unique hplain⟩
  · obtain ⟨out, hout⟩ := exists_scan escapedByte? (Text.Utf8.encode fragment.toList)
    have hcount := readBytes_inj_count ((hdecoded out hout).symm.trans heq)
    exact Nat.ne_of_lt ((count_plus hout plain hplain).2 hsigned) hcount
  · exact hdecoded plain (hplain.escaped_of_not_signed hsigned)

/-- An escape, and two percent signs that begin none. -/
def mixedEscapes : String := "%2Fa%é%4"

/-- A percent sign with a plus sign and a digit behind it. -/
def signedEscape : String := "%+f"

theorem scan_mixedEscapes : Scan hexPair? (Text.Utf8.encode mixedEscapes.toList) (Text.Utf8.encode "/a%é%4".toList) := by
  change Scan hexPair? [0x25, 0x32, 0x46, 0x61, 0x25, 0xC3, 0xA9, 0x25, 0x34] [0x2F, 0x61, 0x25, 0xC3, 0xA9, 0x25, 0x34]
  refine .escape rfl (.verbatim_of_ne (by decide) (.verbatim ?_ ?_))
  · rintro high low more - ⟨⟩
    rfl
  refine .verbatim_of_ne (by decide) (.verbatim_of_ne (by decide) (.verbatim nofun ?_))
  exact .verbatim_of_ne (by decide) .done

theorem scan_signedEscape : Scan hexPair? (Text.Utf8.encode signedEscape.toList) [0x25, 0x2B, 0x66] := by
  refine .verbatim ?_ (.verbatim_of_ne (by decide) (.verbatim_of_ne (by decide) .done))
  rintro high low more - ⟨⟩
  rfl

/-- Percent signs that begin no escape are kept, before other bytes than digits and at the end.  With a plus sign behind
it one is not. -/
theorem decodeFragment_scanned_mixed :
    decodeFragment mixedEscapes = readBytes (Text.Utf8.encode "/a%é%4".toList) ∧
      decodeFragment signedEscape ≠ readBytes [0x25, 0x2B, 0x66] ∧ decodeFragment signedEscape = readBytes [0x0F] := by
  obtain ⟨-, hmixed, -⟩ := decodeFragment_scanned mixedEscapes
  obtain ⟨-, hsigned, hescaped⟩ := decodeFragment_scanned signedEscape
  refine ⟨(hmixed _ scan_mixedEscapes).2 ?_, fun heq => (hsigned _ scan_signedEscape).1 heq ?_, hescaped _ ?_⟩
  · rintro ⟨_, -, hoccurs⟩
    have hplus : 0x2B ∈ Text.Utf8.encode mixedEscapes.toList := hoccurs.subset (by simp)
    revert hplus
    decide
  · exact ⟨0x66, rfl, List.infix_rfl⟩
  · exact .escape rfl .done

/-- **A plus sign is taken for a digit.** -/
theorem not_forall_decodeFragment : ¬ ∀ fragment plain, Scan hexPair? (Text.Utf8.encode fragment.toList) plain →
    decodeFragment fragment = readBytes plain := by
  intro h
  have heq := h signedEscape _ scan_signedEscape
  revert heq
  decide +kernel

end SchemaTypes.Reference
