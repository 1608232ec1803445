import SchemaTypes.Text.Utf8
/-!
# Reading and writing UTF-8

What `encode` writes is read back as it was (`decodeLossy_encode`).  ASCII stands for itself in both directions: it is
never a part of a longer character, so a text has as many of an ASCII character as its bytes have
(`count_decodeLossy`).
-/
namespace SchemaTypes.Text.Utf8

/-! ## One byte after the other -/

theorem decodeFrom_cons (decoder : Decoder) (byte : Nat) (rest : List Nat) :
    decodeFrom decoder (byte :: rest) = (step decoder byte).2 ++ decodeFrom (step decoder byte).1 rest := rfl

theorem start_ascii {byte : Nat} (h : byte < 0x80) : start byte = (.idle, [Char.ofNat byte]) := by
  simp [start, followers?, h]

theorem start_of_followers {byte owed low high : Nat} (h : followers? byte = some (owed + 1, low, high)) :
    start byte = (.within (owed + 1) low high (leadBits (owed + 1) byte), []) := by
  simp [start, h]

section
variable {owed low high code byte : Nat}

theorem step_last (hlow : low ≤ byte) (hhigh : byte ≤ high) :
    step (.within 1 low high code) byte = (.idle, [Char.ofNat (code * 64 + byte % 64)]) := by
  simp [step, hlow, hhigh]

theorem step_more (hlow : low ≤ byte) (hhigh : byte ≤ high) :
    step (.within (owed + 2) low high code) byte = (.within (owed + 1) 0x80 0xBF (code * 64 + byte % 64), []) := by
  simp [step, hlow, hhigh]

end

/-! ## The bytes of a character -/

section
variable {code : Nat}

theorem followers_two (h : 0x80 ≤ code) (h' : code < 0x800) :
    followers? (0xC0 + code / 64) = some (1, 0x80, 0xBF) := by
  unfold followers?
  rw [if_neg (by omega), if_pos (by omega)]

/-- The second byte of three is in the range that the first one asks for, surrogates left out. -/
theorem followers_three (h : 0x800 ≤ code) (h' : code < 0x10000) (hscalar : code < 0xD800 ∨ 0xDFFF < code) :
    ∃ low high, followers? (0xE0 + code / 4096) = some (2, low, high) ∧
      low ≤ 0x80 + code / 64 % 64 ∧ 0x80 + code / 64 % 64 ≤ high := by
  unfold followers?
  rw [if_neg (by omega), if_neg (by omega)]
  by_cases hfirst : code / 4096 = 0
  · exact ⟨0xA0, 0xBF, by rw [if_pos (by omega)], by omega, by omega⟩
  · rw [if_neg (by omega)]
    by_cases hsurrogate : code / 4096 = 13
    · exact ⟨0x80, 0x9F, by rw [if_pos (by omega)], by omega, by omega⟩
    · rw [if_neg (by omega)]
      exact ⟨0x80, 0xBF, by rw [if_pos (by omega)], by omega, by omega⟩

/-- The second byte of four is in the range that the first one asks for. -/
theorem followers_four (h : 0x10000 ≤ code) (h' : code < 0x110000) :
    ∃ low high, followers? (0xF0 + code / 262144) = some (3, low, high) ∧
      low ≤ 0x80 + code / 4096 % 64 ∧ 0x80 + code / 4096 % 64 ≤ high := by
  unfold followers?
  rw [if_neg (by omega), if_neg (by omega), if_neg (by omega), if_neg (by omega), if_neg (by omega)]
  by_cases hfirst : code / 262144 = 0
  · exact ⟨0x90, 0xBF, by rw [if_pos (by omega)], by omega, by omega⟩
  · rw [if_neg (by omega)]
    by_cases hlast : code / 262144 = 4
    · rw [if_neg (by omega)]
      exact ⟨0x80, 0x8F, by rw [if_pos (by omega)], by omega, by omega⟩
    · exact ⟨0x80, 0xBF, by rw [if_pos (by omega)], by omega, by omega⟩

theorem leadBits_one (first : Nat) : leadBits 1 first = first % 32 := rfl

theorem leadBits_two (first : Nat) : leadBits 2 first = first % 16 := rfl

theorem leadBits_three (first : Nat) : leadBits 3 first = first % 8 := rfl

/-- Two bytes are read back. -/
theorem decodeFrom_two (h : 0x80 ≤ code) (h' : code < 0x800) (rest : List Nat) :
    decodeFrom .idle ([0xC0 + code / 64, 0x80 + code % 64] ++ rest) = Char.ofNat code :: decodeFrom .idle rest := by
  have hfirst := start_of_followers (followers_two h h')
  have hcode : leadBits 1 (0xC0 + code / 64) * 64 + (0x80 + code % 64) % 64 = code := by
    rw [leadBits_one]
    omega
  simp only [List.cons_append, List.nil_append]
  rw [decodeFrom_cons, step, hfirst, decodeFrom_cons, step_last (by omega) (by omega), hcode]
  rfl

/-- Three bytes are read back. -/
theorem decodeFrom_three (h : 0x800 ≤ code) (h' : code < 0x10000) (hscalar : code < 0xD800 ∨ 0xDFFF < code)
    (rest : List Nat) :
    decodeFrom .idle ([0xE0 + code / 4096, 0x80 + code / 64 % 64, 0x80 + code % 64] ++ rest) =
      Char.ofNat code :: decodeFrom .idle rest := by
  obtain ⟨low, high, hfollowers, hlow, hhigh⟩ := followers_three h h' hscalar
  have hfirst := start_of_followers hfollowers
  have hcode : (leadBits 2 (0xE0 + code / 4096) * 64 + (0x80 + code / 64 % 64) % 64) * 64 +
      (0x80 + code % 64) % 64 = code := by
    rw [leadBits_two]
    omega
  simp only [List.cons_append, List.nil_append]
  rw [decodeFrom_cons, step, hfirst, decodeFrom_cons, step_more hlow hhigh, decodeFrom_cons,
    step_last (by omega) (by omega), hcode]
  rfl

/-- Four bytes are read back. -/
theorem decodeFrom_four (h : 0x10000 ≤ code) (h' : code < 0x110000) (rest : List Nat) :
    decodeFrom .idle ([0xF0 + code / 262144, 0x80 + code / 4096 % 64, 0x80 + code / 64 % 64, 0x80 + code % 64] ++ rest) =
      Char.ofNat code :: decodeFrom .idle rest := by
  obtain ⟨low, high, hfollowers, hlow, hhigh⟩ := followers_four h h'
  have hfirst := start_of_followers hfollowers
  have hcode : ((leadBits 3 (0xF0 + code / 262144) * 64 + (0x80 + code / 4096 % 64) % 64) * 64 +
      (0x80 + code / 64 % 64) % 64) * 64 + (0x80 + code % 64) % 64 = code := by
    rw [leadBits_three]
    omega
  simp only [List.cons_append, List.nil_append]
  rw [decodeFrom_cons, step, hfirst, decodeFrom_cons, step_more hlow hhigh, decodeFrom_cons,
    step_more (by omega) (by omega), decodeFrom_cons, step_last (by omega) (by omega), hcode]
  rfl

end

theorem isScalar (c : Char) : c.toNat < 0xD800 ∨ 0xDFFF < c.toNat ∧ c.toNat < 0x110000 := c.valid

theorem decodeFrom_encodeChar (c : Char) (rest : List Nat) :
    decodeFrom .idle (encodeChar c ++ rest) = c :: decodeFrom .idle rest := by
  have hscalar := isScalar c
  have hread := Char.ofNat_toNat c
  unfold encodeChar
  simp only
  split
  · rename_i hone
    rw [List.singleton_append, decodeFrom_cons, step, start_ascii hone, hread]
    rfl
  split
  · rename_i hone htwo
    exact (decodeFrom_two (Nat.le_of_not_lt hone) htwo rest).trans (congrArg (· :: _) hread)
  split
  · rename_i htwo hthree
    have hnone : c.toNat < 0xD800 ∨ 0xDFFF < c.toNat := by omega
    exact (decodeFrom_three (Nat.le_of_not_lt htwo) hthree hnone rest).trans (congrArg (· :: _) hread)
  · rename_i hthree
    have hlast : c.toNat < 0x110000 := by omega
    exact (decodeFrom_four (Nat.le_of_not_lt hthree) hlast rest).trans (congrArg (· :: _) hread)

theorem toNat_ofNat {code : Nat} (h : code.isValidChar) : (Char.ofNat code).toNat = code := by
  have hchar : Char.ofNat code = Char.ofNatAux code h := dif_pos h
  rw [hchar]
  rfl

theorem encodeChar_ascii {c : Char} (h : c.toNat < 0x80) : encodeChar c = [c.toNat] := by
  unfold encodeChar
  exact if_pos h

theorem encodeChar_lt {c : Char} {byte : Nat} (h : byte ∈ encodeChar c) : byte < 256 := by
  have hscalar := isScalar c
  unfold encodeChar at h
  generalize c.toNat = code at h hscalar
  simp only at h
  repeat' split at h
  all_goals
    simp only [List.mem_cons, List.not_mem_nil, or_false] at h
    omega

theorem encode_lt {text : List Char} : ∀ byte ∈ encode text, byte < 256 := by
  intro byte hbyte
  obtain ⟨c, -, hc⟩ := List.mem_flatMap.1 hbyte
  exact encodeChar_lt hc

/-- ASCII is written as it is. -/
theorem encode_ascii {text : List Char} (h : ∀ c ∈ text, c.toNat < 0x80) : encode text = text.map Char.toNat := by
  induction text with
  | nil => rfl
  | cons c text ih =>
    obtain ⟨hc, htext⟩ := List.forall_mem_cons.1 h
    change encodeChar c ++ encode text = _
    rw [encodeChar_ascii hc, ih htext]
    rfl

theorem encode_append (first second : List Char) : encode (first ++ second) = encode first ++ encode second :=
  List.flatMap_append

theorem encode_cons (c : Char) (text : List Char) : encode (c :: text) = encodeChar c ++ encode text := rfl

/-- **What is written is read back.** -/
theorem decodeLossy_encode (text : List Char) : decodeLossy (encode text) = text := by
  unfold decodeLossy
  induction text with
  | nil => rfl
  | cons c text ih => rw [encode_cons, decodeFrom_encodeChar, ih]

/-! ## ASCII

A character that is begun has bytes of its own, all beyond ASCII, and its code will be beyond ASCII. -/

/-- Whatever the begun character becomes, it is beyond ASCII. -/
def Decoder.IsLong : Decoder → Prop
  | .idle => True
  | .within owed low high code => 0x80 ≤ low ∧
      if owed = 1 then 2 ≤ code else ∀ byte, low ≤ byte → byte ≤ high → 2 ≤ code * 64 + byte % 64

theorem eq_toNat_of_ofNat_eq {code : Nat} {c : Char} (hc : 0 < c.toNat) (h : Char.ofNat code = c) : code = c.toNat := by
  by_cases hvalid : code.isValidChar
  · rw [← h, toNat_ofNat hvalid]
  · have hnull : Char.ofNat code = Char.ofNat 0 := dif_neg hvalid
    rw [← h, hnull] at hc
    exact absurd hc (by decide)

section
variable {c : Char}

theorem count_replacement (h : c.toNat < 0x80) (rest : List Char) : (replacement :: rest).count c = rest.count c := by
  refine List.count_cons_of_ne fun heq => ?_
  rw [← heq] at h
  exact absurd h (by decide)

theorem count_ofNat (hpos : 0 < c.toNat) {code : Nat} (hne : code ≠ c.toNat) : [Char.ofNat code].count c = 0 :=
  List.count_eq_zero.2 fun hmem => hne (eq_toNat_of_ofNat_eq hpos (List.mem_singleton.1 hmem).symm)

/-- A first byte with few bits of the code asks for a second one with more. -/
theorem followers?_cases {byte owed low high : Nat} (hbyte : 0x80 ≤ byte) (h : followers? byte = some (owed, low, high)) :
    0x80 ≤ low ∧ (owed = 1 ∧ 0xC2 ≤ byte ∧ byte ≤ 0xDF ∨
      owed = 2 ∧ 0xE0 ≤ byte ∧ byte ≤ 0xEF ∧ (byte = 0xE0 → 0xA0 ≤ low ∧ high ≤ 0xBF) ∨
      owed = 3 ∧ 0xF0 ≤ byte ∧ byte ≤ 0xF4 ∧ (byte = 0xF0 → 0x90 ≤ low ∧ high ≤ 0xBF)) := by
  grind [followers?]

/-- Beyond ASCII, a first byte begins a long character, or is replaced. -/
theorem start_cases {byte : Nat} (h : 0x80 ≤ byte) :
    start byte = (.idle, [replacement]) ∨ ∃ decoder : Decoder, start byte = (decoder, []) ∧ decoder.IsLong := by
  cases hfollowers : followers? byte with
  | none => exact .inl (by simp [start, hfollowers])
  | some range =>
    obtain ⟨owed, low, high⟩ := range
    refine .inr ?_
    obtain ⟨hlow, ⟨rfl, hfirst, hlast⟩ | ⟨rfl, hfirst, hlast, hleast⟩ | ⟨rfl, hfirst, hlast, hleast⟩⟩ :=
      followers?_cases h hfollowers
    · refine ⟨_, start_of_followers hfollowers, hlow, ?_⟩
      rw [if_pos rfl, leadBits_one]
      omega
    · refine ⟨_, start_of_followers hfollowers, hlow, ?_⟩
      rw [if_neg (by decide), leadBits_two]
      omega
    · refine ⟨_, start_of_followers hfollowers, hlow, ?_⟩
      rw [if_neg (by decide), leadBits_three]
      omega

theorem start_spec (hpos : 0 < c.toNat) (hascii : c.toNat < 0x80) (byte : Nat) :
    (start byte).1.IsLong ∧ (start byte).2.count c = [byte].count c.toNat := by
  by_cases hbyte : byte < 0x80
  · rw [start_ascii hbyte]
    refine ⟨trivial, ?_⟩
    by_cases heq : byte = c.toNat
    · simp [heq]
    · rw [count_ofNat hpos heq, List.count_singleton, if_neg (by simpa using heq)]
  · have hne : [byte].count c.toNat = 0 := by
      rw [List.count_singleton, if_neg (by simp; omega)]
    rw [hne]
    rcases start_cases (Nat.le_of_not_lt hbyte) with hreplaced | ⟨decoder, hbegun, hlong⟩
    · rw [hreplaced, count_replacement hascii]
      exact ⟨trivial, rfl⟩
    · rw [hbegun]
      exact ⟨hlong, rfl⟩

/-- **One byte** is read as an ASCII character exactly if it is this character's. -/
theorem step_spec (hpos : 0 < c.toNat) (hascii : c.toNat < 0x80) {decoder : Decoder} (hlong : decoder.IsLong)
    (byte : Nat) : (step decoder byte).1.IsLong ∧ (step decoder byte).2.count c = [byte].count c.toNat := by
  cases decoder with
  | idle => exact start_spec hpos hascii byte
  | within owed low high code =>
    obtain ⟨hlow, hcode⟩ := hlong
    simp only [step]
    split
    · rename_i hwithin
      have hne : [byte].count c.toNat = 0 := by
        rw [List.count_singleton, if_neg (by simp; omega)]
      rw [hne]
      split
      · rename_i hlast
        rw [if_pos hlast] at hcode
        exact ⟨trivial, count_ofNat hpos (by omega)⟩
      · rename_i hmore
        rw [if_neg hmore] at hcode
        have hlarge := hcode byte hwithin.1 hwithin.2
        refine ⟨⟨Nat.le_refl _, ?_⟩, rfl⟩
        split
        · exact hlarge
        · omega
    · obtain ⟨hnext, hcount⟩ := start_spec hpos hascii byte
      exact ⟨hnext, (count_replacement hascii _).trans hcount⟩

theorem count_finish (hascii : c.toNat < 0x80) (decoder : Decoder) : (finish decoder).count c = 0 := by
  cases decoder with
  | idle => rfl
  | within => exact count_replacement hascii []

theorem count_decodeFrom (hpos : 0 < c.toNat) (hascii : c.toNat < 0x80) (bytes : List Nat) :
    ∀ decoder : Decoder, decoder.IsLong → (decodeFrom decoder bytes).count c = bytes.count c.toNat := by
  induction bytes with
  | nil => exact fun decoder _ => count_finish hascii decoder
  | cons byte rest ih =>
    intro decoder hlong
    obtain ⟨hnext, hcount⟩ := step_spec hpos hascii hlong byte
    rw [decodeFrom_cons, List.count_append, hcount, ih _ hnext, ← List.count_append]
    rfl

/-- **ASCII is read as ASCII, and nothing else is.** -/
theorem count_decodeLossy (hpos : 0 < c.toNat) (hascii : c.toNat < 0x80) (bytes : List Nat) :
    (decodeLossy bytes).count c = bytes.count c.toNat := count_decodeFrom hpos hascii bytes .idle trivial

end

end SchemaTypes.Text.Utf8
