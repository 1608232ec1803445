import SchemaTypes.Building.References
import SchemaTypes.Proofs.Reference.PercentEscapes
/-!
# Addresses of nodes

A path leads from a document to one of its nodes, by names of members and indexes of items.  It is written as a pointer,
which escapes tildes and slashes in its tokens, and the pointer's bytes are percent-encoded behind a hash sign
(`address`).  Reading undoes the three layers one after the other, each of them exactly:

* the fragment is what is behind the first hash sign, whatever it holds;
* an encoded byte begins no other escape than its own (`decodeBytes_percentEncode`), and UTF-8 is read back;
* an escaped token has no slash, so the tokens are found as they were, and `~1` is never made of the `~0` before
  it (`unescapeToken_escapeToken`).

So every node of every document has an address (`lookup?_address`).
-/
namespace SchemaTypes

namespace Text

variable {separator : Char} {part rest : List Char}

theorem splitAt_of_not_mem (h : separator ∉ part) : splitAt separator part = [part] := by
  induction part with
  | nil => rfl
  | cons c part ih =>
    rw [List.mem_cons, not_or] at h
    rw [splitAt, if_neg (Ne.symm h.1), ih h.2]

theorem splitAt_append (h : separator ∉ part) (rest : List Char) :
    splitAt separator (part ++ separator :: rest) = part :: splitAt separator rest := by
  induction part with
  | nil => rw [List.nil_append, splitAt, if_pos rfl]
  | cons c part ih =>
    rw [List.mem_cons, not_or] at h
    rw [List.cons_append, splitAt, if_neg (Ne.symm h.1), ih h.2]

/-- Parts that are put behind a separator each are found again. -/
theorem splitAt_flatMap {parts : List (List Char)} (hpart : separator ∉ part) (h : ∀ other ∈ parts, separator ∉ other) :
    splitAt separator (part ++ parts.flatMap (separator :: ·)) = part :: parts := by
  induction parts generalizing part with
  | nil => rw [List.flatMap_nil, List.append_nil, splitAt_of_not_mem hpart]
  | cons first parts ih =>
    obtain ⟨hfirst, hparts⟩ := List.forall_mem_cons.1 h
    rw [List.flatMap_cons, List.cons_append, splitAt_append hpart, ih hfirst hparts]

end Text

namespace Reference

/-! ## Paths -/

/-- A step from a value to one of its parts.  An index is a machine word, as many as an array can have items. -/
inductive PathStep where
  | member (name : String)
  | item (index : UInt64)

/-- A step as a pointer spells it. -/
def PathStep.name : PathStep → String
  | .member name => name
  | .item index => toString index.toNat

/-- A path leads from the first value to the second. -/
inductive LeadsTo : Json → List PathStep → Json → Prop
  | here {node : Json} : LeadsTo node [] node
  | member {members : Members} {name : String} {value node : Json} {path : List PathStep} :
    members.get? name = some value → LeadsTo value path node →
    LeadsTo (.object members) (.member name :: path) node
  | item {items : List Json} {index : UInt64} {value node : Json} {path : List PathStep} :
    items[index.toNat]? = some value → LeadsTo value path node →
    LeadsTo (.array items) (.item index :: path) node

/-! ## Tokens -/

def escapeChar (c : Char) : List Char :=
  if c = '~' then ['~', '0'] else if c = '/' then ['~', '1'] else [c]

def escapeToken (token : List Char) : List Char := token.flatMap escapeChar

/-- The pointer that spells a path. -/
def pointer (path : List PathStep) : List Char := path.flatMap fun step => '/' :: escapeToken step.name.toList

theorem not_mem_escapeToken (token : List Char) : '/' ∉ escapeToken token := by
  unfold escapeToken
  rw [List.mem_flatMap]
  rintro ⟨c, -, hc⟩
  unfold escapeChar at hc
  split at hc
  · exact absurd hc (by decide)
  split at hc
  · exact absurd hc (by decide)
  · rename_i hslash
    exact hslash (List.mem_singleton.1 hc).symm

theorem escapeToken_eq_nil {token : List Char} : escapeToken token = [] ↔ token = [] := by
  unfold escapeToken
  rw [List.flatMap_eq_nil_iff]
  constructor
  · intro h
    cases token with
    | nil => rfl
    | cons c token =>
      have hc := h c List.mem_cons_self
      unfold escapeChar at hc
      split at hc
      · cases hc
      split at hc <;> cases hc
  · rintro rfl
    exact List.forall_mem_nil _

/-- The escapes of tildes only. -/
def escapeTildes (token : List Char) : List Char := token.flatMap fun c => if c = '~' then ['~', '0'] else [c]

theorem replaceAll_slashes (token : List Char) :
    Text.replaceAll ['~', '1'] ['/'] (escapeToken token) = escapeTildes token := by
  unfold Text.replaceAll
  induction token with
  | nil => rfl
  | cons c token ih =>
    unfold escapeToken escapeTildes at *
    rw [List.flatMap_cons, List.flatMap_cons]
    by_cases htilde : c = '~'
    · subst htilde
      simp [escapeChar, Text.replaceFrom, ih]
    by_cases hslash : c = '/'
    · subst hslash
      simp [escapeChar, Text.replaceFrom, ih]
    · have hbegins : '~' ≠ c := Ne.symm htilde
      simp [escapeChar, htilde, hslash, Text.replaceFrom, hbegins, ih]

theorem replaceAll_tildes (token : List Char) : Text.replaceAll ['~', '0'] ['~'] (escapeTildes token) = token := by
  unfold Text.replaceAll
  induction token with
  | nil => rfl
  | cons c token ih =>
    unfold escapeTildes at *
    rw [List.flatMap_cons]
    by_cases htilde : c = '~'
    · subst htilde
      simp [Text.replaceFrom, ih]
    · have hbegins : '~' ≠ c := Ne.symm htilde
      simp [htilde, Text.replaceFrom, hbegins, ih]

/-- **A token is read as it was.**  Slashes are undone first, while every tilde still has its mark behind it. -/
theorem unescapeToken_escapeToken (token : List Char) : unescapeToken (escapeToken token) = token := by
  unfold unescapeToken
  rw [replaceAll_slashes, replaceAll_tildes]

/-! ## Indexes -/

theorem head?_toDigits (n : Nat) (hpos : 0 < n) : (Nat.toDigits 10 n).head? ≠ some '0' := by
  induction n using Nat.strongRecOn with
  | ind n ih =>
    by_cases hsmall : n < 10
    · rw [Nat.toDigits_of_lt_base hsmall]
      have hdigit : ∀ n < 10, 0 < n → [n.digitChar].head? ≠ some '0' := by decide
      exact hdigit n hsmall hpos
    · have hfront := ih (n / 10) (by omega) (by omega)
      obtain ⟨c, rest, hcons⟩ := List.exists_cons_of_ne_nil (@Nat.toDigits_ne_nil (n / 10) 10)
      rw [Nat.toDigits_of_base_le (by decide) (by omega), hcons]
      rwa [hcons] at hfront

/-- **An index is read as it is written.** -/
theorem index?_toString {n : Nat} (h : n < Nat.pow 2 64) : index? (toString n).toList = some n := by
  have hdigits : (toString n).toList = Nat.toDigits 10 n := by
    rw [Nat.toString_eq_ofList_toDigits, String.toList_ofList]
  have hvalue : (Nat.toDigits 10 n).foldl (fun value c => 10 * value + (c.toNat - 48)) 0 = n :=
    Nat.ofDigitChars_eq_foldl.symm.trans Nat.ofDigitChars_ten_toDigits
  have hall : (Nat.toDigits 10 n).all Char.isDigit = true :=
    List.all_eq_true.2 fun c hc => Nat.isDigit_of_mem_toDigits (by decide) (by decide) hc
  have hleading : ¬ ((Nat.toDigits 10 n).head? = some '0' ∧ 1 < (Nat.toDigits 10 n).length) := by
    rintro ⟨hzero, hlength⟩
    rcases Nat.eq_zero_or_pos n with rfl | hpos
    · exact absurd hlength (by decide)
    · exact head?_toDigits n hpos hzero
  have hproper : ¬ ((Nat.toDigits 10 n).isEmpty ∨ ¬ (Nat.toDigits 10 n).all Char.isDigit ∨
      (Nat.toDigits 10 n).head? = some '0' ∧ 1 < (Nat.toDigits 10 n).length) := by
    rintro (hempty | hother | hzero)
    · exact Nat.toDigits_ne_nil (List.isEmpty_iff.1 hempty)
    · exact hother hall
    · exact hleading hzero
  unfold index?
  rw [hdigits, if_neg hproper, hvalue]
  exact if_pos h

/-! ## Looking up -/

/-- Step after step a path leads to its node. -/
theorem foldl_step? {value node : Json} {path : List PathStep} (h : LeadsTo value path node) :
    (path.map fun step => step.name.toList).foldl (fun value? token => value?.bind (step? · token)) (some value) =
      some node := by
  induction h with
  | here => rfl
  | @member members name value node path hvalue _ ih =>
    have hstep : step? (.object members) name.toList = some value := by
      simp only [step?, String.ofList_toList]
      exact hvalue
    rw [List.map_cons, List.foldl_cons, PathStep.name, Option.bind_some, hstep, ih]
  | @item items index value node path hvalue _ ih =>
    have hstep : step? (.array items) (toString index.toNat).toList = some value := by
      simp only [step?, index?_toString index.toNat_lt]
      exact hvalue
    rw [List.map_cons, List.foldl_cons, PathStep.name, Option.bind_some, hstep, ih]

/-- The tokens of a pointer are found, behind the empty text before its first slash. -/
theorem splitAt_pointer (path : List PathStep) :
    Text.splitAt '/' (pointer path) = [] :: path.map fun step => escapeToken step.name.toList := by
  have htokens : ∀ token ∈ path.map fun step => escapeToken step.name.toList, '/' ∉ token := by
    intro token htoken
    obtain ⟨step, -, rfl⟩ := List.mem_map.1 htoken
    exact not_mem_escapeToken _
  have hsplit := Text.splitAt_flatMap List.not_mem_nil htokens
  rwa [List.flatMap_map] at hsplit

theorem splitAt_pointer_tail {step : PathStep} {path : List PathStep} :
    Text.splitAt '/' (escapeToken step.name.toList ++ pointer path) =
      (step :: path).map fun step => escapeToken step.name.toList := by
  have hall : [] :: Text.splitAt '/' (escapeToken step.name.toList ++ pointer path) =
      [] :: (step :: path).map fun step => escapeToken step.name.toList := splitAt_pointer (step :: path)
  exact (List.cons.inj hall).2

/-- **A pointer leads to the node of its path.** -/
theorem lookup?_pointer {document node : Json} {path : List PathStep} (h : LeadsTo document path node) :
    lookup? document (String.ofList (pointer path)) = some node := by
  unfold lookup?
  rw [String.toList_ofList]
  cases path with
  | nil => exact foldl_step? h
  | cons step path =>
    have htokens : ((step :: path).map fun step => escapeToken step.name.toList).map unescapeToken =
        (step :: path).map fun step => step.name.toList := by
      rw [List.map_map]
      exact List.map_congr_left fun step _ => unescapeToken_escapeToken _
    change ((Text.splitAt '/' (escapeToken step.name.toList ++ pointer path)).map unescapeToken).foldl _ _ = _
    rw [splitAt_pointer_tail, htokens]
    exact foldl_step? h

/-- The name that a path ends with, unless it is empty. -/
def lastName? (path : List PathStep) : Option String := (path.getLast?.map PathStep.name).filter (· ≠ "")

theorem lastSegment?_pointer (path : List PathStep) : lastSegment? (String.ofList (pointer path)) = lastName? path := by
  have hlast : Text.lastPart '/' (pointer path) =
      (path.getLast?.map fun step => escapeToken step.name.toList).getD [] := by
    unfold Text.lastPart
    rw [splitAt_pointer]
    rcases List.eq_nil_or_concat path with rfl | ⟨front, step, rfl⟩
    · rfl
    · simp [List.getLast?_cons]
  unfold lastSegment? lastName?
  rw [String.toList_ofList, hlast]
  cases path.getLast? with
  | none => rfl
  | some step =>
    simp only [Option.map_some, Option.getD_some]
    by_cases hname : step.name = ""
    · rw [hname]
      rfl
    · have htoken : escapeToken step.name.toList ≠ [] :=
        fun hnil => hname (String.toList_eq_nil_iff.1 (escapeToken_eq_nil.1 hnil))
      obtain ⟨c, token, hcons⟩ := List.exists_cons_of_ne_nil htoken
      rw [hcons]
      simp only [← hcons, unescapeToken_escapeToken, String.ofList_toList]
      simp [Option.filter, hname]

/-! ## Percent encoding -/

/-- The letters, the digits and four marks. -/
def isUnreserved (byte : Nat) : Bool :=
  (0x41 ≤ byte && byte ≤ 0x5A) || (0x61 ≤ byte && byte ≤ 0x7A) || (0x30 ≤ byte && byte ≤ 0x39) ||
    ['-', '.', '_', '~'].any (·.toNat = byte)

/-- Slashes stay, too, since they divide a pointer. -/
def percentEncodeByte (letters : HexCase) (byte : Nat) : List Char :=
  if isUnreserved byte || byte = '/'.toNat then [Char.ofNat byte]
  else ['%', hexDigit letters (byte / 16), hexDigit letters (byte % 16)]

def percentEncode (letters : HexCase) (bytes : List Nat) : List Char := bytes.flatMap (percentEncodeByte letters)

/-- The reference to the node of a path, within its document. -/
def address (letters : HexCase) (path : List PathStep) : String :=
  String.ofList ('#' :: percentEncode letters (Text.Utf8.encode (pointer path)))

theorem hexDigit_lt (letters : HexCase) : ∀ value < 16, (hexDigit letters value).toNat < 0x80 := by
  cases letters <;> decide

theorem escapedByte?_hexDigit (letters : HexCase) {byte : Nat} (h : byte < 256) :
    escapedByte? (hexDigit letters (byte / 16)).toNat (hexDigit letters (byte % 16)).toNat = some byte := by
  have hhigh := hexOfByte?_hexDigit letters (byte / 16) (by omega)
  have hlow := hexOfByte?_hexDigit letters (byte % 16) (by omega)
  rw [escapedByte?_of_ne (ne_of_hexOfByte? hhigh).2.2, hexPair?, hhigh, hlow]
  exact congrArg some (by omega)

/-- What stands for itself is ASCII, and no percent sign. -/
theorem lt_of_kept {byte : Nat} (h : (isUnreserved byte || byte = '/'.toNat) = true) : byte < 0x80 ∧ byte ≠ 0x25 := by
  simp [isUnreserved] at h
  omega

/-- **An encoded byte is decoded**, whatever comes behind it. -/
theorem decodeBytes_percentEncodeByte (letters : HexCase) {byte : Nat} (h : byte < 256) (rest : List Nat) :
    decodeBytes (Text.Utf8.encode (percentEncodeByte letters byte) ++ rest) = byte :: decodeBytes rest := by
  unfold percentEncodeByte
  split
  · rename_i hkept
    obtain ⟨hascii, hpercent⟩ := lt_of_kept hkept
    have hbyte : (Char.ofNat byte).toNat = byte := Text.Utf8.toNat_ofNat (.inl (by omega))
    rw [Text.Utf8.encode_ascii (by simpa [hbyte] using hascii), List.map_singleton, hbyte, List.singleton_append,
      decodeBytes_cons_of_ne hpercent]
  · have hascii : ∀ c ∈ ['%', hexDigit letters (byte / 16), hexDigit letters (byte % 16)], c.toNat < 0x80 := by
      simp only [List.forall_mem_cons]
      exact ⟨by decide, hexDigit_lt letters _ (by omega), hexDigit_lt letters _ (by omega), List.forall_mem_nil _⟩
    rw [Text.Utf8.encode_ascii hascii]
    exact decodeBytes_escape (escapedByte?_hexDigit letters h) rest

theorem decodeBytes_percentEncode (letters : HexCase) {bytes : List Nat} (h : ∀ byte ∈ bytes, byte < 256) :
    decodeBytes (Text.Utf8.encode (percentEncode letters bytes)) = bytes := by
  induction bytes with
  | nil => rfl
  | cons byte rest ih =>
    obtain ⟨hbyte, hrest⟩ := List.forall_mem_cons.1 h
    unfold percentEncode at *
    rw [List.flatMap_cons, Text.Utf8.encode_append, decodeBytes_percentEncodeByte letters hbyte, ih hrest]

/-- **A percent-encoded text is decoded** to what it was. -/
theorem decodeFragment_percentEncode (letters : HexCase) (text : List Char) :
    decodeFragment (String.ofList (percentEncode letters (Text.Utf8.encode text))) = String.ofList text := by
  unfold decodeFragment
  rw [String.toList_ofList, decodeBytes_percentEncode letters Text.Utf8.encode_lt, Text.Utf8.decodeLossy_encode]

theorem split_address (letters : HexCase) (path : List PathStep) :
    split (address letters path) = ("", String.ofList (percentEncode letters (Text.Utf8.encode (pointer path)))) := by
  unfold split address
  simp only
  rw [String.toList_ofList, List.takeWhile_cons_of_neg (by decide), List.dropWhile_cons_of_neg (by decide)]
  rfl

/-- **Every node has an address.**  Where a path leads to, the reference that is written for it leads, too: it names no
other document, its fragment is looked up to the node, and the last segment is the last name of the path, unless this is
empty.  So a reference in the document means the node. -/
theorem lookup?_address (letters : HexCase) {document node : Json} {path : List PathStep}
    (h : LeadsTo document path node) : ∃ fragment, split (address letters path) = ("", fragment) ∧
      lookup? document (decodeFragment fragment) = some node ∧
      lastSegment? (decodeFragment fragment) = lastName? path ∧
      ∀ (documents : Documents) (scope : Scope) (stored : Document), documents.get? scope.document = some stored →
        stored.value = document → Building.target? documents scope (address letters path) = some
          ⟨⟨stored.key, String.ofList (pointer path)⟩, stored.namespaceName, node,
            (lastName? path).getD (Building.documentName stored.key)⟩ := by
  have hsplit := split_address letters path
  have hdecoded := decodeFragment_percentEncode letters (pointer path)
  have hlookup := lookup?_pointer h
  have hlast := lastSegment?_pointer path
  refine ⟨_, hsplit, ?_, ?_, fun documents scope stored hstored hvalue => ?_⟩
  · rw [hdecoded, hlookup]
  · rw [hdecoded, hlast]
  · subst hvalue
    have hempty : "".isEmpty = true := rfl
    unfold Building.target?
    simp only [hsplit, hempty, if_true, hstored, hdecoded, hlookup, hlast, Option.bind_eq_bind, Option.bind_some]
    rfl

/-- A document whose names have all that is escaped, and nothing at all. -/
def strewn : Json := .object [("~1/%#é", .array [.null, .object [("", .ofNat 7)]])]

set_option maxRecDepth 100000 in
theorem lookup?_address_strewn :
    LeadsTo strewn [.member "~1/%#é", .item 1, .member ""] (.ofNat 7) ∧
    address .upper [.member "~1/%#é", .item 1, .member ""] = "#/~01~1%25%23%C3%A9/1/" ∧
    lookup? strewn (decodeFragment "/~01~1%25%23%C3%A9/1/") = some (.ofNat 7) ∧
    lastSegment? (decodeFragment "/~01~1%25%23%C3%A9/1/") = none := by
  have hpath : LeadsTo strewn [.member "~1/%#é", .item 1, .member ""] (.ofNat 7) :=
    .member rfl (.item rfl (.member rfl .here))
  have haddress : address .upper [.member "~1/%#é", .item 1, .member ""] = "#/~01~1%25%23%C3%A9/1/" := by
    decide +kernel
  have hsplit : split "#/~01~1%25%23%C3%A9/1/" = ("", "/~01~1%25%23%C3%A9/1/") := by decide +kernel
  obtain ⟨fragment, hfragment, hlookup, hlast, -⟩ := lookup?_address .upper hpath
  rw [haddress, hsplit] at hfragment
  obtain rfl : "/~01~1%25%23%C3%A9/1/" = fragment := (Prod.mk.inj hfragment).2
  exact ⟨hpath, haddress, hlookup, hlast⟩

end Reference
end SchemaTypes
