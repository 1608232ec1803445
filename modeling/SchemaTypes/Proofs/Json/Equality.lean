import Mathlib.Algebra.Group.Nat.Defs
import Mathlib.Data.List.Perm.Basic
import SchemaTypes.Json.Equality
import SchemaTypes.Proofs.Json.MemberOrder
/-!
# Laws of equality by value

Equality by value is reflexive and symmetric where objects have distinct names, and it does not see the order of members.
Both hold whatever makes two numbers equal, if that is reflexive and symmetric itself.

It is not transitive.  Two integers are compared exactly and an integer with a float as doubles, so a float may equal two
integers that differ: from `2^53` on neighbouring integers are rounded to one double.  What has to be told apart is all
there is to it: on values with integers of a set, equality is transitive exactly if no two integers of the set are rounded
to the same double (`Json.equal_trans`, `Json.toldApart_of_trans`).  Up to `2^53` none are (`Number.toldApart_of_le`).
-/
namespace SchemaTypes

/-! ## Numbers -/

namespace Number

variable {m n : Number} {within : Int → Prop}

/-- No two of these integers are rounded to the same double. -/
def ToldApart (within : Int → Prop) : Prop :=
  ∀ i j, within i → within j → (Binary64.ofInt i).units = (Binary64.ofInt j).units → i = j

/-- The number is a float or one of these integers. -/
def IsIn (within : Int → Prop) (n : Number) : Prop := ∀ i, n = .integer i → within i

/-- A number that a literal stands for: an integer of the signed or the unsigned 64-bit range, or a double. -/
def IsLiteral : Number → Prop
  | .integer i => -9223372036854775808 ≤ i ∧ i < 18446744073709551616
  | .float x => x.magnitude < Binary64.overflow ∧ roundSignificant x.magnitude 1 = x.magnitude

theorem equal_integer {i j : Int} : (Number.integer i).equal (.integer j) = true ↔ i = j := by
  rw [equal, compare_integer, beq_iff_eq]
  exact Std.LawfulEqCmp.compare_eq_iff_eq

theorem compare_doubles (x y : Int) : (Ord.compare x y == Ordering.eq) = true ↔ x = y := by
  rw [beq_iff_eq]
  exact Std.LawfulEqCmp.compare_eq_iff_eq

theorem equal_float_left {x : Binary64} : (Number.float x).equal n = true ↔ x.units = n.toBinary64.units := by
  rw [equal, compare_float_left]
  exact compare_doubles _ _

theorem equal_float_right {x : Binary64} : n.equal (.float x) = true ↔ n.toBinary64.units = x.units := by
  rw [equal, compare_float_right]
  exact compare_doubles _ _

theorem equal_refl (n : Number) : n.equal n = true := by
  cases n with
  | integer i => exact equal_integer.2 rfl
  | float x => exact equal_float_left.2 rfl

theorem equal_symm (h : m.equal n = true) : n.equal m = true := by
  cases m with
  | float x => exact equal_float_right.2 (equal_float_left.1 h).symm
  | integer i =>
    cases n with
    | float y => exact equal_float_left.2 (equal_float_right.1 h).symm
    | integer j => exact equal_integer.2 (equal_integer.1 h).symm

/-- Equal numbers are the same as doubles. -/
theorem units_eq_of_equal (h : m.equal n = true) : m.toBinary64.units = n.toBinary64.units := by
  cases m with
  | float x => exact equal_float_left.1 h
  | integer i =>
    cases n with
    | float y => exact equal_float_right.1 h
    | integer j => rw [equal_integer.1 h]

/-- Only between two integers is more asked for than the same double, and these are told apart. -/
theorem equal_trans {l : Number} (happart : ToldApart within) (hl : l.IsIn within) (hn : n.IsIn within)
    (h : l.equal m = true) (h' : m.equal n = true) : l.equal n = true := by
  have hunits := (units_eq_of_equal h).trans (units_eq_of_equal h')
  cases l with
  | float x => exact equal_float_left.2 hunits
  | integer i =>
    cases n with
    | float y => exact equal_float_right.2 hunits
    | integer j => exact equal_integer.2 (happart i j (hl i rfl) (hn j rfl) hunits)

/-! ### Integers that are doubles -/

theorem roundHalfEven_of_dvd {n d : Nat} (hd : 0 < d) (h : d ∣ n) : roundHalfEven n d = n / d := by
  unfold roundHalfEven
  simp [Nat.mod_eq_zero_of_dvd h, hd]

theorem roundSignificant_of_dvd {n : Nat} (h : 2 ^ (n.log2 - 52) ∣ n) : roundSignificant n 1 = n := by
  unfold roundSignificant
  simp only [Nat.div_one, Nat.one_mul, Nat.pow_eq]
  rw [roundHalfEven_of_dvd (Nat.two_pow_pos _) h, Nat.div_mul_cancel h]

/-- Multiples of a power of two, by factors of at most 53 bits, are not rounded. -/
theorem roundSignificant_of_le {k : Nat} (hk : k ≤ 2 ^ 53) (e : Nat) :
    roundSignificant (k * Nat.pow 2 e) 1 = k * Nat.pow 2 e := by
  refine roundSignificant_of_dvd ?_
  rw [Nat.pow_eq]
  rcases Nat.lt_or_eq_of_le hk with hlt | rfl
  · rcases Nat.eq_zero_or_pos k with rfl | hpos
    · simp
    · have hlog : (k * 2 ^ e).log2 < 53 + e := by
        rw [Nat.log2_lt (Nat.mul_ne_zero (Nat.ne_of_gt hpos) (Nat.ne_of_gt (Nat.two_pow_pos _))), Nat.pow_add]
        exact Nat.mul_lt_mul_of_pos_right hlt (Nat.two_pow_pos _)
      exact Nat.dvd_mul_left_of_dvd (Nat.pow_dvd_pow 2 (by omega)) k
  · rw [← Nat.pow_add, Nat.log2_two_pow]
    exact Nat.pow_dvd_pow 2 (by omega)

theorem one_eq : ∃ e, Binary64.one = Nat.pow 2 e := by
  refine ⟨1074, ?_⟩
  delta Binary64.one
  with_reducible rfl

theorem units_ofInt {i : Int} (h : i.natAbs ≤ 2 ^ 53) : (Binary64.ofInt i).units = i * Binary64.one := by
  have hexact : roundSignificant (i.natAbs * Binary64.one) 1 = i.natAbs * Binary64.one := by
    obtain ⟨e, he⟩ := one_eq
    rw [he]
    exact roundSignificant_of_le h e
  unfold Binary64.units Binary64.ofInt
  simp only [hexact, decide_eq_true_eq, Int.natCast_mul]
  split
  · rw [Int.ofNat_natAbs_of_nonpos (by omega), Int.neg_mul, Int.neg_neg]
  · rw [Int.natAbs_of_nonneg (by omega)]

/-- **Integers up to `2^53` are told apart.** -/
theorem toldApart_of_le : ToldApart fun i => i.natAbs ≤ 2 ^ 53 := by
  intro i j hi hj h
  obtain ⟨e, he⟩ := one_eq
  rw [units_ofInt hi, units_ofInt hj, he] at h
  exact Int.eq_of_mul_eq_mul_right (Int.natCast_ne_zero.2 (Nat.ne_of_gt (Nat.two_pow_pos e))) h

end Number

/-! ## Values -/

namespace Json

variable {numbers : Number → Number → Bool} {P : Number → Prop} {a b c x y : Json} {within : Int → Prop}

/-- Every number in the value, at any depth, is such a one. -/
inductive EveryNumber (P : Number → Prop) : Json → Prop
  | null : EveryNumber P .null
  | bool (value : Bool) : EveryNumber P (.bool value)
  | number {value : Number} : P value → EveryNumber P (.number value)
  | string (text : String) : EveryNumber P (.string text)
  | array {items : List Json} : (∀ item ∈ items, EveryNumber P item) → EveryNumber P (.array items)
  | object {members : Members} : (∀ member ∈ members, EveryNumber P member.2) → EveryNumber P (.object members)

/-- The integers in the value are among these. -/
abbrev IntegersIn (within : Int → Prop) : Json → Prop := EveryNumber (Number.IsIn within)

theorem exists_getElem? {α β : Type} {as : List α} {bs : List β} (hlength : as.length = bs.length) {index : Nat} {a : α}
    (ha : as[index]? = some a) : ∃ b, bs[index]? = some b := by
  obtain ⟨hlt, -⟩ := List.getElem?_eq_some_iff.1 ha
  exact ⟨_, List.getElem?_eq_getElem (hlength ▸ hlt)⟩

/-! ### What it compares -/

theorem itemsEqualBy_iff : ∀ {as bs : List Json}, itemsEqualBy numbers as bs = true ↔
    as.length = bs.length ∧ ∀ (index : Nat) a b, as[index]? = some a → bs[index]? = some b → equalBy numbers a b = true
  | [], [] => by
    change true = true ↔ _
    simp
  | [], _ :: _ => by
    change false = true ↔ _
    simp
  | _ :: _, [] => by
    change false = true ↔ _
    simp
  | a :: as, b :: bs => by
    change (equalBy numbers a b && itemsEqualBy numbers as bs) = true ↔ _
    rw [Bool.and_eq_true, itemsEqualBy_iff, List.length_cons, List.length_cons, Nat.add_right_cancel_iff]
    constructor
    · rintro ⟨hfirst, hlength, hrest⟩
      refine ⟨hlength, fun index x y hx hy => ?_⟩
      cases index with
      | zero =>
        cases hx
        cases hy
        exact hfirst
      | succ index => exact hrest index x y hx hy
    · rintro ⟨hlength, hitems⟩
      exact ⟨hitems 0 a b rfl rfl, hlength, fun index x y hx hy => hitems (index + 1) x y hx hy⟩

theorem membersEqualBy_iff {bs : Members} : ∀ {as : Members}, membersEqualBy numbers as bs = true ↔
    ∀ member ∈ as, ∃ b, bs.get? member.1 = some b ∧ equalBy numbers member.2 b = true
  | [] => by
    change true = true ↔ _
    simp
  | (name, a) :: as => by
    change (_ && membersEqualBy numbers as bs) = true ↔ _
    rw [Bool.and_eq_true, membersEqualBy_iff, List.forall_mem_cons]
    refine and_congr_left fun _ => ?_
    cases bs.get? name <;> simp

theorem equalBy_array {as : List Json} : equalBy numbers (.array as) y = true ↔
    ∃ bs, y = .array bs ∧ as.length = bs.length ∧
      ∀ (index : Nat) a b, as[index]? = some a → bs[index]? = some b → equalBy numbers a b = true := by
  cases y with
  | array bs =>
    change itemsEqualBy numbers as bs = true ↔ _
    simp [itemsEqualBy_iff]
  | _ => exact iff_of_false Bool.false_ne_true (by simp)

theorem equalBy_object {as : Members} : equalBy numbers (.object as) y = true ↔
    ∃ bs : Members, y = .object bs ∧ as.length = bs.length ∧
      ∀ member ∈ as, ∃ b, bs.get? member.1 = some b ∧ equalBy numbers member.2 b = true := by
  cases y with
  | object bs =>
    change (as.length == bs.length && membersEqualBy numbers as bs) = true ↔ _
    simp [membersEqualBy_iff]
  | _ => exact iff_of_false Bool.false_ne_true (by simp)

theorem equalBy_null : equalBy numbers .null y = true ↔ y = .null := by
  cases y with
  | null => exact iff_of_true rfl rfl
  | _ => exact iff_of_false Bool.false_ne_true (by simp)

theorem equalBy_bool {value : Bool} : equalBy numbers (.bool value) y = true ↔ y = .bool value := by
  cases y with
  | bool other =>
    change (value == other) = true ↔ _
    rw [beq_iff_eq, Json.bool.injEq, eq_comm]
  | _ => exact iff_of_false Bool.false_ne_true (by simp)

theorem equalBy_string {text : String} : equalBy numbers (.string text) y = true ↔ y = .string text := by
  cases y with
  | string other =>
    change (text == other) = true ↔ _
    rw [beq_iff_eq, Json.string.injEq, eq_comm]
  | _ => exact iff_of_false Bool.false_ne_true (by simp)

theorem equalBy_number {m : Number} : equalBy numbers (.number m) y = true ↔ ∃ n, y = .number n ∧ numbers m n = true := by
  cases y with
  | number n =>
    change numbers m n = true ↔ _
    simp
  | _ => exact iff_of_false Bool.false_ne_true (by simp)

/-! ### Reflexive and symmetric -/

theorem equalBy_refl (hnumbers : ∀ n, numbers n n = true) (ha : a.DistinctNames) : equalBy numbers a a = true := by
  induction ha with
  | null => exact equalBy_null.2 rfl
  | bool value => exact equalBy_bool.2 rfl
  | number value => exact equalBy_number.2 ⟨value, rfl, hnumbers value⟩
  | string text => exact equalBy_string.2 rfl
  | array _ ih =>
    refine equalBy_array.2 ⟨_, rfl, rfl, fun index x y hx hy => ?_⟩
    obtain rfl := Option.some.inj (hx.symm.trans hy)
    exact ih x (List.mem_of_getElem? hx)
  | object hnames _ ih =>
    exact equalBy_object.2 ⟨_, rfl, rfl, fun member hmember =>
      ⟨member.2, Members.get?_of_mem hnames hmember, ih member hmember⟩⟩

/-- An object of as many members that has all names of another one has no others. -/
theorem mem_names_of_equal {as bs : Members} (hnames : as.names.Nodup) (hlength : as.length = bs.length)
    (h : ∀ member ∈ as, ∃ b, bs.get? member.1 = some b ∧ equalBy numbers member.2 b = true) {name : String}
    (hname : name ∈ bs.names) : name ∈ as.names := by
  have hsubset : as.names ⊆ bs.names := by
    intro other hother
    obtain ⟨member, hmember, rfl⟩ := List.mem_map.1 hother
    obtain ⟨b, hb, -⟩ := h member hmember
    exact Members.isSome_get?.1 (Option.isSome_iff_exists.2 ⟨b, hb⟩)
  have hle : bs.names.length ≤ as.names.length := by
    simp [Members.names, hlength]
  exact ((List.subperm_of_subset hnames hsubset).perm_of_length_le hle).mem_iff.2 hname

theorem equalBy_symm (hnumbers : ∀ m n, numbers m n = true → numbers n m = true) (ha : a.DistinctNames) :
    ∀ {b : Json}, b.DistinctNames → equalBy numbers a b = true → equalBy numbers b a = true := by
  induction ha with
  | null =>
    intro b _ h
    obtain rfl := equalBy_null.1 h
    exact h
  | bool value =>
    intro b _ h
    obtain rfl := equalBy_bool.1 h
    exact h
  | number value =>
    intro b _ h
    obtain ⟨n, rfl, hn⟩ := equalBy_number.1 h
    exact hnumbers value n hn
  | string text =>
    intro b _ h
    obtain rfl := equalBy_string.1 h
    exact h
  | array _ ih =>
    intro b hb h
    obtain ⟨bs, rfl, hlength, hitems⟩ := equalBy_array.1 h
    cases hb with | array hbs =>
    refine equalBy_array.2 ⟨_, rfl, hlength.symm, fun index y x hy hx => ?_⟩
    exact ih x (List.mem_of_getElem? hx) (hbs y (List.mem_of_getElem? hy)) (hitems index x y hx hy)
  | @object as hnames _ ih =>
    intro b hb h
    obtain ⟨bs, rfl, hlength, hmembers⟩ := equalBy_object.1 h
    cases hb with | object hbnames hbs =>
    refine equalBy_object.2 ⟨_, rfl, hlength.symm, fun (name, y) hy => ?_⟩
    have hname : name ∈ as.names := mem_names_of_equal hnames hlength hmembers (List.mem_map_of_mem hy)
    obtain ⟨⟨_, x⟩, hx, rfl⟩ := List.mem_map.1 hname
    obtain ⟨y', hy', hequal⟩ := hmembers _ hx
    obtain rfl := Option.some.inj (hy'.symm.trans (Members.get?_of_mem hbnames hy))
    exact ⟨x, Members.get?_of_mem hnames hx, ih _ hx (hbs _ hy) hequal⟩

/-! ### The order of members -/

theorem equalBy_of_reordered_right (h : a.Reordered b) :
    ∀ {x : Json}, equalBy numbers x a = true → equalBy numbers x b = true := by
  induction h with
  | refl => exact fun h => h
  | @array as bs hlength _ ih =>
    intro x h
    cases x with
    | array xs =>
      obtain ⟨_, hsame, hxs, hitems⟩ := equalBy_array.1 h
      obtain rfl := Json.array.inj hsame
      refine equalBy_array.2 ⟨_, rfl, hxs.trans hlength, fun index x b hx hb => ?_⟩
      obtain ⟨a, ha⟩ := exists_getElem? hlength.symm hb
      exact ih index a b ha hb (hitems index x a hx ha)
    | _ => cases h
  | @object as bs hleft hright hnames hvalues ih =>
    intro x h
    cases x with
    | object xs =>
      obtain ⟨_, hsame, hxs, hmembers⟩ := equalBy_object.1 h
      obtain rfl := Json.object.inj hsame
      have hlength := (Members.Reordered.mk hleft hright hnames hvalues).length_eq
      refine equalBy_object.2 ⟨_, rfl, hxs.trans hlength, fun member hmember => ?_⟩
      obtain ⟨a, ha, hequal⟩ := hmembers member hmember
      obtain ⟨b, hb⟩ := Option.isSome_iff_exists.1 ((hnames member.1).symm.trans (Option.isSome_iff_exists.2 ⟨a, ha⟩))
      exact ⟨b, hb, ih member.1 a b ha hb hequal⟩
    | _ => cases h

theorem equalBy_of_reordered_left (h : a.Reordered b) :
    ∀ {x : Json}, equalBy numbers a x = true → equalBy numbers b x = true := by
  induction h with
  | refl => exact fun h => h
  | @array as bs hlength _ ih =>
    intro x h
    obtain ⟨xs, rfl, hxs, hitems⟩ := equalBy_array.1 h
    refine equalBy_array.2 ⟨_, rfl, hlength.symm.trans hxs, fun index b x hb hx => ?_⟩
    obtain ⟨a, ha⟩ := exists_getElem? hlength.symm hb
    exact ih index a b ha hb (hitems index a x ha hx)
  | @object as bs hleft hright hnames hvalues ih =>
    intro x h
    obtain ⟨xs, rfl, hxs, hmembers⟩ := equalBy_object.1 h
    have hlength := (Members.Reordered.mk hleft hright hnames hvalues).length_eq
    refine equalBy_object.2 ⟨_, rfl, hlength.symm.trans hxs, fun (name, b) hmember => ?_⟩
    have hb := Members.get?_of_mem hright hmember
    obtain ⟨a, ha⟩ := Option.isSome_iff_exists.1 ((hnames name).trans (Option.isSome_iff_exists.2 ⟨b, hb⟩))
    obtain ⟨x, hx, hequal⟩ := hmembers (name, a) (Members.mem_of_get? ha)
    exact ⟨x, hx, ih name a b ha hb hequal⟩

/-- **Equality does not see the order of members**, on either side. -/
theorem equalBy_reordered (h : a.Reordered b) (x : Json) :
    equalBy numbers a x = equalBy numbers b x ∧ equalBy numbers x a = equalBy numbers x b :=
  ⟨Bool.eq_iff_iff.2 ⟨equalBy_of_reordered_left h, equalBy_of_reordered_left h.symm⟩,
    Bool.eq_iff_iff.2 ⟨equalBy_of_reordered_right h, equalBy_of_reordered_right h.symm⟩⟩

/-! ### Transitive -/

theorem equalBy_trans (hnumbers : ∀ l m n, P l → P n → numbers l m = true → numbers m n = true → numbers l n = true)
    (ha : a.EveryNumber P) : ∀ {b c : Json}, c.EveryNumber P → equalBy numbers a b = true → equalBy numbers b c = true →
      equalBy numbers a c = true := by
  induction ha with
  | null =>
    intro b c _ h h'
    obtain rfl := equalBy_null.1 h
    exact h'
  | bool value =>
    intro b c _ h h'
    obtain rfl := equalBy_bool.1 h
    exact h'
  | string text =>
    intro b c _ h h'
    obtain rfl := equalBy_string.1 h
    exact h'
  | number hvalue =>
    intro b c hc h h'
    obtain ⟨m, rfl, hm⟩ := equalBy_number.1 h
    obtain ⟨n, rfl, hn⟩ := equalBy_number.1 h'
    cases hc with | number hc =>
    exact hnumbers _ m n hvalue hc hm hn
  | array _ ih =>
    intro b c hc h h'
    obtain ⟨bs, rfl, hab, hitems⟩ := equalBy_array.1 h
    obtain ⟨cs, rfl, hbc, hitems'⟩ := equalBy_array.1 h'
    cases hc with | array hcs =>
    refine equalBy_array.2 ⟨_, rfl, hab.trans hbc, fun index x z hx hz => ?_⟩
    obtain ⟨y, hy⟩ := exists_getElem? hab hx
    exact ih x (List.mem_of_getElem? hx) (hcs z (List.mem_of_getElem? hz)) (hitems index x y hx hy)
      (hitems' index y z hy hz)
  | object _ ih =>
    intro b c hc h h'
    obtain ⟨bs, rfl, hab, hmembers⟩ := equalBy_object.1 h
    obtain ⟨cs, rfl, hbc, hmembers'⟩ := equalBy_object.1 h'
    cases hc with | object hcs =>
    refine equalBy_object.2 ⟨_, rfl, hab.trans hbc, fun member hmember => ?_⟩
    obtain ⟨y, hy, hxy⟩ := hmembers member hmember
    obtain ⟨z, hz, hyz⟩ := hmembers' _ (Members.mem_of_get? hy)
    exact ⟨z, hz, ih member hmember (hcs _ (Members.mem_of_get? hz)) hxy hyz⟩

theorem equal_trans (happart : Number.ToldApart within) (ha : a.IntegersIn within) (hc : c.IntegersIn within)
    (h : a.equal b = true) (h' : b.equal c = true) : a.equal c = true := by
  unfold equal at *
  refine equalBy_trans (fun l m n => ?_) ha hc h h'
  exact Number.equal_trans happart

/-- What is transitive tells integers apart: the double that two are rounded to equals both. -/
theorem toldApart_of_trans (h : ∀ a b c : Json, a.IntegersIn within → b.IntegersIn within → c.IntegersIn within →
    a.equal b = true → b.equal c = true → a.equal c = true) : Number.ToldApart within := by
  intro i j hi hj hunits
  have hinteger : ∀ k, within k → (Json.number (.integer k)).IntegersIn within := fun k hk =>
    .number fun _ hsame => Number.integer.inj hsame ▸ hk
  have hequal := h (.number (.integer i)) (.number (.float (.ofInt i))) (.number (.integer j)) (hinteger i hi)
    (.number fun _ hfloat => nomatch hfloat) (hinteger j hj) (Number.equal_float_right.2 rfl)
    (Number.equal_float_left.2 hunits)
  exact Number.equal_integer.1 hequal

/-! ### Values that stand for each other -/

/-- The value has distinct names, and its integers are among these. -/
structure Comparable (within : Int → Prop) (value : Json) : Prop where
  names : value.DistinctNames
  integers : value.IntegersIn within

theorem equal_symm (ha : a.DistinctNames) (hb : b.DistinctNames) : a.equal b = b.equal a :=
  Bool.eq_iff_iff.2 ⟨equalBy_symm (fun _ _ => Number.equal_symm) ha hb, equalBy_symm (fun _ _ => Number.equal_symm) hb ha⟩

theorem equal_congr (happart : Number.ToldApart within) (ha : a.Comparable within) (hb : b.Comparable within)
    (hx : x.Comparable within) (h : a.equal b = true) : a.equal x = b.equal x := by
  have hback : b.equal a = true := (equal_symm ha.names hb.names).symm.trans h
  exact Bool.eq_iff_iff.2 ⟨equal_trans happart hb.integers hx.integers hback,
    equal_trans happart ha.integers hx.integers h⟩

theorem equal_congr_right (happart : Number.ToldApart within) (ha : a.Comparable within) (hb : b.Comparable within)
    (hx : x.Comparable within) (h : a.equal b = true) : x.equal a = x.equal b := by
  rw [equal_symm hx.names ha.names, equal_symm hx.names hb.names, equal_congr happart ha hb hx h]

theorem Comparable.item {items : List Json} (h : (Json.array items).Comparable within) {item : Json} (hitem : item ∈ items) :
    item.Comparable within := by
  obtain ⟨hnames, hintegers⟩ := h
  cases hnames with | array hnames =>
  cases hintegers with | array hintegers =>
  exact ⟨hnames item hitem, hintegers item hitem⟩

theorem allDistinct_iff : ∀ {items : List Json}, allDistinct items = true ↔
    items.Pairwise fun first second => first.equal second = false
  | [] => by simp [allDistinct]
  | item :: rest => by
    rw [allDistinct, Bool.and_eq_true, allDistinct_iff, List.pairwise_cons]
    simp

theorem allDistinct_congr (happart : Number.ToldApart within) {as bs : List Json}
    (ha : (Json.array as).Comparable within) (hb : (Json.array bs).Comparable within)
    (h : (Json.array as).equal (.array bs) = true) : allDistinct as = allDistinct bs := by
  obtain ⟨_, hsame, hlength, hitems⟩ := equalBy_array.1 h
  obtain rfl := Json.array.inj hsame
  have hpair : ∀ (i j : Nat) (hi : i < as.length) (hj : j < as.length) (hi' : i < bs.length) (hj' : j < bs.length),
      as[i].equal as[j] = bs[i].equal bs[j] := by
    intro i j hi hj hi' hj'
    have hfirst := hitems i _ _ (List.getElem?_eq_getElem hi) (List.getElem?_eq_getElem hi')
    have hsecond := hitems j _ _ (List.getElem?_eq_getElem hj) (List.getElem?_eq_getElem hj')
    rw [equal_congr happart (ha.item (List.getElem_mem hi)) (hb.item (List.getElem_mem hi'))
        (ha.item (List.getElem_mem hj)) hfirst,
      equal_congr_right happart (ha.item (List.getElem_mem hj)) (hb.item (List.getElem_mem hj'))
        (hb.item (List.getElem_mem hi')) hsecond]
  rw [Bool.eq_iff_iff, allDistinct_iff, allDistinct_iff, List.pairwise_iff_getElem, List.pairwise_iff_getElem]
  constructor
  · intro hdistinct i j hi hj hlt
    rw [← hpair i j (by omega) (by omega)]
    exact hdistinct i j _ _ hlt
  · intro hdistinct i j hi hj hlt
    rw [hpair i j hi hj (by omega) (by omega)]
    exact hdistinct i j _ _ hlt

end Json

end SchemaTypes
