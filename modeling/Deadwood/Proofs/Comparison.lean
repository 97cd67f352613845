import Mathlib.Algebra.Order.Field.Basic
import Mathlib.Algebra.Order.Field.Rat
import Mathlib.Data.List.Forall2
import Mathlib.Data.List.Perm.Subperm
import Mathlib.Data.Rat.Cast.Order
import Mathlib.Data.String.Basic
import Mathlib.Order.Compare
import Mathlib.Order.WithBot
import Deadwood.Value
import Deadwood.Proofs.Table

/-!
# The order of values

`compare? v w` puts `same` and `before?` together: two values are equal, or one stands before the
other, or they have no order.

`Plain` values are ordinary data, without NaN and without a name that an object has twice. The
comparison is a partial order on them, up to equality across kinds (`Plain.lawful`): it is
reflexive, it turns round with its arguments, equal values compare alike with every value, and
standing before is transitive.

* Values of different kinds do not compare, so the laws are shown kind by kind
  (`lawfulOn_of_kind`).
* Numbers compare by magnitude, a rational or an infinity, and texts as texts
  (`lawfulOn_of_key`).
* Lists compare by their first items that differ, objects only for equality; both inherit the laws
  from what they hold.
-/

namespace Deadwood

/-! ## Numbers -/

/-- A rational or an infinity. -/
abbrev Magnitude := WithBot (WithTop ℚ)

/-- A rational as a magnitude. -/
def Magnitude.ofRat (r : ℚ) : Magnitude := ((r : WithTop ℚ) : WithBot (WithTop ℚ))

theorem Magnitude.compare_ofRat (r r' : ℚ) : compare (ofRat r) (ofRat r') = compare r r' := by
  unfold ofRat
  rcases lt_trichotomy r r' with h | h | h
  · rw [compare_lt_iff_lt.2 h, compare_lt_iff_lt]
    simpa using h
  · rw [compare_eq_iff_eq.2 h, compare_eq_iff_eq]
    simpa using h
  · rw [compare_gt_iff_gt.2 h, compare_gt_iff_gt]
    simpa using h

/-- Fractions compare by cross multiplication. -/
theorem compare_div {n n' : Int} {d d' : Nat} (hd : 0 < d) (hd' : 0 < d') :
    compare ((n : ℚ) / d) ((n' : ℚ) / d') = compare (n * d') (n' * d) := by
  have hd : (0 : ℚ) < d := by exact_mod_cast hd
  have hd' : (0 : ℚ) < d' := by exact_mod_cast hd'
  rcases lt_trichotomy (n * d') (n' * d) with h | h | h
  · rw [compare_lt_iff_lt.2 h, compare_lt_iff_lt, div_lt_div_iff₀ hd hd']
    exact_mod_cast h
  · rw [compare_eq_iff_eq.2 h, compare_eq_iff_eq, div_eq_div_iff hd.ne' hd'.ne']
    exact_mod_cast h
  · rw [compare_gt_iff_gt.2 h, compare_gt_iff_gt, div_lt_div_iff₀ hd' hd]
    exact_mod_cast h

namespace Binary64

/-- The number that a double stands for; a NaN stands for none and is given zero. -/
def magnitude : Binary64 → Magnitude
  | .finite negative m q => .ofRat ((if negative then -1 else 1) * m * 2 ^ q)
  | .infinite true => ⊥
  | .infinite false => ((⊤ : WithTop ℚ) : WithBot (WithTop ℚ))
  | .nan => .ofRat 0

theorem ratio?_finite (negative : Bool) (m : Nat) (q : Int) :
    ∃ (n : Int) (d : Nat), (finite negative m q).ratio? = some (n, d) ∧ 0 < d ∧
      (finite negative m q).magnitude = .ofRat (n / d) := by
  unfold ratio? magnitude
  dsimp only
  split
  next hq =>
    obtain ⟨k, rfl⟩ := Int.eq_ofNat_of_zero_le hq
    refine ⟨_, _, rfl, Nat.one_pos, ?_⟩
    cases negative <;> simp
  next hq =>
    obtain ⟨k, rfl⟩ : ∃ k : Nat, q = -k := ⟨(-q).toNat, by omega⟩
    refine ⟨_, _, rfl, Nat.pow_pos Nat.two_pos, ?_⟩
    cases negative <;> simp [div_eq_mul_inv]

theorem compare_infinite (negative : Bool) (r : ℚ) :
    compare (infinite negative).magnitude (.ofRat r) =
      if negative then .lt else .gt := by
  cases negative
  · exact compare_gt_iff_gt.2 (WithBot.coe_lt_coe.2 (WithTop.coe_lt_top r))
  · exact compare_lt_iff_lt.2 (WithBot.bot_lt_coe _)

theorem compareInt?_eq_some {x : Binary64} (hx : x ≠ .nan) (k : Int) :
    x.compareInt? k = some (compare x.magnitude (.ofRat k)) := by
  cases x with
  | nan => exact absurd rfl hx
  | infinite negative => rw [compare_infinite, compareInt?]
  | finite negative m q =>
    obtain ⟨n, d, hratio, hd, hmag⟩ := ratio?_finite negative m q
    have hdiv : compare (n / d : ℚ) k = compare n (k * d) := by
      simpa using @compare_div n k d 1 hd Nat.one_pos
    rw [hmag, Magnitude.compare_ofRat, hdiv, compareInt?, hratio]
    rfl

theorem compare?_eq_some {x y : Binary64} (hx : x ≠ .nan) (hy : y ≠ .nan) :
    x.compare? y = some (compare x.magnitude y.magnitude) := by
  cases x with
  | nan => exact absurd rfl hx
  | infinite negative =>
    cases y with
    | nan => exact absurd rfl hy
    | infinite negative' =>
      refine congrArg some (Eq.symm ?_)
      cases negative <;> cases negative'
      · exact compare_eq_iff_eq.2 rfl
      · exact compare_gt_iff_gt.2 (WithBot.bot_lt_coe _)
      · exact compare_lt_iff_lt.2 (WithBot.bot_lt_coe _)
      · exact compare_eq_iff_eq.2 rfl
    | finite negative' m q =>
      rw [magnitude.eq_def (.finite ..), compare_infinite]
      rfl
  | finite negative m q =>
    obtain ⟨n, d, hratio, hd, hmag⟩ := ratio?_finite negative m q
    cases y with
    | nan => exact absurd rfl hy
    | infinite negative' =>
      have hswap := compare_infinite negative' (n / d)
      rw [← hmag, ← Ordering.swap_inj, ← Std.OrientedCmp.eq_swap] at hswap
      rw [hswap]
      cases negative' <;> rfl
    | finite negative' m' q' =>
      obtain ⟨n', d', hratio', hd', hmag'⟩ := ratio?_finite negative' m' q'
      rw [hmag, hmag', Magnitude.compare_ofRat, compare_div hd hd', compare?, hratio, hratio']
      rfl

end Binary64

namespace Value

/-- The magnitude of a number. -/
def magnitude : Int ⊕ Binary64 → Magnitude
  | .inl n => .ofRat n
  | .inr x => x.magnitude

/-- Numbers other than NaN compare by magnitude. -/
theorem compareNumbers_eq {x y : Int ⊕ Binary64} (hx : x ≠ .inr .nan) (hy : y ≠ .inr .nan) :
    compareNumbers x y = some (compare (magnitude x) (magnitude y)) := by
  rcases x with a | x <;> rcases y with b | y
  · rw [compareNumbers, magnitude, magnitude, Magnitude.compare_ofRat]
    simpa using (@compare_div a b 1 1 Nat.one_pos Nat.one_pos).symm
  · rw [compareNumbers, Binary64.compareInt?_eq_some (fun h => hy (h ▸ rfl)), Option.map_some,
      ← Std.OrientedCmp.eq_swap]
    rfl
  · rw [compareNumbers, Binary64.compareInt?_eq_some (fun h => hx (h ▸ rfl))]
    rfl
  · rw [compareNumbers, Binary64.compare?_eq_some (fun h => hx (h ▸ rfl)) (fun h => hy (h ▸ rfl))]
    rfl

/-! ## The comparison of two values -/

/-- How two values compare; `none` where they have no order. -/
def compare? (v w : Value) : Option Ordering :=
  if v.same w then some .eq else (v.before? w).map fun b => if b then .lt else .gt

theorem compare?_eq_iff {v w : Value} : v.compare? w = some .eq ↔ v.same w = true := by
  unfold compare?
  split
  next h => simp [h]
  next h =>
    refine iff_of_false (fun heq => ?_) h
    obtain ⟨b, -, hb⟩ := Option.map_eq_some_iff.1 heq
    cases b <;> cases hb

/-- The value is ordinary data: no NaN stands in it, and no object has a name twice. -/
inductive Plain : Value → Prop
  | null : Plain .null
  | bool (b : Bool) : Plain (.bool b)
  | int (n : Int) : Plain (.int n)
  | float {x : Binary64} (h : x ≠ .nan) : Plain (.float x)
  | str (s : String) : Plain (.str s)
  | list {items : List Value} (h : ∀ v ∈ items, Plain v) : Plain (.list items)
  | dict {fields : List (String × Value)} (hkeys : (fields.map (·.1)).Nodup)
      (h : ∀ f ∈ fields, Plain f.2) : Plain (.dict fields)

/-- Comparing `v` with the values of `P` follows the laws of an order, partial as it is. -/
structure LawfulOn (P : Value → Prop) (v : Value) : Prop where
  refl : v.compare? v = some .eq
  swap {w : Value} (hw : P w) : w.compare? v = (v.compare? w).map Ordering.swap
  congr {w u : Value} (hw : P w) (hu : P u) (h : v.compare? w = some .eq) :
    w.compare? u = v.compare? u
  congr_right {w u : Value} (hw : P w) (hu : P u) (h : w.compare? u = some .eq) :
    v.compare? w = v.compare? u
  lt_trans {w u : Value} (hw : P w) (hu : P u) (hvw : v.compare? w = some .lt)
    (hwu : w.compare? u = some .lt) : v.compare? u = some .lt

/-! ### Kinds -/

/-- What a value is; values of different kinds do not compare. -/
inductive Kind where
  | null
  | number
  | text
  | list
  | object
deriving DecidableEq

/-- The kind of a value. -/
def kind : Value → Kind
  | .null => .null
  | .bool _ | .int _ | .float _ => .number
  | .str _ => .text
  | .list _ => .list
  | .dict _ => .object

theorem compare?_eq_none {v w : Value} (h : v.kind ≠ w.kind) : v.compare? w = none := by
  cases v <;> cases w <;> first | rfl | exact absurd rfl h

theorem kind_eq {v w : Value} {o : Ordering} (h : v.compare? w = some o) : v.kind = w.kind := by
  by_contra hne
  rw [compare?_eq_none hne] at h
  cases h

/-- The laws need to be shown for values of one kind only. -/
theorem lawfulOn_of_kind {v : Value} (hv : LawfulOn (fun w => Plain w ∧ w.kind = v.kind) v) :
    LawfulOn Plain v where
  refl := hv.refl
  swap {w} hw := by
    by_cases hk : w.kind = v.kind
    · exact hv.swap ⟨hw, hk⟩
    · rw [compare?_eq_none hk, compare?_eq_none (Ne.symm hk), Option.map_none]
  congr {w u} hw hu h := by
    have hk := kind_eq h
    by_cases hku : u.kind = v.kind
    · exact hv.congr ⟨hw, hk.symm⟩ ⟨hu, hku⟩ h
    · rw [compare?_eq_none (Ne.symm hku), compare?_eq_none (hk ▸ Ne.symm hku)]
  congr_right {w u} hw hu h := by
    have hk := kind_eq h
    by_cases hkw : w.kind = v.kind
    · exact hv.congr_right ⟨hw, hkw⟩ ⟨hu, hk ▸ hkw⟩ h
    · rw [compare?_eq_none (Ne.symm hkw), compare?_eq_none (hk ▸ Ne.symm hkw)]
  lt_trans {w u} hw hu hvw hwu :=
    hv.lt_trans ⟨hw, (kind_eq hvw).symm⟩ ⟨hu, ((kind_eq hvw).trans (kind_eq hwu)).symm⟩ hvw hwu

/-- Values that compare by a key follow the laws of its order. -/
theorem lawfulOn_of_key {κ : Type} [Ord κ] [Std.TransOrd κ] [Std.LawfulEqOrd κ] (key : Value → κ)
    {P : Value → Prop} (hkey : ∀ {v w}, P v → P w → v.compare? w = some (compare (key v) (key w)))
    {v : Value} (hv : P v) : LawfulOn P v where
  refl := (hkey hv hv).trans (congrArg some Std.ReflCmp.compare_self)
  swap {w} hw := by
    rw [hkey hw hv, hkey hv hw]
    exact congrArg some Std.OrientedCmp.eq_swap
  congr {w u} hw hu h := by
    rw [hkey hv hw] at h
    rw [hkey hw hu, hkey hv hu, Std.LawfulEqCmp.eq_of_compare (Option.some.inj h)]
  congr_right {w u} hw hu h := by
    rw [hkey hw hu] at h
    rw [hkey hv hw, hkey hv hu, Std.LawfulEqCmp.eq_of_compare (Option.some.inj h)]
  lt_trans {w u} hw hu hvw hwu := by
    rw [hkey hv hw] at hvw
    rw [hkey hw hu] at hwu
    rw [hkey hv hu, Std.TransCmp.lt_trans (Option.some.inj hvw) (Option.some.inj hwu)]

theorem lawfulOn_null : LawfulOn (fun w => Plain w ∧ w.kind = .null) .null := by
  refine lawfulOn_of_key (fun _ => false) ?_ ⟨.null, rfl⟩
  rintro v w ⟨-, hv⟩ ⟨-, hw⟩
  cases v <;> cases hv
  cases w <;> cases hw
  rfl

/-- The text of a value that is one. -/
def textKey : Value → String
  | .str s => s
  | _ => ""

theorem compare?_str (a b : String) : compare? (.str a) (.str b) = some (compare a b) := by
  unfold compare?
  rw [same, before?]
  rcases lt_trichotomy a b with h | h | h
  · rw [compare_lt_iff_lt.2 h]
    simp [h, h.ne]
  · rw [compare_eq_iff_eq.2 h]
    simp [h]
  · rw [compare_gt_iff_gt.2 h]
    simp [h.ne', h.not_gt]

theorem lawfulOn_text (s : String) : LawfulOn (fun w => Plain w ∧ w.kind = .text) (.str s) := by
  refine lawfulOn_of_key textKey ?_ ⟨.str s, rfl⟩
  rintro v w ⟨-, hv⟩ ⟨-, hw⟩
  cases v <;> cases hv
  cases w <;> cases hw
  exact compare?_str ..

/-- The magnitude of a value that is a number. -/
def numberKey : Value → Magnitude
  | .bool b => magnitude (.inl (if b then 1 else 0))
  | .int n => magnitude (.inl n)
  | .float x => magnitude (.inr x)
  | _ => ⊥

theorem exists_number {v : Value} (hv : Plain v) (hk : v.kind = .number) :
    ∃ x, v.number? = some x ∧ x ≠ .inr .nan ∧ numberKey v = magnitude x := by
  cases hv <;> cases hk
  case float x hx => exact ⟨.inr x, rfl, fun h => hx (Sum.inr.inj h), rfl⟩
  all_goals exact ⟨_, rfl, Sum.inl_ne_inr, rfl⟩

theorem compare?_of_number? {v w : Value} {x y : Int ⊕ Binary64} (hv : v.number? = some x)
    (hw : w.number? = some y) (hx : x ≠ .inr .nan) (hy : y ≠ .inr .nan) :
    v.compare? w = some (compare (magnitude x) (magnitude y)) := by
  have hsame : v.same w = (compareNumbers x y == some .eq) := by
    cases v <;> cases hv <;> cases w <;> cases hw <;> rfl
  have hbefore : v.before? w = some (compareNumbers x y == some .lt) := by
    cases v <;> cases hv <;> cases w <;> cases hw <;> rfl
  rw [compare?, hsame, hbefore, compareNumbers_eq hx hy]
  cases compare (magnitude x) (magnitude y) <;> rfl

theorem lawfulOn_number {v : Value} (hv : Plain v) (hk : v.kind = .number) :
    LawfulOn (fun w => Plain w ∧ w.kind = .number) v := by
  refine lawfulOn_of_key numberKey ?_ ⟨hv, hk⟩
  rintro v w ⟨hv, hkv⟩ ⟨hw, hkw⟩
  obtain ⟨x, hvx, hx, hmx⟩ := exists_number hv hkv
  obtain ⟨y, hwy, hy, hmy⟩ := exists_number hw hkw
  rw [hmx, hmy, compare?_of_number? hvx hwy hx hy]

/-! ### Lists -/

theorem compare?_nil_nil : compare? (.list []) (.list []) = some .eq := rfl

theorem compare?_cons_nil (x : Value) (xs : List Value) :
    compare? (.list (x :: xs)) (.list []) = some .gt := rfl

/-- The first items that differ decide. -/
theorem compare?_cons_cons (x y : Value) (xs ys : List Value) :
    compare? (.list (x :: xs)) (.list (y :: ys)) =
      if x.compare? y = some .eq then compare? (.list xs) (.list ys) else x.compare? y := by
  by_cases hxy : x.same y
  · rw [if_pos (compare?_eq_iff.2 hxy), compare?, compare?, same, sameItems, before?, beforeItems?,
      hxy, Bool.true_and, if_pos rfl, same, before?]
  · rw [if_neg (mt compare?_eq_iff.1 hxy), compare?, compare?, same, sameItems, before?,
      beforeItems?,
      Bool.eq_false_iff.2 hxy, Bool.false_and]
    rfl

theorem Plain.exists_items {w : Value} (hw : Plain w) (hk : w.kind = .list) :
    ∃ ys, w = .list ys ∧ ∀ y ∈ ys, Plain y := by
  cases hw <;> cases hk
  exact ⟨_, rfl, ‹_›⟩

theorem swap_items {xs ys : List Value} (hxs : ∀ x ∈ xs, LawfulOn Plain x)
    (hys : ∀ y ∈ ys, Plain y) :
    compare? (.list ys) (.list xs) = (compare? (.list xs) (.list ys)).map Ordering.swap := by
  induction xs generalizing ys with
  | nil => cases ys <;> rfl
  | cons x xs ih =>
    cases ys with
    | nil => rfl
    | cons y ys =>
      rw [List.forall_mem_cons] at hxs hys
      rw [compare?_cons_cons, compare?_cons_cons, ih hxs.2 hys.2, hxs.1.swap hys.1]
      rcases hc : x.compare? y with _ | o
      · rfl
      · cases o <;> rfl

theorem compare?_cons_eq_iff {x : Value} {xs ys : List Value} :
    compare? (.list (x :: xs)) (.list ys) = some .eq ↔ ∃ y rest, ys = y :: rest ∧
      x.compare? y = some .eq ∧ compare? (.list xs) (.list rest) = some .eq := by
  cases ys with
  | nil => simp [compare?_cons_nil]
  | cons y rest =>
    rw [compare?_cons_cons]
    split
    next h => simp [h]
    next h => simp [h]

theorem compare?_cons_lt_iff {x : Value} {xs ys : List Value} :
    compare? (.list (x :: xs)) (.list ys) = some .lt ↔ ∃ y rest, ys = y :: rest ∧
      (x.compare? y = some .lt ∨
        x.compare? y = some .eq ∧ compare? (.list xs) (.list rest) = some .lt) := by
  cases ys with
  | nil => simp [compare?_cons_nil]
  | cons y rest =>
    rw [compare?_cons_cons]
    split
    next h => simp [h]
    next h => simp [h]

theorem congr_items {xs ys zs : List Value} (hxs : ∀ x ∈ xs, LawfulOn Plain x)
    (hys : ∀ y ∈ ys, Plain y) (hzs : ∀ z ∈ zs, Plain z)
    (h : compare? (.list xs) (.list ys) = some .eq) :
    compare? (.list ys) (.list zs) = compare? (.list xs) (.list zs) := by
  induction xs generalizing ys zs with
  | nil =>
    cases ys with
    | nil => rfl
    | cons y ys => cases h
  | cons x xs ih =>
    obtain ⟨y, ys, rfl, hxy, hrest⟩ := compare?_cons_eq_iff.1 h
    cases zs with
    | nil => rfl
    | cons z zs =>
      rw [List.forall_mem_cons] at hxs hys hzs
      rw [compare?_cons_cons, compare?_cons_cons, hxs.1.congr hys.1 hzs.1 hxy,
        ih hxs.2 hys.2 hzs.2 hrest]

theorem congr_right_items {xs ys zs : List Value} (hxs : ∀ x ∈ xs, LawfulOn Plain x)
    (hys : ∀ y ∈ ys, Plain y) (hzs : ∀ z ∈ zs, Plain z)
    (h : compare? (.list ys) (.list zs) = some .eq) :
    compare? (.list xs) (.list ys) = compare? (.list xs) (.list zs) := by
  induction ys generalizing xs zs with
  | nil =>
    cases zs with
    | nil => rfl
    | cons z zs => cases h
  | cons y ys ih =>
    obtain ⟨z, zs, rfl, hyz, hrest⟩ := compare?_cons_eq_iff.1 h
    cases xs with
    | nil => rfl
    | cons x xs =>
      rw [List.forall_mem_cons] at hxs hys hzs
      rw [compare?_cons_cons, compare?_cons_cons, hxs.1.congr_right hys.1 hzs.1 hyz,
        ih hxs.2 hys.2 hzs.2 hrest]

theorem lt_trans_items {xs ys zs : List Value} (hxs : ∀ x ∈ xs, LawfulOn Plain x)
    (hys : ∀ y ∈ ys, Plain y) (hzs : ∀ z ∈ zs, Plain z)
    (hxy : compare? (.list xs) (.list ys) = some .lt)
    (hyz : compare? (.list ys) (.list zs) = some .lt) :
    compare? (.list xs) (.list zs) = some .lt := by
  induction xs generalizing ys zs with
  | nil =>
    cases ys with
    | nil => cases hxy
    | cons y ys =>
      obtain ⟨z, zs, rfl, -⟩ := compare?_cons_lt_iff.1 hyz
      rfl
  | cons x xs ih =>
    obtain ⟨y, ys, rfl, hfirst⟩ := compare?_cons_lt_iff.1 hxy
    obtain ⟨z, zs, rfl, hsecond⟩ := compare?_cons_lt_iff.1 hyz
    rw [List.forall_mem_cons] at hxs hys hzs
    refine compare?_cons_lt_iff.2 ⟨z, zs, rfl, ?_⟩
    rcases hsecond with hlt' | ⟨heq', hrest'⟩
    · rcases hfirst with hlt | ⟨heq, -⟩
      · exact .inl (hxs.1.lt_trans hys.1 hzs.1 hlt hlt')
      · exact .inl (hxs.1.congr hys.1 hzs.1 heq ▸ hlt')
    · rw [← hxs.1.congr_right hys.1 hzs.1 heq']
      exact hfirst.imp id fun h => ⟨h.1, ih hxs.2 hys.2 hzs.2 h.2 hrest'⟩

theorem refl_items {xs : List Value} (hxs : ∀ x ∈ xs, LawfulOn Plain x) :
    compare? (.list xs) (.list xs) = some .eq := by
  induction xs with
  | nil => rfl
  | cons x xs ih =>
    rw [List.forall_mem_cons] at hxs
    exact compare?_cons_eq_iff.2 ⟨x, xs, rfl, hxs.1.refl, ih hxs.2⟩

theorem lawfulOn_list {xs : List Value} (hxs : ∀ x ∈ xs, LawfulOn Plain x) :
    LawfulOn (fun w => Plain w ∧ w.kind = .list) (.list xs) where
  refl := refl_items hxs
  swap := by
    rintro w ⟨hw, hk⟩
    obtain ⟨ys, rfl, hys⟩ := hw.exists_items hk
    exact swap_items hxs hys
  congr := by
    rintro w u ⟨hw, hkw⟩ ⟨hu, hku⟩
    obtain ⟨ys, rfl, hys⟩ := hw.exists_items hkw
    obtain ⟨zs, rfl, hzs⟩ := hu.exists_items hku
    exact congr_items hxs hys hzs
  congr_right := by
    rintro w u ⟨hw, hkw⟩ ⟨hu, hku⟩
    obtain ⟨ys, rfl, hys⟩ := hw.exists_items hkw
    obtain ⟨zs, rfl, hzs⟩ := hu.exists_items hku
    exact congr_right_items hxs hys hzs
  lt_trans := by
    rintro w u ⟨hw, hkw⟩ ⟨hu, hku⟩
    obtain ⟨ys, rfl, hys⟩ := hw.exists_items hkw
    obtain ⟨zs, rfl, hzs⟩ := hu.exists_items hku
    exact lt_trans_items hxs hys hzs

/-! ### Objects -/

theorem field?_eq_some_iff {fields : List (String × Value)} (hn : (fields.map (·.1)).Nodup)
    {name : String} {v : Value} : field? fields name = some v ↔ (name, v) ∈ fields :=
  @Table.find?_eq_some_iff _ _ _ ⟨fields⟩ hn name v

theorem sameFields_iff {xs ys : List (String × Value)} :
    sameFields xs ys = true ↔ ∀ f ∈ xs, ∃ w, field? ys f.1 = some w ∧ f.2.same w = true := by
  induction xs with
  | nil => simp [sameFields]
  | cons f xs ih =>
    obtain ⟨name, v⟩ := f
    rw [sameFields, Bool.and_eq_true, ih, List.forall_mem_cons]
    refine and_congr ?_ Iff.rfl
    cases field? ys name <;> simp

/-- There are equally many fields on both sides, and each on the left has an equal partner on the
right. -/
def Matched (xs ys : List (String × Value)) : Prop :=
  xs.length = ys.length ∧ ∀ f ∈ xs, ∃ w, (f.1, w) ∈ ys ∧ f.2.compare? w = some .eq

/-- Objects are equal, or they do not compare. -/
theorem compare?_dict_eq_some_iff {xs ys : List (String × Value)} (hys : (ys.map (·.1)).Nodup)
    {o : Ordering} : compare? (.dict xs) (.dict ys) = some o ↔ o = .eq ∧ Matched xs ys := by
  have hsame : same (.dict xs) (.dict ys) = true ↔ Matched xs ys := by
    simp only [same, Bool.and_eq_true, decide_eq_true_iff, sameFields_iff, field?_eq_some_iff hys,
      compare?_eq_iff, Matched]
  unfold compare?
  split
  next h => simp [hsame.1 h, eq_comm]
  next h => simp [mt hsame.2 h, before?, number?]

theorem LawfulOn.eq_comm {P : Value → Prop} {v w : Value} (hv : LawfulOn P v) (hw : P w) :
    w.compare? v = some .eq ↔ v.compare? w = some .eq := by
  rw [hv.swap hw, Option.map_eq_some_iff]
  simp

namespace Matched

variable {xs ys zs : List (String × Value)}

/-- Names occur once on either side and there are equally many, so every name on the right stands
on the left. -/
theorem partner (hxs : (xs.map (·.1)).Nodup) (hys : (ys.map (·.1)).Nodup) (h : Matched xs ys)
    {g : String × Value} (hg : g ∈ ys) : ∃ v, (g.1, v) ∈ xs ∧ v.compare? g.2 = some .eq := by
  have hsubset : xs.map (·.1) ⊆ ys.map (·.1) := by
    intro name hname
    obtain ⟨f, hf, rfl⟩ := List.mem_map.1 hname
    obtain ⟨w, hw, -⟩ := h.2 f hf
    exact List.mem_map.2 ⟨_, hw, rfl⟩
  have hperm : (xs.map (·.1)).Perm (ys.map (·.1)) :=
    (List.subperm_of_subset hxs hsubset).perm_of_length_le (by simp [h.1])
  obtain ⟨f, hf, hname⟩ := List.mem_map.1 (hperm.mem_iff.2 (List.mem_map_of_mem hg))
  obtain ⟨w, hw, heq⟩ := h.2 f hf
  rw [hname] at hw
  obtain rfl : w = g.2 := Option.some.inj
    (((field?_eq_some_iff hys).2 hw).symm.trans ((field?_eq_some_iff hys).2 hg))
  exact ⟨f.2, hname ▸ hf, heq⟩

theorem comm (hxs : (xs.map (·.1)).Nodup) (hys : (ys.map (·.1)).Nodup)
    (hlawful : ∀ f ∈ xs, LawfulOn Plain f.2) (hplain : ∀ g ∈ ys, Plain g.2) :
    Matched ys xs ↔ Matched xs ys := by
  constructor <;> intro h <;> refine ⟨h.1.symm, fun f hf => ?_⟩
  · obtain ⟨w, hw, heq⟩ := h.partner hys hxs hf
    exact ⟨w, hw, ((hlawful f hf).eq_comm (hplain _ hw)).1 heq⟩
  · obtain ⟨v, hv, heq⟩ := h.partner hxs hys hf
    exact ⟨v, hv, ((hlawful _ hv).eq_comm (hplain f hf)).2 heq⟩

theorem congr (hxs : (xs.map (·.1)).Nodup) (hys : (ys.map (·.1)).Nodup)
    (hlawful : ∀ f ∈ xs, LawfulOn Plain f.2) (hplain : ∀ g ∈ ys, Plain g.2)
    (hplain' : ∀ g ∈ zs, Plain g.2) (h : Matched xs ys) : Matched ys zs ↔ Matched xs zs := by
  constructor
  · refine fun h' => ⟨h.1.trans h'.1, fun f hf => ?_⟩
    obtain ⟨w, hw, heq⟩ := h.2 f hf
    obtain ⟨u, hu, heq'⟩ := h'.2 _ hw
    exact ⟨u, hu, (hlawful f hf).congr (hplain _ hw) (hplain' _ hu) heq ▸ heq'⟩
  · refine fun h' => ⟨h.1.symm.trans h'.1, fun g hg => ?_⟩
    obtain ⟨v, hv, heq⟩ := h.partner hxs hys hg
    obtain ⟨u, hu, heq'⟩ := h'.2 _ hv
    exact ⟨u, hu, ((hlawful _ hv).congr (hplain g hg) (hplain' _ hu) heq).trans heq'⟩

theorem congr_right (hys : (ys.map (·.1)).Nodup) (hzs : (zs.map (·.1)).Nodup)
    (hlawful : ∀ f ∈ xs, LawfulOn Plain f.2) (hplain : ∀ g ∈ ys, Plain g.2)
    (hplain' : ∀ g ∈ zs, Plain g.2) (h : Matched ys zs) : Matched xs ys ↔ Matched xs zs := by
  constructor
  · refine fun h' => ⟨h'.1.trans h.1, fun f hf => ?_⟩
    obtain ⟨w, hw, heq⟩ := h'.2 f hf
    obtain ⟨u, hu, heq'⟩ := h.2 _ hw
    exact ⟨u, hu, (hlawful f hf).congr_right (hplain _ hw) (hplain' _ hu) heq' ▸ heq⟩
  · refine fun h' => ⟨h'.1.trans h.1.symm, fun f hf => ?_⟩
    obtain ⟨u, hu, heq⟩ := h'.2 f hf
    obtain ⟨w, hw, heq'⟩ := h.partner hys hzs hu
    exact ⟨w, hw, ((hlawful f hf).congr_right (hplain _ hw) (hplain' _ hu) heq').trans heq⟩

end Matched

theorem Plain.exists_fields {w : Value} (hw : Plain w) (hk : w.kind = .object) :
    ∃ ys, w = .dict ys ∧ (ys.map (·.1)).Nodup ∧ ∀ g ∈ ys, Plain g.2 := by
  cases hw <;> cases hk
  exact ⟨_, rfl, ‹_›, ‹_›⟩

theorem lawfulOn_dict {xs : List (String × Value)} (hxs : (xs.map (·.1)).Nodup)
    (hlawful : ∀ f ∈ xs, LawfulOn Plain f.2) :
    LawfulOn (fun w => Plain w ∧ w.kind = .object) (.dict xs) where
  refl := (compare?_dict_eq_some_iff hxs).2 ⟨rfl, rfl, fun f hf => ⟨f.2, hf, (hlawful f hf).refl⟩⟩
  swap := by
    rintro w ⟨hw, hk⟩
    obtain ⟨ys, rfl, hys, hplain⟩ := hw.exists_fields hk
    refine Option.ext fun o => ?_
    rw [Option.map_eq_some_iff]
    simp only [compare?_dict_eq_some_iff hxs, compare?_dict_eq_some_iff hys,
      Matched.comm hxs hys hlawful hplain]
    constructor
    · rintro ⟨rfl, h⟩
      exact ⟨.eq, ⟨rfl, h⟩, rfl⟩
    · rintro ⟨_, ⟨rfl, h⟩, rfl⟩
      exact ⟨rfl, h⟩
  congr := by
    rintro w u ⟨hw, hkw⟩ ⟨hu, hku⟩ h
    obtain ⟨ys, rfl, hys, hplain⟩ := hw.exists_fields hkw
    obtain ⟨zs, rfl, hzs, hplain'⟩ := hu.exists_fields hku
    have hmatched := ((compare?_dict_eq_some_iff hys).1 h).2
    refine Option.ext fun o => ?_
    rw [compare?_dict_eq_some_iff hzs, compare?_dict_eq_some_iff hzs,
      hmatched.congr hxs hys hlawful hplain hplain']
  congr_right := by
    rintro w u ⟨hw, hkw⟩ ⟨hu, hku⟩ h
    obtain ⟨ys, rfl, hys, hplain⟩ := hw.exists_fields hkw
    obtain ⟨zs, rfl, hzs, hplain'⟩ := hu.exists_fields hku
    have hmatched := ((compare?_dict_eq_some_iff hzs).1 h).2
    refine Option.ext fun o => ?_
    rw [compare?_dict_eq_some_iff hys, compare?_dict_eq_some_iff hzs,
      hmatched.congr_right hys hzs hlawful hplain hplain']
  lt_trans := by
    rintro w u ⟨hw, hkw⟩ - h -
    obtain ⟨ys, rfl, hys, -⟩ := hw.exists_fields hkw
    cases ((compare?_dict_eq_some_iff hys).1 h).1

/-- **Plain values are partially ordered** by the comparison. -/
theorem Plain.lawful {v : Value} (hv : Plain v) : LawfulOn Plain v := by
  induction hv with
  | null => exact lawfulOn_of_kind lawfulOn_null
  | bool b => exact lawfulOn_of_kind (lawfulOn_number (.bool b) rfl)
  | int n => exact lawfulOn_of_kind (lawfulOn_number (.int n) rfl)
  | float h => exact lawfulOn_of_kind (lawfulOn_number (.float h) rfl)
  | str s => exact lawfulOn_of_kind (lawfulOn_text s)
  | list _ ih => exact lawfulOn_of_kind (lawfulOn_list ih)
  | dict hkeys _ ih => exact lawfulOn_of_kind (lawfulOn_dict hkeys ih)

/-! ## Values without an order -/

/-- The values have no order: they are of different kinds, or they are objects that differ, or the
first items that differ in two lists have none. -/
inductive NoOrder : Value → Value → Prop
  | kinds {v w : Value} (h : v.kind ≠ w.kind) : NoOrder v w
  | objects {xs ys : List (String × Value)} (h : same (.dict xs) (.dict ys) = false) :
      NoOrder (.dict xs) (.dict ys)
  | items {front front' rest rest' : List Value} {x y : Value}
      (hfront : List.Forall₂ (fun a b => same a b = true) front front') (h : NoOrder x y) :
      NoOrder (.list (front ++ x :: rest)) (.list (front' ++ y :: rest'))

theorem NoOrder.compare?_eq_none {v w : Value} (h : NoOrder v w) : v.compare? w = none := by
  induction h with
  | kinds h => exact Value.compare?_eq_none h
  | objects h =>
    rw [compare?, h]
    rfl
  | items hfront _ ih =>
    induction hfront with
    | nil => rw [List.nil_append, List.nil_append, compare?_cons_cons, ih, if_neg (by simp)]
    | cons hsame _ hrest =>
      rw [List.cons_append, List.cons_append, compare?_cons_cons,
        if_pos (compare?_eq_iff.2 hsame), hrest]

/-- Lists do not compare because two items do not that stand behind equal ones. -/
theorem exists_items_of_compare?_eq_none {xs ys : List Value}
    (h : compare? (.list xs) (.list ys) = none) :
    ∃ front front' x y rest rest', xs = front ++ x :: rest ∧ ys = front' ++ y :: rest' ∧
      List.Forall₂ (fun a b => same a b = true) front front' ∧ x.compare? y = none := by
  induction xs generalizing ys with
  | nil => cases ys <;> cases h
  | cons x xs ih =>
    cases ys with
    | nil => cases h
    | cons y ys =>
      rw [compare?_cons_cons] at h
      split at h
      · rename_i heq
        obtain ⟨front, front', a, b, rest, rest', rfl, rfl, hfront, hab⟩ := ih h
        exact ⟨x :: front, y :: front', a, b, rest, rest', rfl, rfl,
          .cons (compare?_eq_iff.1 heq) hfront, hab⟩
      · exact ⟨[], [], x, y, xs, ys, rfl, rfl, .nil, h⟩

/-- Numbers, texts and nulls compare with all values of their kind. -/
theorem compare?_ne_none {v w : Value} (hv : Plain v) (hw : Plain w) (hk : v.kind = w.kind)
    (hscalar : v.kind ≠ .list ∧ v.kind ≠ .object) : v.compare? w ≠ none := by
  cases hkind : v.kind with
  | null =>
    rw [hkind] at hk
    cases v <;> cases hkind
    cases w <;> cases hk
    exact Option.some_ne_none _
  | number =>
    obtain ⟨x, hvx, hx, -⟩ := exists_number hv hkind
    obtain ⟨y, hwy, hy, -⟩ := exists_number hw (hk ▸ hkind)
    rw [compare?_of_number? hvx hwy hx hy]
    exact Option.some_ne_none _
  | text =>
    rw [hkind] at hk
    cases v <;> cases hkind
    cases w <;> cases hk
    rw [compare?_str]
    exact Option.some_ne_none _
  | list => exact absurd hkind hscalar.1
  | object => exact absurd hkind hscalar.2

/-- Plain values do not compare if and only if they have no order. -/
theorem compare?_eq_none_iff {v w : Value} (hv : Plain v) (hw : Plain w) :
    v.compare? w = none ↔ NoOrder v w := by
  refine ⟨fun h => ?_, NoOrder.compare?_eq_none⟩
  have hkinds : ∀ {v w : Value}, Plain v → Plain w → v.compare? w = none → v.kind ≠ .list ∧
    v.kind ≠ .object →
      NoOrder v w := fun hv hw h hscalar => .kinds fun hk => compare?_ne_none hv hw hk hscalar h
  induction hv generalizing w with
  | null => exact hkinds .null hw h (by simp [kind])
  | bool b => exact hkinds (.bool b) hw h (by simp [kind])
  | int n => exact hkinds (.int n) hw h (by simp [kind])
  | float hx => exact hkinds (.float hx) hw h (by simp [kind])
  | str s => exact hkinds (.str s) hw h (by simp [kind])
  | list _ ih =>
    by_cases hk : w.kind = .list
    · obtain ⟨ys, rfl, hys⟩ := hw.exists_items hk
      obtain ⟨front, front', x, y, rest, rest', rfl, rfl, hfront, hxy⟩ :=
        exists_items_of_compare?_eq_none h
      exact .items hfront (ih x (by simp) (hys y (by simp)) hxy)
    · exact .kinds (Ne.symm hk)
  | dict _ _ _ =>
    by_cases hk : w.kind = .object
    · obtain ⟨ys, rfl, -, -⟩ := hw.exists_fields hk
      refine .objects (Bool.eq_false_iff.2 fun hsame => ?_)
      rw [compare?_eq_iff.2 hsame] at h
      cases h
    · exact .kinds (Ne.symm hk)

end Value

end Deadwood
