import Mathlib.Data.List.Induction
import Mathlib.Data.List.Perm.Basic
import Mathlib.Order.Bounds.Defs
import Deadwood.Proofs.Build

/-!
# Conflicts between definitions

Of several definitions of a symbol the earliest is kept, and a definition that does not stand where
the one kept so far does is counted as left out. What is kept does not depend on the order of the
records, but the count may: a definition that repeats the place of the kept one is not counted, even
if an earlier definition comes later on.

* `later ds`: the definitions that do not stand at the earliest place of their symbol. There are
  never more conflicts than that (`conflicts_le_later`), and there are as many if the definitions
  come by place (`conflicts_byPlace`).
* `RepeatsEarliest ds`: a symbol is defined several times only at its earliest place. Then every
  definition in `later ds` is a conflict (`conflicts_eq_later`).
* `conflicts_repeated`: a place that is repeated and not the earliest makes a difference
  (`exists_orders`).
* `dropped_perm_iff`: the number of records left out is the same in every order exactly if
  `RepeatsEarliest`.
-/

namespace Deadwood

namespace CallGraph

variable {ds : List (Symbol × Meta)} {d : Symbol × Meta} {t : Table Symbol Meta}

/-- The number of conflicts between definitions that come in this order. -/
def conflicts (ds : List (Symbol × Meta)) : Nat := (ds.foldl keepProper (∅, 0)).2

/-- The places at which a symbol is defined. -/
def placesOf (s : Symbol) (ds : List (Symbol × Meta)) : List Location :=
  ds.filterMap fun d => if d.1 = s then some d.2.location else none

/-- Whether an earlier definition of the same symbol is among `ds`. -/
def isLater (ds : List (Symbol × Meta)) (d : Symbol × Meta) : Bool :=
  (placesOf d.1 ds).any fun l => l.before d.2.location

/-- The number of definitions that do not stand at the earliest place of their symbol. -/
def later (ds : List (Symbol × Meta)) : Nat := ds.countP (isLater ds)

/-- A place at which a symbol is defined more than once is its earliest. -/
def RepeatsEarliest (ds : List (Symbol × Meta)) : Prop :=
  ∀ s l, 2 ≤ (placesOf s ds).count l → ∀ l' ∈ placesOf s ds, l.le l' = true

theorem mem_placesOf_iff {s : Symbol} {l : Location} :
    l ∈ placesOf s ds ↔ ∃ info, (s, info) ∈ ds ∧ info.location = l := by
  simp only [placesOf, List.mem_filterMap]
  constructor
  · rintro ⟨⟨s', info⟩, hmem, h⟩
    split at h
    · rename_i hs
      obtain rfl : s' = s := hs
      exact ⟨info, hmem, Option.some.inj h⟩
    · cases h
  · rintro ⟨info, hmem, rfl⟩
    exact ⟨(s, info), hmem, if_pos rfl⟩

theorem isLater_iff : isLater ds d = true ↔ ∃ info, (d.1, info) ∈ ds ∧
      info.location.before d.2.location = true := by
  simp only [isLater, List.any_eq_true, mem_placesOf_iff]
  constructor
  · rintro ⟨_, ⟨info, hmem, rfl⟩, h⟩
    exact ⟨info, hmem, h⟩
  · rintro ⟨info, hmem, h⟩
    exact ⟨_, ⟨info, hmem, rfl⟩, h⟩

theorem later_of_perm {ds' : List (Symbol × Meta)} (h : ds.Perm ds') : later ds = later ds' := by
  have hsame : isLater ds = isLater ds' := by
    funext d
    rw [Bool.eq_iff_iff, isLater_iff, isLater_iff]
    simp only [h.mem_iff]
  rw [later, later, hsame]
  exact h.countP_eq _

theorem RepeatsEarliest.of_perm {ds' : List (Symbol × Meta)} (h : RepeatsEarliest ds)
    (hp : ds.Perm ds') :
    RepeatsEarliest ds' := by
  intro s l hcount l' hl'
  have hplaces : (placesOf s ds).Perm (placesOf s ds') := hp.filterMap _
  exact h s l (hplaces.count_eq l ▸ hcount) l' (hplaces.mem_iff.2 hl')

/-! ## One definition more -/

/-- With a further definition those of its symbol become later that stand behind it. -/
theorem isLater_append {e : Symbol × Meta} :
    isLater (ds ++ [d]) e = true ↔
      isLater ds e = true ∨ e.1 = d.1 ∧ d.2.location.before e.2.location = true := by
  simp only [isLater_iff, List.mem_append, List.mem_singleton]
  constructor
  · rintro ⟨info, hmem | rfl, h⟩
    · exact .inl ⟨info, hmem, h⟩
    · exact .inr ⟨rfl, h⟩
  · rintro (⟨info, hmem, h⟩ | ⟨hs, h⟩)
    · exact ⟨info, .inl hmem, h⟩
    · exact ⟨d.2, .inr (Prod.ext hs rfl), h⟩

/-- If a further definition stands before none but later ones, it is at most later itself. -/
theorem later_append_of_settled
    (h : ∀ e ∈ ds, e.1 = d.1 → d.2.location.before e.2.location = true → isLater ds e = true) :
    later (ds ++ [d]) = later ds + if isLater ds d = true then 1 else 0 := by
  have hself : isLater (ds ++ [d]) d = isLater ds d := by
    rw [Bool.eq_iff_iff, isLater_append, Location.not_before_of_le (Location.le_refl _)]
    simp
  have hothers : ds.countP (isLater (ds ++ [d])) = ds.countP (isLater ds) := by
    refine List.countP_congr fun e he => ?_
    rw [isLater_append]
    exact ⟨fun hlater => hlater.elim id fun ⟨hs, hbefore⟩ => h e he hs hbefore, .inl⟩
  rw [later, List.countP_append, List.countP_singleton, hself, hothers, ← later]

theorem countP_eq_add {α : Type} {p q r : α → Bool} {xs : List α}
    (h : ∀ a ∈ xs, (r a = true ↔ p a = true ∨ q a = true) ∧ (p a = true → q a = false)) :
    xs.countP r = xs.countP p + xs.countP q := by
  induction xs with
  | nil => rfl
  | cons a rest ih =>
    obtain ⟨⟨hor, hnot⟩, hrest⟩ := List.forall_mem_cons.1 h
    rw [List.countP_cons, List.countP_cons, List.countP_cons, ih hrest]
    cases hp : p a <;> cases hq : q a <;> simp_all <;> omega

theorem count_placesOf (s : Symbol) (l : Location) :
    (placesOf s ds).count l = ds.countP fun e => e.1 = s && e.2.location = l := by
  rw [placesOf, List.count, List.countP_filterMap]
  refine List.countP_congr fun e _ => ?_
  by_cases hs : e.1 = s <;> simp [hs]

/-- If a further definition stands before the earliest one of its symbol, those at that one's place
become later. -/
theorem later_append_of_before {old : Meta} (hold : (d.1, old) ∈ ds)
    (hearliest : ∀ other, (d.1, other) ∈ ds → old.location.le other.location = true)
    (hbefore : d.2.location.before old.location = true) :
    later (ds ++ [d]) = later ds + (placesOf d.1 ds).count old.location := by
  have hself : isLater (ds ++ [d]) d = false := by
    rw [Bool.eq_false_iff, Ne, isLater_append, isLater_iff]
    rintro (⟨info, hmem, h⟩ | ⟨-, h⟩)
    · have hle := Location.le_trans (Location.le_of_before hbefore) (hearliest info hmem)
      rw [Location.not_before_of_le hle] at h
      cases h
    · rw [Location.not_before_of_le (Location.le_refl _)] at h
      cases h
  rw [later, List.countP_append, List.countP_singleton, hself, count_placesOf, later]
  refine countP_eq_add fun e he => ?_
  rw [isLater_append]
  by_cases hs : e.1 = d.1
  · have hle : old.location.le e.2.location = true := hearliest e.2 (hs ▸ he)
    have hlater : isLater ds e = true ↔ e.2.location ≠ old.location := by
      rw [isLater_iff, hs]
      constructor
      · rintro ⟨info, hmem, h⟩ heq
        rw [heq, Location.not_before_of_le (hearliest info hmem)] at h
        cases h
      · intro hne
        exact ⟨old, hold, Location.before_of_not_before (Location.not_before_of_le hle) hne⟩
    by_cases hplace : e.2.location = old.location
    · simp [hs, hlater, hplace, hbefore]
    · simp [hs, hlater, hplace]
  · simp [hs]

/-- What one definition more adds to the conflicts and to the later definitions. -/
theorem conflicts_append (ds : List (Symbol × Meta)) (d : Symbol × Meta) :
    ∃ a b, conflicts (ds ++ [d]) = conflicts ds + a ∧ later (ds ++ [d]) = later ds + b ∧ a ≤ b ∧
      (RepeatsEarliest (ds ++ [d]) ∨ (∀ e ∈ ds, e.2.location.le d.2.location = true) → a = b) := by
  have hkept : Earliest ds (ds.foldl keepProper (∅, 0)).1 := Earliest.empty.foldl 0 ds
  rw [conflicts, List.foldl_append, List.foldl_cons, List.foldl_nil, conflicts]
  generalize ds.foldl keepProper (∅, 0) = kept at hkept ⊢
  rcases keepProper_cases kept d with
    ⟨hnone, hstep⟩ | ⟨old, hold, ⟨hsame, hstep⟩ | ⟨hne, hbefore, hstep⟩ | ⟨hne, hbefore, hstep⟩⟩ <;>
      rw [hstep]
  · have hfirst : ∀ other, (d.1, other) ∉ ds := by
      intro other hother
      obtain ⟨info, hinfo⟩ := hkept.complete hother
      rw [hnone] at hinfo
      cases hinfo
    have hlater : isLater ds d = false := by
      rw [Bool.eq_false_iff, Ne, isLater_iff]
      exact fun ⟨info, hmem, _⟩ => hfirst info hmem
    refine ⟨0, 0, rfl, ?_, le_rfl, fun _ => rfl⟩
    rw [later_append_of_settled fun e he hs _ => absurd (hs ▸ he) (hfirst e.2), hlater]
    rfl
  all_goals obtain ⟨hmem, hearliest⟩ := hkept.earliest hold
  · have hlater : isLater ds d = false := by
      rw [Bool.eq_false_iff, Ne, isLater_iff]
      rintro ⟨info, hinfo, h⟩
      rw [← hsame, Location.not_before_of_le (hearliest info hinfo)] at h
      cases h
    refine ⟨0, 0, rfl, ?_, le_rfl, fun _ => rfl⟩
    rw [later_append_of_settled ?_, hlater]
    · rfl
    · intro e he hs h
      exact isLater_iff.2 ⟨old, hs ▸ hmem, hsame ▸ h⟩
  · have hcount : 0 < (placesOf d.1 ds).count old.location :=
      List.count_pos_iff.2 (mem_placesOf_iff.2 ⟨old, hmem, rfl⟩)
    have hnot : ¬old.location.le d.2.location = true := by
      intro hle
      rw [Location.not_before_of_le hle] at hbefore
      cases hbefore
    refine ⟨1, _, rfl, later_append_of_before hmem hearliest hbefore, hcount, ?_⟩
    -- `d` stands before the kept definition, so the place of that one is not the earliest and does
    -- not come twice
    rintro (hrepeats | hsorted)
    · by_contra hne
      have hplaces : placesOf d.1 (ds ++ [d]) = placesOf d.1 ds ++ [d.2.location] := by
        simp [placesOf]
      refine hnot (hrepeats d.1 old.location ?_ d.2.location (by simp [hplaces]))
      rw [hplaces, List.count_append]
      omega
    · exact absurd (hsorted _ hmem) hnot
  · have holder : old.location.before d.2.location = true :=
      Location.before_of_not_before hbefore (Ne.symm hne)
    refine ⟨1, 1, rfl, ?_, le_rfl, fun _ => rfl⟩
    rw [later_append_of_settled ?_, if_pos (isLater_iff.2 ⟨old, hmem, holder⟩)]
    intro e he hs h
    exact isLater_iff.2
      ⟨old, hs ▸ hmem, Location.before_of_before_of_le holder (Location.le_of_before h)⟩

theorem RepeatsEarliest.of_append (h : RepeatsEarliest (ds ++ [d])) : RepeatsEarliest ds := by
  intro s l hcount l' hl'
  have hplaces : placesOf s (ds ++ [d]) = placesOf s ds ++ placesOf s [d] := List.filterMap_append
  refine h s l ?_ l' ?_
  · rw [hplaces, List.count_append]
    omega
  · rw [hplaces]
    exact List.mem_append_left _ hl'

/-- There are no more conflicts than later definitions. -/
theorem conflicts_le_later (ds : List (Symbol × Meta)) : conflicts ds ≤ later ds := by
  induction ds using List.reverseRecOn with
  | nil => exact le_rfl
  | append_singleton ds d ih =>
    obtain ⟨a, b, hconflicts, hlater, hle, -⟩ := conflicts_append ds d
    omega

/-- Where only earliest places are repeated, every later definition is a conflict. -/
theorem conflicts_eq_later (h : RepeatsEarliest ds) : conflicts ds = later ds := by
  induction ds using List.reverseRecOn with
  | nil => rfl
  | append_singleton ds d ih =>
    obtain ⟨a, b, hconflicts, hlater, -, heq⟩ := conflicts_append ds d
    rw [hconflicts, hlater, ih h.of_append, heq (.inl h)]

/-- If the definitions come in the order of their places, every later one is a conflict. -/
theorem conflicts_eq_later_of_sorted
    (h : ds.Pairwise fun a b => a.2.location.le b.2.location = true) :
    conflicts ds = later ds := by
  induction ds using List.reverseRecOn with
  | nil => rfl
  | append_singleton ds d ih =>
    obtain ⟨a, b, hconflicts, hlater, -, heq⟩ := conflicts_append ds d
    obtain ⟨hds, -, hlast⟩ := List.pairwise_append.1 h
    have hlast : ∀ e ∈ ds, e.2.location.le d.2.location = true := fun e he => hlast e he d (by simp)
    rw [hconflicts, hlater, ih hds, heq (.inr hlast)]

/-- The definitions in the order of their places. -/
def byPlace (ds : List (Symbol × Meta)) : List (Symbol × Meta) :=
  ds.mergeSort fun a b => a.2.location.le b.2.location

theorem conflicts_byPlace (ds : List (Symbol × Meta)) : conflicts (byPlace ds) = later ds := by
  have hsorted : (byPlace ds).Pairwise fun a b => a.2.location.le b.2.location = true :=
    @List.pairwise_mergeSort _ (fun a b : Symbol × Meta => a.2.location.le b.2.location)
      (fun _ _ _ => Location.le_trans) (fun _ _ => Location.le_total _ _) ds
  rw [conflicts_eq_later_of_sorted hsorted]
  exact later_of_perm (List.mergeSort_perm _ _)

/-! ## A repeated place that is not the earliest -/

theorem foldl_keepProper_add (t : Table Symbol Meta) (n k : Nat) (ds : List (Symbol × Meta)) :
    (ds.foldl keepProper (t, n + k)).2 = (ds.foldl keepProper (t, n)).2 + k := by
  induction ds generalizing t n with
  | nil => rfl
  | cons d rest ih =>
    have hstep : keepProper (t, n + k) d =
        ((keepProper (t, n) d).1, (keepProper (t, n) d).2 + k) := by
      unfold keepProper keepEarliest
      cases t.find? d.1 with
      | none => rfl
      | some old =>
        simp only [Places.proper, pure_bind]
        split
        · rfl
        · split <;> simp [Nat.add_right_comm]
    rw [List.foldl_cons, List.foldl_cons, hstep]
    exact ih _ _

/-- A place that comes twice makes one conflict less if the earlier place comes after both. -/
theorem conflicts_repeated {s : Symbol} {a b first : Meta} (hab : a.location = b.location)
    (hbefore : first.location.before a.location = true) (ds : List (Symbol × Meta)) :
    conflicts ((s, a) :: (s, b) :: (s, first) :: ds) + 1 =
      conflicts ((s, first) :: (s, a) :: (s, b) :: ds) := by
  have hne : first.location ≠ a.location := by
    intro heq
    rw [heq, Location.not_before_of_le (Location.le_refl _)] at hbefore
    cases hbefore
  have hsame : keepProper (⟨[(s, a)]⟩, 0) (s, b) = (⟨[(s, a)]⟩, 0) := by
    simp [keepProper, keepEarliest, Table.find?, Places.proper, hab]
  have hreplace : keepProper (⟨[(s, a)]⟩, 0) (s, first) = (⟨[(s, first)]⟩, 1) := by
    simp [keepProper, keepEarliest, Table.find?, Table.insert, Table.update, Table.updateEntries,
      Places.proper,
      hbefore, hne.symm]
  have hbehind : ∀ n (c : Meta), c.location = a.location →
      keepProper (⟨[(s, first)]⟩, n) (s, c) = (⟨[(s, first)]⟩, n + 1) := by
    intro n c hc
    have hnot := Location.not_before_of_le (Location.le_of_before hbefore)
    simp [keepProper, keepEarliest, Table.find?, Places.proper, hc, hne, hnot]
  calc conflicts ((s, a) :: (s, b) :: (s, first) :: ds) + 1
      = (ds.foldl keepProper (⟨[(s, first)]⟩, 1)).2 + 1 := by
        rw [← hreplace, ← hsame]
        rfl
    _ = (ds.foldl keepProper (⟨[(s, first)]⟩, 1 + 1)).2 := (foldl_keepProper_add _ _ _ _).symm
    _ = conflicts ((s, first) :: (s, a) :: (s, b) :: ds) := by
        rw [← hbehind 1 b hab.symm, ← hbehind 0 a rfl]
        rfl

theorem exists_perm_cons {s : Symbol} {l : Location} (h : l ∈ placesOf s ds) :
    ∃ info rest, info.location = l ∧ ds.Perm ((s, info) :: rest) := by
  obtain ⟨info, hmem, hl⟩ := mem_placesOf_iff.1 h
  obtain ⟨front, back, rfl⟩ := List.append_of_mem hmem
  exact ⟨info, front ++ back, hl, List.perm_middle⟩

theorem placesOf_perm_cons {s : Symbol} {info : Meta} {rest : List (Symbol × Meta)}
    (h : ds.Perm ((s, info) :: rest)) :
    (placesOf s ds).Perm (info.location :: placesOf s rest) := by
  have hplaces : (placesOf s ds).Perm (placesOf s ((s, info) :: rest)) := h.filterMap _
  simpa [placesOf] using hplaces

/-- A repeated place that is not the earliest of its symbol is seen in the conflicts of two
orders. -/
theorem exists_orders (h : ¬RepeatsEarliest ds) :
    ∃ ds₁ ds₂, ds.Perm ds₁ ∧ ds.Perm ds₂ ∧ conflicts ds₁ + 1 = conflicts ds₂ := by
  simp only [RepeatsEarliest, not_forall] at h
  obtain ⟨s, l, hcount, l', hl', hle⟩ := h
  have hbefore : l'.before l = true := by
    by_contra hnot
    exact hle (Location.le_of_not_before (by simpa using hnot))
  have hne : l' ≠ l := by
    rintro rfl
    exact hle (Location.le_refl _)
  -- take out the two definitions at `l`, then the one at `l'`
  obtain ⟨a, rest₁, ha, hp₁⟩ :=
    exists_perm_cons (List.count_pos_iff.1 (by omega : 0 < (placesOf s ds).count l))
  have hplaces₁ := placesOf_perm_cons hp₁
  have hcount₁ : 0 < (placesOf s rest₁).count l := by
    have := hplaces₁.count_eq l
    rw [ha, List.count_cons_self] at this
    omega
  obtain ⟨b, rest₂, hb, hp₂⟩ := exists_perm_cons (List.count_pos_iff.1 hcount₁)
  have hl₂ : l' ∈ placesOf s rest₂ := by
    have hl₁ := (List.mem_cons.1 (hplaces₁.mem_iff.1 hl')).resolve_left (ha ▸ hne)
    exact (List.mem_cons.1 ((placesOf_perm_cons hp₂).mem_iff.1 hl₁)).resolve_left (hb ▸ hne)
  obtain ⟨first, rest, hfirst, hp₃⟩ := exists_perm_cons hl₂
  have hp : ds.Perm ((s, a) :: (s, b) :: (s, first) :: rest) :=
    hp₁.trans ((hp₂.trans (hp₃.cons _)).cons _)
  have hfront : ((s, a) :: (s, b) :: (s, first) :: rest).Perm
      ((s, first) :: (s, a) :: (s, b) :: rest) :=
    @List.perm_middle _ _ [(s, a), (s, b)] rest
  refine ⟨_, _, hp, hp.trans hfront, conflicts_repeated (ha.trans hb.symm) ?_ rest⟩
  rw [hfirst, ha]
  exact hbefore

end CallGraph

/-! ## Records -/

open CallGraph

/-- An order of what is kept of a list comes from an order of the list. -/
theorem exists_perm_of_filterMap {α β : Type} {f : α → Option β} {ys ys' : List β} (h : ys.Perm ys')
    (xs : List α) (hxs : xs.filterMap f = ys) : ∃ xs', xs.Perm xs' ∧ xs'.filterMap f = ys' := by
  induction h generalizing xs with
  | nil => exact ⟨xs, .refl _, hxs⟩
  | cons b _ ih =>
    obtain ⟨front, a, rest, rfl, hfront, hb, hrest⟩ := List.filterMap_eq_cons_iff.1 hxs
    obtain ⟨rest', hp, hrest'⟩ := ih rest hrest
    refine ⟨front ++ a :: rest', (hp.cons a).append_left front, ?_⟩
    rw [List.filterMap_append, List.filterMap_eq_nil_iff.2 hfront, List.filterMap_cons_some hb,
      hrest', List.nil_append]
  | swap b c ys =>
    obtain ⟨front, x, rest, rfl, hfront, hc, hrest⟩ := List.filterMap_eq_cons_iff.1 hxs
    obtain ⟨middle, y, rest, rfl, hmiddle, hb, hrest⟩ := List.filterMap_eq_cons_iff.1 hrest
    refine ⟨y :: x :: (front ++ middle ++ rest), ?_, ?_⟩
    · calc (front ++ x :: (middle ++ y :: rest)).Perm (x :: (front ++ (middle ++ y :: rest))) :=
        List.perm_middle
        _ = x :: (front ++ middle ++ y :: rest) := by rw [List.append_assoc]
        List.Perm _ (x :: y :: (front ++ middle ++ rest)) := List.perm_middle.cons x
        List.Perm _ (y :: x :: (front ++ middle ++ rest)) := .swap _ _ _
    · rw [List.filterMap_cons_some hb, List.filterMap_cons_some hc, List.filterMap_append,
        List.filterMap_append,
        List.filterMap_eq_nil_iff.2 hfront, List.filterMap_eq_nil_iff.2 hmiddle, hrest]
      rfl
  | trans _ _ ih₁ ih₂ =>
    obtain ⟨xs₁, hp₁, hxs₁⟩ := ih₁ xs hxs
    obtain ⟨xs₂, hp₂, hxs₂⟩ := ih₂ xs₁ hxs₁
    exact ⟨xs₂, hp₁.trans hp₂, hxs₂⟩

theorem ProjectGraph.dropped_ofRecords (rs : List (Record Meta Location)) :
    (ofRecords rs).dropped = rs.countP Record.isMalformed + conflicts (Record.definitions rs) :=
  (parts_ofRecords rs).2.2

/-- The number of records left out is the same in every order exactly if only earliest places are
repeated. In the order in which it is greatest, it is the number of malformed records and of later
definitions. -/
theorem dropped_perm_iff (rs : List (Record Meta Location)) :
    ((∀ rs', rs.Perm rs' → (ProjectGraph.ofRecords rs').dropped =
      (ProjectGraph.ofRecords rs).dropped) ↔
      RepeatsEarliest (Record.definitions rs)) ∧
    IsGreatest {n | ∃ rs', rs.Perm rs' ∧ (ProjectGraph.ofRecords rs').dropped = n}
      (rs.countP Record.isMalformed + later (Record.definitions rs)) := by
  have hmalformed : ∀ {rs'}, rs.Perm rs' → rs'.countP Record.isMalformed =
      rs.countP Record.isMalformed :=
    fun hp => (hp.countP_eq _).symm
  have hdefinitions : ∀ {rs'}, rs.Perm rs' →
      (Record.definitions rs).Perm (Record.definitions rs') :=
    fun hp => hp.filterMap _
  refine ⟨⟨fun hsame => ?_, fun hrepeats rs' hp => ?_⟩, ?_, ?_⟩
  · by_contra hrepeats
    obtain ⟨ds₁, ds₂, hp₁, hp₂, hconflicts⟩ := exists_orders hrepeats
    obtain ⟨rs₁, hp₁, hds₁⟩ := exists_perm_of_filterMap hp₁ rs rfl
    obtain ⟨rs₂, hp₂, hds₂⟩ := exists_perm_of_filterMap hp₂ rs rfl
    have heq := (hsame rs₁ hp₁).trans (hsame rs₂ hp₂).symm
    rw [ProjectGraph.dropped_ofRecords, ProjectGraph.dropped_ofRecords, hmalformed hp₁,
      hmalformed hp₂,
      Record.definitions, hds₁, Record.definitions, hds₂] at heq
    omega
  · have hp' := hdefinitions hp
    rw [ProjectGraph.dropped_ofRecords, ProjectGraph.dropped_ofRecords, hmalformed hp,
      conflicts_eq_later hrepeats,
      conflicts_eq_later (hrepeats.of_perm hp'), later_of_perm hp']
  · obtain ⟨rs', hp, hds⟩ :=
      exists_perm_of_filterMap (List.mergeSort_perm (Record.definitions rs) _).symm rs rfl
    refine ⟨rs', hp, ?_⟩
    rw [ProjectGraph.dropped_ofRecords, hmalformed hp, Record.definitions, hds]
    exact congrArg _ (conflicts_byPlace _)
  · rintro _ ⟨rs', hp, rfl⟩
    rw [ProjectGraph.dropped_ofRecords, hmalformed hp, later_of_perm (hdefinitions hp)]
    exact Nat.add_le_add_left (conflicts_le_later _) _

/-- A symbol that is defined at one line twice and then at an earlier one. -/
def repeatedLater : List (Record Meta Location) :=
  [.definition (some ⟨"m", "f", 0⟩) (some { file := "a.py", line := 2 }),
    .definition (some ⟨"m", "f", 0⟩) (some { file := "a.py", line := 2 }),
    .definition (some ⟨"m", "f", 0⟩) (some { file := "a.py", line := 1 })]

/-- One definition is left out, but two if the earlier one comes first. -/
theorem repeatedLater_dropped :
    (ProjectGraph.ofRecords repeatedLater).dropped = 1 ∧
    (ProjectGraph.ofRecords repeatedLater.reverse).dropped = 2 ∧
    ¬RepeatsEarliest (Record.definitions repeatedLater) := by
  have hfirst : (ProjectGraph.ofRecords repeatedLater).dropped = 1 := by decide
  have hreverse : (ProjectGraph.ofRecords repeatedLater.reverse).dropped = 2 := by decide
  refine ⟨hfirst, hreverse, fun hrepeats => ?_⟩
  have hsame := (dropped_perm_iff repeatedLater).1.2 hrepeats _ (List.reverse_perm _).symm
  omega

end Deadwood
