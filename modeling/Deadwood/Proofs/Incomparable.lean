import Mathlib.Data.List.Induction
import Mathlib.Data.List.Pairwise
import Deadwood.Proofs.Comparison
import Deadwood.Proofs.Representation
import Deadwood.Proofs.Traversal

/-!
# Places without an order

The builder is handed objects whose places may hold values of any kind. It compares two places when
a definition meets the one that was kept for its symbol, and when the places of an edge are put in
order; where two places do not compare it fails. The comparisons that it makes depend on the order
of the objects, the failure less so:

* places can be put in order if and only if any two of them compare (`sortPlaces_ok_iff`), since the
  order is transitive, whatever pairs the sort looks at;
* the definition that is kept is an earliest one of those so far (`Foremost`), so a further one
  fails if and only if its place does not compare with that of an earliest one
  (`Foremost.keepEarliest_ok_iff`), and two others may well be without an order;
* `ofObjects_returns_iff` puts both together.
-/

namespace Deadwood

/-! ## Places -/

namespace LooseLocation

/-- A place as the value that its parts make up. -/
def value (a : LooseLocation) : Value := .list [a.file, a.line]

/-- How two places compare: by file, then by line. -/
def compare? (a b : LooseLocation) : Option Ordering := a.value.compare? b.value

/-- File and line are plain values. -/
def Plain (a : LooseLocation) : Prop := a.file.Plain ∧ a.line.Plain

variable {a b c : LooseLocation}

theorem Plain.value (h : a.Plain) : a.value.Plain :=
  .list (by simpa [Plain] using h)

theorem compare?_eq (a b : LooseLocation) : a.compare? b =
    if a.file.compare? b.file = some .eq then a.line.compare? b.line
      else a.file.compare? b.file := by
  rw [compare?, value, value, Value.compare?_cons_cons, Value.compare?_cons_cons,
    Value.compare?_nil_nil]
  split
  · split
    next h => exact h.symm
    next => rfl
  · rfl

theorem same_iff : a.same b = true ↔ a.compare? b = some .eq := by
  rw [same, Bool.and_eq_true, ← Value.compare?_eq_iff, ← Value.compare?_eq_iff, compare?_eq]
  split
  next h => simp [h]
  next h => simp [h]

/-- Telling which of two places is the earlier one fails where they do not compare. -/
theorem before_eq (a b : LooseLocation) :
    a.before b = (a.compare? b).elim (.error .incomparable) fun o => .ok (o == .lt) := by
  rw [compare?_eq, before, Value.compare?, Value.compare?]
  by_cases hfile : a.file.same b.file
  · by_cases hline : a.line.same b.line
    · simp [hfile, hline]
    · simp only [hfile, hline]
      rcases a.line.before? b.line with _ | r
      · simp
      · cases r <;> simp
  · simp only [hfile]
    rcases a.file.before? b.file with _ | r
    · simp
    · cases r <;> simp

theorem compare?_comm (ha : a.Plain) (hb : b.Plain) :
    b.compare? a = (a.compare? b).map Ordering.swap :=
  ha.value.lawful.swap hb.value

/-- The first place is the same as the second or stands before it. -/
def NotAfter (a b : LooseLocation) : Prop := a.same b = true ∨ a.before b = .ok true

theorem notAfter_iff : a.NotAfter b ↔ a.compare? b = some .eq ∨ a.compare? b = some .lt := by
  rw [NotAfter, same_iff, before_eq]
  rcases a.compare? b with _ | o
  · simp
  · cases o <;> simp

theorem NotAfter.compare?_ne_none (h : a.NotAfter b) : a.compare? b ≠ none := by
  rcases notAfter_iff.1 h with h | h <;> rw [h] <;> exact Option.some_ne_none _

theorem notAfter_refl (ha : a.Plain) : a.NotAfter a := notAfter_iff.2 (.inl ha.value.lawful.refl)

theorem NotAfter.trans (ha : a.Plain) (hb : b.Plain) (hc : c.Plain) (hab : a.NotAfter b)
    (hbc : b.NotAfter c) : a.NotAfter c := by
  rw [notAfter_iff] at *
  rcases hab with hab | hab
  · have hcongr : b.compare? c = a.compare? c := ha.value.lawful.congr hb.value hc.value hab
    rwa [hcongr] at hbc
  · rcases hbc with hbc | hbc
    · exact .inr ((ha.value.lawful.congr_right hb.value hc.value hbc).symm.trans hab)
    · exact .inr (ha.value.lawful.lt_trans hb.value hc.value hab hbc)

theorem NotAfter.antisymm (ha : a.Plain) (hb : b.Plain) (hab : a.NotAfter b) (hba : b.NotAfter a) :
    a.compare? b = some .eq := by
  rw [notAfter_iff, compare?_comm ha hb] at hba
  rcases notAfter_iff.1 hab with hab | hab
  · exact hab
  · rw [hab] at hba
    simp at hba

/-- If the first place compares with the second and is not before it, the second is not after the
first. -/
theorem notAfter_of_not_before (ha : a.Plain) (hb : b.Plain) {o : Ordering}
    (h : a.compare? b = some o) (ho : o ≠ .lt) : b.NotAfter a := by
  rw [notAfter_iff, compare?_comm ha hb, h]
  cases o with
  | lt => exact absurd rfl ho
  | eq => exact .inl rfl
  | gt => exact .inr rfl

/-- Neither place stands before the other, and they are not the same: their files have no order, or
the files are the same and the lines have none. -/
def Unordered (a b : LooseLocation) : Prop :=
  Value.NoOrder a.file b.file ∨ a.file.same b.file = true ∧ Value.NoOrder a.line b.line

theorem compare?_eq_none_iff (ha : a.Plain) (hb : b.Plain) :
    a.compare? b = none ↔ a.Unordered b := by
  rw [Unordered, ← Value.compare?_eq_none_iff ha.1 hb.1, ← Value.compare?_eq_none_iff ha.2 hb.2,
    ← Value.compare?_eq_iff, compare?_eq]
  split
  next h => simp [h]
  next h => simp [h]

/-- The file is a text and the line an integer. -/
def Typed (a : LooseLocation) : Prop := ∃ file line, a = ⟨.str file, .int line⟩

theorem Typed.not_unordered (ha : a.Typed) (hb : b.Typed) : ¬ a.Unordered b := by
  obtain ⟨file, line, rfl⟩ := ha
  obtain ⟨file', line', rfl⟩ := hb
  rintro (⟨⟨h⟩⟩ | ⟨-, ⟨h⟩⟩)
  · exact h rfl
  · exact h rfl

end LooseLocation

/-! ## Putting places in order -/

namespace CallGraph

open LooseLocation

variable {x : LooseLocation} {ys zs done places sorted : List LooseLocation}

/-- The places are in order. -/
abbrev InOrder (places : List LooseLocation) : Prop := places.Pairwise NotAfter

/-- A place that could be inserted leaves the places in order. -/
theorem insertPlace_ok (hx : x.Plain) (hys : ∀ y ∈ ys, y.Plain) (horder : InOrder ys)
    (h : insertPlace LooseLocation.before x ys = .ok zs) : zs.Perm (x :: ys) ∧ InOrder zs := by
  induction ys generalizing zs with
  | nil =>
    cases h
    exact ⟨.refl _, List.pairwise_singleton _ _⟩
  | cons y rest ih =>
    obtain ⟨hy, hrest⟩ := List.forall_mem_cons.1 hys
    obtain ⟨hfirst, horder'⟩ := List.pairwise_cons.1 horder
    rw [insertPlace, before_eq] at h
    rcases hc : x.compare? y with _ | o
    · rw [hc] at h
      cases h
    rw [hc] at h
    by_cases ho : o = .lt
    · subst ho
      cases h
      have hxy : x.NotAfter y := notAfter_iff.2 (.inr hc)
      refine ⟨.refl _, List.pairwise_cons.2 ⟨List.forall_mem_cons.2 ⟨hxy, fun z hz => ?_⟩, horder⟩⟩
      exact .trans hx hy (hrest z hz) hxy (hfirst z hz)
    · cases htail : insertPlace LooseLocation.before x rest with
      | error e =>
        rw [htail] at h
        cases o <;> first | exact absurd rfl ho | cases h
      | ok tail =>
        obtain rfl : y :: tail = zs := by
          rw [htail] at h
          cases o <;> first | exact absurd rfl ho | exact Except.ok.inj h
        obtain ⟨hperm, htail⟩ := ih hrest horder' htail
        refine ⟨(hperm.cons y).trans (.swap x y rest), List.pairwise_cons.2 ⟨fun z hz => ?_, htail⟩⟩
        rcases List.mem_cons.1 (hperm.mem_iff.1 hz) with rfl | hz
        · exact notAfter_of_not_before hx hy hc ho
        · exact hfirst z hz

/-- Inserting fails on a place that does not compare with the new one. -/
theorem insertPlace_error {e : Incomparable}
    (h : insertPlace LooseLocation.before x ys = .error e) :
    ∃ y ∈ ys, x.compare? y = none := by
  induction ys with
  | nil => cases h
  | cons y rest ih =>
    rw [insertPlace, before_eq] at h
    rcases hc : x.compare? y with _ | o
    · exact ⟨y, List.mem_cons_self, hc⟩
    rw [hc] at h
    cases htail : insertPlace LooseLocation.before x rest with
    | error e =>
      obtain ⟨z, hz, hnone⟩ := ih htail
      exact ⟨z, List.mem_cons_of_mem _ hz, hnone⟩
    | ok tail =>
      rw [htail] at h
      cases o <;> cases h

/-- A round of putting places in order keeps them and leaves those that were done in order. -/
theorem insertPlace_round (hplain : ∀ y ∈ done ++ x :: places, y.Plain) (horder : InOrder done)
    (h : insertPlace LooseLocation.before x done = .ok zs) :
    (zs ++ places).Perm (done ++ x :: places) ∧ (∀ y ∈ zs ++ places, y.Plain) ∧ InOrder zs := by
  have hdone : ∀ y ∈ done, y.Plain := fun y hy => hplain y (List.mem_append_left _ hy)
  have hx : x.Plain := hplain x (List.mem_append_right _ List.mem_cons_self)
  obtain ⟨hperm, horder'⟩ := insertPlace_ok hx hdone horder h
  have hall : (zs ++ places).Perm (done ++ x :: places) :=
    (hperm.append_right places).trans List.perm_middle.symm
  exact ⟨hall, fun y hy => hplain y (hall.mem_iff.1 hy), horder'⟩

/-- Places that could be put in order are so, and stay the same. -/
theorem sortPlaces_ok (hplain : ∀ x ∈ done ++ places, x.Plain) (horder : InOrder done)
    (h : sortPlaces LooseLocation.before done places = .ok sorted) :
    sorted.Perm (done ++ places) ∧ InOrder sorted := by
  induction places generalizing done with
  | nil =>
    cases h
    rw [List.append_nil]
    exact ⟨.refl _, horder⟩
  | cons x rest ih =>
    cases hmore : insertPlace LooseLocation.before x done with
    | error e =>
      rw [sortPlaces, hmore] at h
      cases h
    | ok more =>
      rw [sortPlaces, hmore] at h
      obtain ⟨hall, hplain', hmore'⟩ := insertPlace_round hplain horder hmore
      obtain ⟨hperm, hsorted⟩ := ih hplain' hmore' h
      exact ⟨hperm.trans hall, hsorted⟩

/-- Putting places in order fails on two that do not compare. -/
theorem sortPlaces_error {e : Incomparable}
    (h : sortPlaces LooseLocation.before done places = .error e)
    (hplain : ∀ x ∈ done ++ places, x.Plain) (horder : InOrder done) :
    ∃ a ∈ done ++ places, ∃ b ∈ done ++ places, a.compare? b = none := by
  induction places generalizing done with
  | nil => cases h
  | cons x rest ih =>
    cases hmore : insertPlace LooseLocation.before x done with
    | error e =>
      obtain ⟨y, hy, hnone⟩ := insertPlace_error hmore
      exact ⟨x, List.mem_append_right _ List.mem_cons_self, y, List.mem_append_left _ hy, hnone⟩
    | ok more =>
      rw [sortPlaces, hmore] at h
      obtain ⟨hall, hplain', hmore'⟩ := insertPlace_round hplain horder hmore
      obtain ⟨a, ha, b, hb, hnone⟩ := ih h hplain' hmore'
      exact ⟨a, hall.mem_iff.1 ha, b, hall.mem_iff.1 hb, hnone⟩

/-- Places can be put in order if and only if any two of them compare: standing before is
transitive, so a chain through all of them leaves no two without an order. -/
theorem sortPlaces_ok_iff (hplain : ∀ x ∈ places, x.Plain) :
    (∃ sorted, sortPlaces LooseLocation.before [] places = .ok sorted) ↔
      ∀ a ∈ places, ∀ b ∈ places, a.compare? b ≠ none := by
  constructor
  · rintro ⟨sorted, h⟩ a ha b hb
    obtain ⟨hperm, horder⟩ := sortPlaces_ok hplain .nil h
    have hcompare : sorted.Pairwise fun a b => a.Plain → b.Plain → a.compare? b ≠ none :=
      horder.imp fun hab _ _ => hab.compare?_ne_none
    have : Std.Symm fun a b : LooseLocation => a.Plain → b.Plain → a.compare? b ≠ none := by
      refine ⟨fun a b h hb ha => ?_⟩
      rw [compare?_comm ha hb]
      simpa using h ha hb
    refine hcompare.forall_of_forall (fun x _ hx _ => ?_) (hperm.mem_iff.2 ha) (hperm.mem_iff.2 hb)
      (hplain a ha) (hplain b hb)
    simp [LooseLocation.compare?, hx.value.lawful.refl]
  · intro h
    cases hsorted : sortPlaces LooseLocation.before [] places with
    | ok sorted => exact ⟨sorted, rfl⟩
    | error e =>
      obtain ⟨a, ha, b, hb, hnone⟩ := sortPlaces_error hsorted hplain .nil
      exact absurd hnone (h a ha b hb)

/-! ## Gathering the places of calls -/

/-- The table has places of the calls for every edge, and for every call one that is the same as its
own. -/
structure Collected (cs : List ((Symbol × Symbol) × LooseLocation))
    (t : Table (Symbol × Symbol) (List LooseLocation)) : Prop where
  nodup : t.keys.Nodup
  kept : ∀ {e places l}, t.find? e = some places → l ∈ places → (e, l) ∈ cs
  covered : ∀ {e l}, (e, l) ∈ cs → ∃ places, t.find? e = some places ∧ ∃ k ∈ places,
    k.compare? l = some .eq

variable {cs : List ((Symbol × Symbol) × LooseLocation)}
    {t : Table (Symbol × Symbol) (List LooseLocation)}

theorem Collected.empty : Collected [] ∅ where
  nodup := List.nodup_nil
  kept h := by cases h
  covered h := by cases h

/-- The places of an edge after one call more: none is added where one is the same as the call's. -/
def addLoose (l : LooseLocation) (places : List LooseLocation) : List LooseLocation :=
  if places.any (same · l) then places else places ++ [l]

theorem addSite_loose_eq (t : Table (Symbol × Symbol) (List LooseLocation))
    (c : (Symbol × Symbol) × LooseLocation) :
    addSite Places.loose.sameSite t c = t.update c.1 fun old => addLoose c.2 (old.getD []) := rfl

theorem mem_or_eq_of_mem_addLoose {l k : LooseLocation} (h : k ∈ addLoose l places) :
    k ∈ places ∨ k = l := by
  unfold addLoose at h
  split at h
  · exact .inl h
  · simpa using h

theorem mem_addLoose {l k : LooseLocation} (h : k ∈ places) : k ∈ addLoose l places := by
  unfold addLoose
  split
  · exact h
  · exact List.mem_append_left _ h

theorem exists_mem_addLoose {l : LooseLocation} (hl : l.Plain) (places : List LooseLocation) :
    ∃ k ∈ addLoose l places, k.compare? l = some .eq := by
  unfold addLoose
  split
  · rename_i hany
    obtain ⟨k, hk, hsame⟩ := List.any_eq_true.1 hany
    exact ⟨k, hk, same_iff.1 hsame⟩
  · exact ⟨l, by simp, hl.value.lawful.refl⟩

theorem Collected.mem_of_mem_getD (h : Collected cs t) {e : Symbol × Symbol} {l : LooseLocation}
    (hl : l ∈ (t.find? e).getD []) : (e, l) ∈ cs := by
  cases hfind : t.find? e with
  | none =>
    rw [hfind] at hl
    cases hl
  | some places =>
    rw [hfind] at hl
    exact h.kept hfind hl

theorem Collected.add (h : Collected cs t) {c : (Symbol × Symbol) × LooseLocation}
    (hc : c.2.Plain) :
    Collected (cs ++ [c]) (addSite Places.loose.sameSite t c) := by
  rw [addSite_loose_eq]
  constructor
  · exact Table.nodup_keys_update h.nodup _ _
  · intro e places l hfind hl
    rw [Table.find?_update] at hfind
    split at hfind
    · rename_i heq
      subst heq
      cases hfind
      rcases mem_or_eq_of_mem_addLoose hl with hl | rfl
      · exact List.mem_append_left _ (h.mem_of_mem_getD hl)
      · simp
    · exact List.mem_append_left _ (h.kept hfind hl)
  · intro e l hl
    rw [Table.find?_update]
    split
    · rename_i heq
      subst heq
      refine ⟨_, rfl, ?_⟩
      rcases List.mem_append.1 hl with hl | hl
      · obtain ⟨places, hfind, k, hk, heq⟩ := h.covered hl
        rw [hfind]
        exact ⟨k, mem_addLoose hk, heq⟩
      · obtain rfl : l = c.2 := congrArg Prod.snd (List.mem_singleton.1 hl)
        exact exists_mem_addLoose hc _
    · rename_i hne
      exact h.covered ((List.mem_append.1 hl).resolve_right fun hl =>
        hne (congrArg Prod.fst (List.mem_singleton.1 hl)))

theorem Collected.foldl (h : Collected cs t) {more : List ((Symbol × Symbol) × LooseLocation)}
    (hplain : ∀ c ∈ more, c.2.Plain) :
    Collected (cs ++ more) (more.foldl (addSite Places.loose.sameSite) t) := by
  induction more generalizing cs t with
  | nil => simpa using h
  | cons c rest ih =>
    obtain ⟨hc, hrest⟩ := List.forall_mem_cons.1 hplain
    have := ih (h.add hc) hrest
    rwa [List.append_assoc] at this

/-- Every edge's places can be put in order if and only if any two calls of one edge compare. -/
theorem Collected.sortPlaces_ok_iff (h : Collected cs t) (hplain : ∀ c ∈ cs, c.2.Plain) :
    (∀ e ∈ t.entries, ∃ sorted, sortPlaces LooseLocation.before [] e.2 = .ok sorted) ↔
      ∀ e l l', (e, l) ∈ cs → (e, l') ∈ cs → l.compare? l' ≠ none := by
  constructor
  · intro hsorted e l l' hl hl'
    obtain ⟨places, hfind, k, hk, heq⟩ := h.covered hl
    obtain ⟨_, hfind', k', hk', heq'⟩ := h.covered hl'
    cases hfind.symm.trans hfind'
    have hall : ∀ x ∈ places, x.Plain := fun x hx => hplain _ (h.kept hfind hx)
    have hkk' :=
      (CallGraph.sortPlaces_ok_iff hall).1 (hsorted _ (Table.mem_of_find? hfind)) k hk k' hk'
    have hleft : l.compare? l' = k.compare? l' :=
      (hall k hk).value.lawful.congr (hplain _ hl).value (hplain _ hl').value heq
    have hright : k.compare? k' = k.compare? l' :=
      (hall k hk).value.lawful.congr_right (hall k' hk').value (hplain _ hl').value heq'
    rwa [hleft, ← hright]
  · rintro hcompare ⟨e, places⟩ he
    have hfind := (Table.find?_eq_some_iff h.nodup).2 he
    refine (CallGraph.sortPlaces_ok_iff fun x hx => hplain _ (h.kept hfind hx)).2 fun a ha b hb =>
      ?_
    exact hcompare e a b (h.kept hfind ha) (h.kept hfind hb)

theorem sortSites_ok_iff {entries : List ((Symbol × Symbol) × List LooseLocation)} :
    (∃ sorted, sortSites LooseLocation.before entries = .ok sorted) ↔
      ∀ e ∈ entries, ∃ sorted, sortPlaces LooseLocation.before [] e.2 = .ok sorted := by
  induction entries with
  | nil => exact iff_of_true ⟨_, rfl⟩ (List.forall_mem_nil _)
  | cons e rest ih =>
    rw [sortSites, exists_bind_eq_ok_iff, List.forall_mem_cons, ← ih]
    constructor
    · rintro ⟨sorted, hsorted, h⟩
      obtain ⟨others, hothers, -⟩ := exists_bind_eq_ok_iff.1 h
      exact ⟨⟨sorted, hsorted⟩, others, hothers⟩
    · rintro ⟨⟨sorted, hsorted⟩, others, hothers⟩
      exact ⟨sorted, hsorted, exists_bind_eq_ok_iff.2 ⟨others, hothers, _, rfl⟩⟩

theorem sortEdges_ok_iff {M : Type} {g : CallGraph M LooseLocation} :
    (∃ g', sortEdges LooseLocation.before g = .ok g') ↔
      ∀ e ∈ g.sites.entries, ∃ sorted, sortPlaces LooseLocation.before [] e.2 = .ok sorted := by
  rw [sortEdges, exists_bind_eq_ok_iff, ← sortSites_ok_iff]
  constructor
  · rintro ⟨sorted, h, -⟩
    exact ⟨sorted, h⟩
  · rintro ⟨sorted, h⟩
    exact ⟨sorted, h, _, rfl⟩

/-! ## Keeping the earliest definition -/

/-- The table has an earliest definition of every symbol that is defined. -/
structure Foremost (ds : List (Symbol × LooseMeta)) (t : Table Symbol LooseMeta) : Prop where
  earliest : ∀ {s d}, t.find? s = some d → (s, d) ∈ ds ∧ ∀ d', (s, d') ∈ ds →
    d.place.NotAfter d'.place
  complete : ∀ {s d}, (s, d) ∈ ds → ∃ e, t.find? s = some e

/-- What a further definition does: it fails, or it is kept as the first or the earlier one, or it
is passed over. -/
theorem keepEarliest_cases (kept : Table Symbol LooseMeta × Nat) {d : Symbol × LooseMeta}
    (hkept : ∀ {old}, kept.1.find? d.1 = some old → old.place.Plain) (hd : d.2.place.Plain) :
    (∃ old, kept.1.find? d.1 = some old ∧ d.2.place.compare? old.place = none ∧
      keepEarliest Places.loose kept d = .error .incomparable) ∨
    (∃ n, keepEarliest Places.loose kept d = .ok (kept.1.insert d.1 d.2, n) ∧
      ∀ old, kept.1.find? d.1 = some old → d.2.place.NotAfter old.place) ∨
    (∃ n old, keepEarliest Places.loose kept d = .ok (kept.1, n) ∧ kept.1.find? d.1 = some old ∧
      old.place.NotAfter d.2.place) := by
  unfold keepEarliest
  cases hfind : kept.1.find? d.1 with
  | none => exact .inr (.inl ⟨_, rfl, fun _ h => by cases h⟩)
  | some old =>
    dsimp only
    split
    next hsame => exact .inr (.inr ⟨_, old, rfl, rfl, .inl hsame⟩)
    next hsame =>
      have hbefore : Places.loose.definedBefore d.2 old = _ := before_eq d.2.place old.place
      rw [hbefore]
      rcases hc : d.2.place.compare? old.place with _ | o
      · exact .inl ⟨old, rfl, hc, rfl⟩
      · by_cases ho : o = .lt
        · subst ho
          exact .inr (.inl ⟨_, rfl, fun _ h => by cases h; exact notAfter_iff.2 (.inr hc)⟩)
        · refine .inr
            (.inr ⟨kept.2 + 1, old, ?_, rfl, notAfter_of_not_before hd (hkept hfind) hc ho⟩)
          cases o with
          | lt => exact absurd rfl ho
          | eq => rfl
          | gt => rfl

section Foremost

variable {ds : List (Symbol × LooseMeta)} {t : Table Symbol LooseMeta} {d : Symbol × LooseMeta}

theorem mem_concat_iff {s : Symbol} {e : LooseMeta} :
    (s, e) ∈ ds ++ [d] ↔ (s, e) ∈ ds ∨ s = d.1 ∧ e = d.2 := by
  simp [Prod.ext_iff]

/-- A first or an earlier definition takes the place of the one that was kept. -/
theorem Foremost.replace (h : Foremost ds t) (hplain : ∀ d' ∈ ds ++ [d], d'.2.place.Plain)
    (hfirst : ∀ old, t.find? d.1 = some old → d.2.place.NotAfter old.place) :
    Foremost (ds ++ [d]) (t.insert d.1 d.2) := by
  have hds : ∀ {s e}, (s, e) ∈ ds → e.place.Plain := fun he => hplain _ (List.mem_append_left _ he)
  have hd : d.2.place.Plain := hplain d (by simp)
  constructor
  · intro s e he
    rw [Table.find?_insert] at he
    split at he
    · rename_i heq
      subst heq
      cases he
      refine ⟨mem_concat_iff.2 (.inr ⟨rfl, rfl⟩), fun e' he' => ?_⟩
      rcases mem_concat_iff.1 he' with he' | ⟨-, rfl⟩
      · obtain ⟨old, hold⟩ := h.complete he'
        obtain ⟨hmem, hle⟩ := h.earliest hold
        exact .trans hd (hds hmem) (hds he') (hfirst old hold) (hle e' he')
      · exact notAfter_refl hd
    · rename_i hne
      obtain ⟨hmem, hle⟩ := h.earliest he
      refine ⟨mem_concat_iff.2 (.inl hmem), fun e' he' => hle e' ?_⟩
      exact (mem_concat_iff.1 he').resolve_right fun heq => hne heq.1
  · intro s e he
    rw [Table.find?_insert]
    split
    · exact ⟨_, rfl⟩
    · rename_i hne
      exact h.complete ((mem_concat_iff.1 he).resolve_right fun heq => hne heq.1)

/-- A definition that is not before the one that was kept changes nothing. -/
theorem Foremost.skip (h : Foremost ds t) {old : LooseMeta} (hold : t.find? d.1 = some old)
    (hnot : old.place.NotAfter d.2.place) : Foremost (ds ++ [d]) t := by
  constructor
  · intro s e he
    obtain ⟨hmem, hle⟩ := h.earliest he
    refine ⟨mem_concat_iff.2 (.inl hmem), fun e' he' => ?_⟩
    rcases mem_concat_iff.1 he' with he' | ⟨rfl, rfl⟩
    · exact hle e' he'
    · cases hold.symm.trans he
      exact hnot
  · intro s e he
    rcases mem_concat_iff.1 he with he | ⟨rfl, rfl⟩
    · exact h.complete he
    · exact ⟨old, hold⟩

theorem Foremost.keep {kept kept' : Table Symbol LooseMeta × Nat} (h : Foremost ds kept.1)
    (hplain : ∀ d' ∈ ds ++ [d], d'.2.place.Plain)
    (hkeep : keepEarliest Places.loose kept d = .ok kept') :
    Foremost (ds ++ [d]) kept'.1 := by
  have hold : ∀ {old}, kept.1.find? d.1 = some old → old.place.Plain :=
    fun hold => hplain _ (List.mem_append_left _ (h.earliest hold).1)
  rcases keepEarliest_cases kept hold (hplain d (by simp)) with
    ⟨old, -, -, hkept⟩ | ⟨n, hkept, hfirst⟩ | ⟨n, old, hkept, hfind, hnot⟩
  · rw [hkept] at hkeep
    cases hkeep
  · cases hkept.symm.trans hkeep
    exact h.replace hplain hfirst
  · cases hkept.symm.trans hkeep
    exact h.skip hfind hnot

theorem Foremost.foldlM (hplain : ∀ d ∈ ds, d.2.place.Plain) {kept : Table Symbol LooseMeta × Nat}
    (h : ds.foldlM (keepEarliest Places.loose) (∅, 0) = .ok kept) :
    Foremost ds kept.1 := by
  induction ds using List.reverseRecOn generalizing kept with
  | nil =>
    cases h
    exact ⟨fun h => (by cases h), fun h => (by cases h)⟩
  | append_singleton ds d ih =>
    obtain ⟨before, hbefore, hkeep⟩ := foldlM_concat_eq_ok_iff.1 h
    exact (ih (fun d' hd' => hplain d' (List.mem_append_left _ hd')) hbefore).keep hplain hkeep

/-- The definition meets an earliest one of its symbol among those in front of it, and their places
do not compare. -/
def Meets (front : List (Symbol × LooseMeta)) (d : Symbol × LooseMeta) : Prop :=
  ∃ e, (d.1, e) ∈ front ∧ (∀ e', (d.1, e') ∈ front → e.place.NotAfter e'.place) ∧
    e.place.compare? d.2.place = none

/-- A definition meets one without an order if and only if the one that was kept has none to it: any
other earliest definition stands at the same place. -/
theorem Foremost.meets_iff (h : Foremost ds t) (hplain : ∀ d' ∈ ds ++ [d], d'.2.place.Plain) :
    Meets ds d ↔ ∃ old, t.find? d.1 = some old ∧ d.2.place.compare? old.place = none := by
  have hds : ∀ {s e}, (s, e) ∈ ds → e.place.Plain := fun he => hplain _ (List.mem_append_left _ he)
  have hd : d.2.place.Plain := hplain d (by simp)
  constructor
  · rintro ⟨e, he, hle, hnone⟩
    obtain ⟨old, hold⟩ := h.complete he
    obtain ⟨hmem, hle'⟩ := h.earliest hold
    have heq := (hle old hmem).antisymm (hds he) (hds hmem) (hle' e he)
    have hcongr : old.place.compare? d.2.place = e.place.compare? d.2.place :=
      (hds he).value.lawful.congr (hds hmem).value hd.value heq
    refine ⟨old, hold, ?_⟩
    rw [compare?_comm (hds hmem) hd, hcongr, hnone]
    rfl
  · rintro ⟨old, hold, hnone⟩
    obtain ⟨hmem, hle⟩ := h.earliest hold
    refine ⟨old, hmem, hle, ?_⟩
    rw [compare?_comm hd (hds hmem), hnone]
    rfl

/-- After definitions among which the earliest were kept, a further one fails if and only if it
meets one of them without an order. -/
theorem Foremost.keepEarliest_ok_iff {kept : Table Symbol LooseMeta × Nat} (h : Foremost ds kept.1)
    (hplain : ∀ d' ∈ ds ++ [d], d'.2.place.Plain) :
    (∃ kept', keepEarliest Places.loose kept d = .ok kept') ↔ ¬ Meets ds d := by
  have hd : d.2.place.Plain := hplain d (by simp)
  have hkept : ∀ {old}, kept.1.find? d.1 = some old → old.place.Plain :=
    fun hold => hplain _ (List.mem_append_left _ (h.earliest hold).1)
  rw [h.meets_iff hplain]
  rcases keepEarliest_cases kept hkept hd with
    ⟨old, hold, hnone, hfail⟩ | ⟨n, hok, hfirst⟩ | ⟨n, old, hok, hold, hnot⟩
  · refine iff_of_false ?_ (not_not_intro ⟨old, hold, hnone⟩)
    rintro ⟨_, hok⟩
    rw [hfail] at hok
    cases hok
  · refine iff_of_true ⟨_, hok⟩ ?_
    rintro ⟨old, hold, hnone⟩
    exact (hfirst old hold).compare?_ne_none hnone
  · refine iff_of_true ⟨_, hok⟩ ?_
    rintro ⟨old', hold', hnone⟩
    cases hold.symm.trans hold'
    refine hnot.compare?_ne_none ?_
    rw [compare?_comm hd (hkept hold), hnone]
    rfl

/-- A definition behind all others is met by what is in front of it or by those in front of an
earlier one. -/
theorem forall_not_meets_concat :
    (∀ front d' back, ds ++ [d] = front ++ d' :: back → ¬ Meets front d') ↔
      (∀ front d' back, ds = front ++ d' :: back → ¬ Meets front d') ∧ ¬ Meets ds d := by
  constructor
  · refine fun h => ⟨fun front d' back heq => ?_, h ds d [] rfl⟩
    exact h front d' (back ++ [d]) (by rw [heq, List.append_assoc, List.cons_append])
  · rintro ⟨h, hlast⟩ front d' back heq
    rcases List.eq_nil_or_concat back with rfl | ⟨back, x, rfl⟩
    · obtain ⟨rfl, hd⟩ := List.append_inj' heq rfl
      cases hd
      exact hlast
    · rw [List.concat_eq_append, ← List.cons_append, ← List.append_assoc] at heq
      exact h front d' back (List.append_inj' heq rfl).1

/-- Keeping the earliest definitions succeeds if and only if none meets an earliest one in front of
it without an order. -/
theorem foldlM_keepEarliest_ok_iff (hplain : ∀ d ∈ ds, d.2.place.Plain) :
    (∃ kept, ds.foldlM (keepEarliest Places.loose) (∅, 0) = .ok kept) ↔
      ∀ front d back, ds = front ++ d :: back → ¬ Meets front d := by
  induction ds using List.reverseRecOn with
  | nil => exact iff_of_true ⟨_, rfl⟩ fun front d back h => by simp at h
  | append_singleton ds d ih =>
    have hds : ∀ d' ∈ ds, d'.2.place.Plain := fun d' hd' => hplain d' (List.mem_append_left _ hd')
    rw [forall_not_meets_concat, ← ih hds]
    simp only [foldlM_concat_eq_ok_iff]
    constructor
    · rintro ⟨kept', kept, hkept, hok⟩
      exact ⟨⟨kept, hkept⟩, ((Foremost.foldlM hds hkept).keepEarliest_ok_iff hplain).1 ⟨kept', hok⟩⟩
    · rintro ⟨⟨kept, hkept⟩, hmeets⟩
      obtain ⟨kept', hok⟩ := ((Foremost.foldlM hds hkept).keepEarliest_ok_iff hplain).2 hmeets
      exact ⟨kept', kept, hkept, hok⟩

end Foremost

/-! ## The builder -/

/-- A graph is returned if and only if both the definitions and the places of every edge can be put
in order. -/
theorem ofRecords_loose_ok_iff {rs : List (Record LooseMeta LooseLocation)}
    (hdefinitions : ∀ d ∈ rs.filterMap Record.definition?, d.2.place.Plain)
    (hcalls : ∀ c ∈ rs.filterMap (Record.call? Places.loose.nowhere), c.2.Plain) :
    (∃ g, ofRecords Places.loose rs = .ok g) ↔
      (∀ front d back, rs.filterMap Record.definition? = front ++ d :: back → ¬ Meets front d) ∧
      ∀ e l l', (e, l) ∈ rs.filterMap (Record.call? Places.loose.nowhere) →
        (e, l') ∈ rs.filterMap (Record.call? Places.loose.nowhere) → l.compare? l' ≠ none := by
  have hcollected := Collected.empty.foldl hcalls
  rw [List.nil_append] at hcollected
  rw [← foldlM_keepEarliest_ok_iff hdefinitions, ← hcollected.sortPlaces_ok_iff hcalls, ofRecords,
    exists_bind_eq_ok_iff]
  have hedges : ∀ kept : Table Symbol LooseMeta × Nat, (∃ g, sortEdges Places.loose.siteBefore
      ((rs.filterMap (Record.call? Places.loose.nowhere)).foldl (addEdge Places.loose.sameSite)
        (ofNodes ⟨kept.1.entries.mergeSort fun a b => a.1.le b.1⟩
          (rs.countP Record.isMalformed + kept.2))) = .ok g) ↔ _ := fun kept => sortEdges_ok_iff
  simp only [(foldl_addEdge ..).1] at hedges
  constructor
  · rintro ⟨kept, hkept, h⟩
    exact ⟨⟨kept, hkept⟩, (hedges kept).1 h⟩
  · rintro ⟨⟨kept, hkept⟩, h⟩
    exact ⟨kept, hkept, (hedges kept).2 h⟩

end CallGraph

namespace Object

/-- The place that an object has. -/
def place? : Object LooseMeta LooseLocation → Option LooseLocation
  | .definition _ info => info.map (·.place)
  | .call _ _ site => site
  | .other => none

/-- A definition of a symbol stands behind an earliest one of those in front of it, and their places
have no order. -/
def DefinitionsClash (os : List (Object LooseMeta LooseLocation)) : Prop :=
  ∃ front s first info back, os = front ++ .definition (some (Symbol.loose s)) (some info) :: back ∧
    s.Valid ∧
    .definition (some s.loose) (some first) ∈ front ∧
    (∀ other, .definition (some s.loose) (some other) ∈ front → first.place.NotAfter other.place) ∧
    first.place.Unordered info.place

/-- Two calls have the same caller and the same callee, and their places have no order. -/
def CallsClash (os : List (Object LooseMeta LooseLocation)) : Prop :=
  ∃ a b site site', Symbol.Valid a ∧ Symbol.Valid b ∧
    .call (some a.loose) (some b.loose) site ∈ os ∧
    .call (some a.loose) (some b.loose) site' ∈ os ∧
    (site.getD ⟨.str "", .int 0⟩).Unordered (site'.getD ⟨.str "", .int 0⟩)

variable {os : List (Object LooseMeta LooseLocation)}

theorem plain_of_mem_definitions (hplain : ∀ o ∈ os, ∀ l, o.place? = some l → l.Plain) :
    ∀ d ∈ (os.map record).filterMap Record.definition?, d.2.place.Plain := by
  intro d hd
  exact hplain _ (mem_filterMap_definition?_iff.1 hd).2 _ rfl

theorem plain_of_mem_calls (hplain : ∀ o ∈ os, ∀ l, o.place? = some l → l.Plain) :
    ∀ c ∈ (os.map record).filterMap (Record.call? Places.loose.nowhere), c.2.Plain := by
  intro c hc
  obtain ⟨-, -, site, hsite, hl⟩ := mem_filterMap_call?_iff.1 hc
  rw [← hl]
  cases site with
  | none => exact ⟨.str "", .int 0⟩
  | some l => exact hplain _ hsite l rfl

open CallGraph in
theorem definitionsClash_iff (hplain : ∀ o ∈ os, ∀ l, o.place? = some l → l.Plain) :
    DefinitionsClash os ↔
      ∃ front d back, (os.map record).filterMap Record.definition? = front ++ d :: back ∧
        Meets front d := by
  constructor
  · rintro ⟨front, s, first, info, back, rfl, hs, hfirst, hle, hclash⟩
    refine ⟨(front.map record).filterMap Record.definition?, (s, info),
      (back.map record).filterMap Record.definition?, ?_, first, ?_, fun other hother => ?_, ?_⟩
    · rw [List.map_append, List.filterMap_append, List.map_cons, List.filterMap_cons_some]
      exact definition?_record.2 ⟨rfl, hs⟩
    · exact mem_filterMap_definition?_iff.2 ⟨hs, hfirst⟩
    · exact hle other (mem_filterMap_definition?_iff.1 hother).2
    · refine (LooseLocation.compare?_eq_none_iff ?_ ?_).2 hclash
      · exact hplain _ (List.mem_append_left _ hfirst) _ rfl
      · exact hplain _ (List.mem_append_right _ List.mem_cons_self) _ rfl
  · rintro ⟨front, ⟨s, info⟩, back, hsplit, first, hfirst, hle, hnone⟩
    rw [List.filterMap_map, filterMap_eq_append_cons_iff] at hsplit
    obtain ⟨before, o, behind, rfl, rfl, ho, -⟩ := hsplit
    obtain ⟨rfl, hs⟩ := definition?_record.1 ho
    rw [← List.filterMap_map] at hfirst hle
    have hmem := (mem_filterMap_definition?_iff.1 hfirst).2
    refine ⟨before, s, first, info, behind, rfl, hs, hmem, fun other hother => ?_, ?_⟩
    · exact hle other (mem_filterMap_definition?_iff.2 ⟨hs, hother⟩)
    · refine (LooseLocation.compare?_eq_none_iff ?_ ?_).1 hnone
      · exact hplain _ (List.mem_append_left _ hmem) _ rfl
      · exact hplain _ (List.mem_append_right _ List.mem_cons_self) _ rfl

theorem callsClash_iff (hplain : ∀ o ∈ os, ∀ l, o.place? = some l → l.Plain) :
    CallsClash os ↔ ∃ e l l', (e, l) ∈
      (os.map record).filterMap (Record.call? Places.loose.nowhere) ∧
      (e, l') ∈ (os.map record).filterMap (Record.call? Places.loose.nowhere) ∧
        l.compare? l' = none := by
  have hcalls := plain_of_mem_calls hplain
  constructor
  · rintro ⟨a, b, site, site', ha, hb, hsite, hsite', hclash⟩
    have hmem : ∀ o, .call (some a.loose) (some b.loose) o ∈ os →
      ((a, b), o.getD Places.loose.nowhere) ∈
        (os.map record).filterMap (Record.call? Places.loose.nowhere) :=
      fun o ho => mem_filterMap_call?_iff.2 ⟨ha, hb, o, ho, rfl⟩
    exact ⟨_, _, _, hmem site hsite, hmem site' hsite',
      (LooseLocation.compare?_eq_none_iff (hcalls _ (hmem site hsite))
        (hcalls _ (hmem site' hsite'))).2 hclash⟩
  · rintro ⟨⟨a, b⟩, l, l', hl, hl', hnone⟩
    have hclash := (LooseLocation.compare?_eq_none_iff (hcalls _ hl) (hcalls _ hl')).1 hnone
    obtain ⟨ha, hb, site, hsite, rfl⟩ := mem_filterMap_call?_iff.1 hl
    obtain ⟨-, -, site', hsite', rfl⟩ := mem_filterMap_call?_iff.1 hl'
    exact ⟨a, b, site, site', ha, hb, hsite, hsite', hclash⟩

end Object

open Object in
/-- **When a graph is returned.** Take objects of any kind whose places have plain values for file
and line. The builder returns a graph if and only if no definition of a symbol meets an earliest one
among those in front of it at a place without an order to its own, and no two calls with one caller
and one callee stand at places without an order, where a place that is none counts as line 0 of no
file. In particular it always does if every file is a text and every line an integer. -/
theorem ofObjects_returns_iff (os : List (Object LooseMeta LooseLocation))
    (hplain : ∀ o ∈ os, ∀ l, o.place? = some l → l.Plain) :
    ((∃ g, CallGraph.ofObjects Places.loose os = .ok g) ↔ ¬ DefinitionsClash os ∧ ¬ CallsClash os) ∧
    ((∀ o ∈ os, ∀ l, o.place? = some l → l.Typed) →
      ∃ g, CallGraph.ofObjects Places.loose os = .ok g) := by
  have hreturns : (∃ g, CallGraph.ofObjects Places.loose os = .ok g) ↔ ¬ DefinitionsClash os ∧
      ¬ CallsClash os := by
    rw [CallGraph.ofObjects, definitionsClash_iff hplain, callsClash_iff hplain,
      CallGraph.ofRecords_loose_ok_iff (plain_of_mem_definitions hplain)
        (plain_of_mem_calls hplain)]
    simp only [not_exists, not_and]
  refine ⟨hreturns, fun htyped => hreturns.2 ⟨?_, ?_⟩⟩
  · rintro ⟨front, s, first, info, back, rfl, -, hfirst, -, hclash⟩
    have hplace := htyped _ (List.mem_append_left _ hfirst) _ rfl
    have hplace' := htyped _ (List.mem_append_right _ List.mem_cons_self) _ rfl
    exact hplace.not_unordered hplace' hclash
  · rintro ⟨a, b, site, site', -, -, hsite, hsite', hclash⟩
    have hgetD : ∀ o, .call (some a.loose) (some b.loose) o ∈ os →
        (o.getD ⟨.str "", .int 0⟩).Typed := by
      intro o ho
      cases o with
      | none => exact ⟨"", 0, rfl⟩
      | some l => exact htyped _ ho l rfl
    exact (hgetD site hsite).not_unordered (hgetD site' hsite') hclash

/-- The symbol `m.f` without parameters. -/
def plainSymbol : Symbol := ⟨"m", "f", 0⟩

/-- Two definitions of one symbol in one file, the second at a line that is a text. -/
def lineMistyped : List (Object LooseMeta LooseLocation) :=
  [.definition (some plainSymbol.loose) (some ⟨{}, .str "a.py", .int 1⟩),
    .definition (some plainSymbol.loose) (some ⟨{}, .str "a.py", .str "x"⟩)]

theorem lineMistyped_fails : (∀ o ∈ lineMistyped, ∀ l, o.place? = some l → l.Plain) ∧
    ¬ ∃ g, CallGraph.ofObjects Places.loose lineMistyped = .ok g := by
  have hplain : ∀ o ∈ lineMistyped, ∀ l, o.place? = some l → l.Plain := by
    rw [lineMistyped, List.forall_mem_cons, List.forall_mem_singleton]
    refine ⟨fun l hl => ?_, fun l hl => ?_⟩
    · cases hl
      exact ⟨.str _, .int 1⟩
    · cases hl
      exact ⟨.str _, .str _⟩
  refine ⟨hplain, fun h => ((ofObjects_returns_iff lineMistyped hplain).1.1 h).1 ?_⟩
  refine ⟨_, plainSymbol, _, _, [], rfl, by decide, List.mem_singleton_self _,
    fun other hother => ?_,
    .inr ⟨by decide, .kinds (by decide)⟩⟩
  cases List.mem_singleton.1 hother
  exact .inl (by decide)

end Deadwood
