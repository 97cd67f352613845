import Deadwood.Graph.Build
import Deadwood.Proofs.Order
import Deadwood.Proofs.Reach

/-!
# The graph of records

A graph is built in one pass over its records: definitions and places of calls are kept in tables as
they come, and put in order at the end. What is kept can be said without the pass.

* `Earliest ds t`: of the definitions of every symbol, `t` has one at the earliest place.
* `Gathered cs t`: for every edge, `t` has the places of its calls, each once.
* `Represents rs g`: both, of the records of a graph, and all in order. `represents_ofRecords` is
  what a pass gives; step by step it is `Earliest.keep` and `Gathered.add`.

A graph that represents records is determined by which records there are, so that their order does
not matter (`ofRecords_perm`).
-/

namespace Deadwood.CallGraph

/-! ## Definitions -/

/-- The definitions kept so far, and the number of conflicts, after one definition more. -/
def keepProper (kept : Table Symbol Meta × Nat) (d : Symbol × Meta) : Table Symbol Meta × Nat :=
  (keepEarliest Places.proper kept d).run

/-- What becomes of a definition: it is the first of its symbol, it stands where the kept one does,
or it conflicts with that one and replaces it if it stands before it. -/
theorem keepProper_cases (kept : Table Symbol Meta × Nat) (d : Symbol × Meta) :
    (kept.1.find? d.1 = none ∧ keepProper kept d = (kept.1.insert d.1 d.2, kept.2)) ∨
    ∃ old, kept.1.find? d.1 = some old ∧
      ((old.location = d.2.location ∧ keepProper kept d = kept) ∨
      (old.location ≠ d.2.location ∧ d.2.location.before old.location = true ∧
        keepProper kept d = (kept.1.insert d.1 d.2, kept.2 + 1)) ∨
      (old.location ≠ d.2.location ∧ d.2.location.before old.location = false ∧
        keepProper kept d = (kept.1, kept.2 + 1))) := by
  unfold keepProper keepEarliest
  cases hold : kept.1.find? d.1 with
  | none => exact .inl ⟨rfl, rfl⟩
  | some old =>
    refine .inr ⟨old, rfl, ?_⟩
    by_cases hsame : old.location = d.2.location
    · exact .inl ⟨hsame, by simp [Places.proper, hsame]⟩
    · cases hbefore : d.2.location.before old.location with
      | true => exact .inr (.inl ⟨hsame, rfl, by simp [Places.proper, hsame, hbefore]⟩)
      | false => exact .inr (.inr ⟨hsame, rfl, by simp [Places.proper, hsame, hbefore]⟩)

/-- Of the definitions of every symbol the table has one at the earliest place. -/
structure Earliest (ds : List (Symbol × Meta)) (t : Table Symbol Meta) : Prop where
  nodup : t.keys.Nodup
  earliest : ∀ {s info}, t.find? s = some info →
    (s, info) ∈ ds ∧ ∀ other, (s, other) ∈ ds → info.location.le other.location = true
  complete : ∀ {s info}, (s, info) ∈ ds → ∃ kept, t.find? s = some kept

section Earliest

variable {ds : List (Symbol × Meta)} {t : Table Symbol Meta}

theorem Earliest.empty : Earliest [] ∅ where
  nodup := List.nodup_nil
  earliest h := by cases h
  complete h := by cases h

/-- A definition that stands before all others of its symbol takes their place. -/
theorem Earliest.replace (h : Earliest ds t) {d : Symbol × Meta}
    (hfirst : ∀ other, (d.1, other) ∈ ds → d.2.location.le other.location = true) :
    Earliest (ds ++ [d]) (t.insert d.1 d.2) where
  nodup := Table.nodup_keys_insert h.nodup _ _
  earliest {s info} hs := by
    rw [Table.find?_insert] at hs
    split at hs
    · rename_i heq
      subst heq
      cases hs
      refine ⟨by simp, fun other hother => ?_⟩
      rcases List.mem_append.1 hother with hother | hother
      · exact hfirst other hother
      · obtain rfl : other = d.2 := congrArg Prod.snd (List.mem_singleton.1 hother)
        exact Location.le_refl _
    · rename_i hne
      obtain ⟨hmem, hle⟩ := h.earliest hs
      refine ⟨List.mem_append_left _ hmem, fun other hother => ?_⟩
      rcases List.mem_append.1 hother with hother | hother
      · exact hle other hother
      · rw [List.mem_singleton] at hother
        exact absurd (congrArg Prod.fst hother) hne
  complete {s info} hs := by
    rw [Table.find?_insert]
    split
    · exact ⟨_, rfl⟩
    · rename_i hne
      rcases List.mem_append.1 hs with hs | hs
      · exact h.complete hs
      · rw [List.mem_singleton] at hs
        exact absurd (congrArg Prod.fst hs) hne

/-- A definition that does not stand before the kept one is left out. -/
theorem Earliest.skip (h : Earliest ds t) {d : Symbol × Meta} {old : Meta}
    (hold : t.find? d.1 = some old) (hle : old.location.le d.2.location = true) :
    Earliest (ds ++ [d]) t where
  nodup := h.nodup
  earliest {s info} hs := by
    obtain ⟨hmem, hearliest⟩ := h.earliest hs
    refine ⟨List.mem_append_left _ hmem, fun other hother => ?_⟩
    rcases List.mem_append.1 hother with hother | hother
    · exact hearliest other hother
    · obtain rfl : (s, other) = d := List.mem_singleton.1 hother
      obtain rfl : old = info := Option.some.inj (hold.symm.trans hs)
      exact hle
  complete {s info} hs := by
    rcases List.mem_append.1 hs with hs | hs
    · exact h.complete hs
    · obtain rfl : (s, info) = d := List.mem_singleton.1 hs
      exact ⟨old, hold⟩

theorem Earliest.keep (h : Earliest ds t) (n : Nat) (d : Symbol × Meta) :
    Earliest (ds ++ [d]) (keepProper (t, n) d).1 := by
  rcases keepProper_cases (t, n) d with
    ⟨hnone, hstep⟩ | ⟨old, hold, ⟨hsame, hstep⟩ | ⟨-, hbefore, hstep⟩ | ⟨-, hbefore, hstep⟩⟩ <;>
      rw [hstep]
  · refine h.replace fun other hother => ?_
    obtain ⟨kept, hkept⟩ := h.complete hother
    rw [hnone] at hkept
    cases hkept
  · exact h.skip hold (hsame ▸ Location.le_refl _)
  · refine h.replace fun other hother => ?_
    exact Location.le_trans (Location.le_of_before hbefore) ((h.earliest hold).2 other hother)
  · exact h.skip hold (Location.le_of_not_before hbefore)

theorem Earliest.foldl (h : Earliest ds t) (n : Nat) (more : List (Symbol × Meta)) :
    Earliest (ds ++ more) (more.foldl keepProper (t, n)).1 := by
  induction more generalizing ds t n with
  | nil => simpa using h
  | cons d rest ih =>
    have := ih (h.keep n d) (keepProper (t, n) d).2
    rwa [List.append_assoc] at this

end Earliest

/-! ## Places of calls -/

/-- For every edge the table has the places of its calls, each once. -/
structure Gathered (cs : List ((Symbol × Symbol) × Location))
    (t : Table (Symbol × Symbol) (List Location)) : Prop where
  nodup : t.keys.Nodup
  places : ∀ {e places}, t.find? e = some places → places.Nodup ∧ ∀ l, l ∈ places ↔ (e, l) ∈ cs
  edges : ∀ {e}, e ∈ t.keys ↔ ∃ l, (e, l) ∈ cs

section Gathered

variable {cs : List ((Symbol × Symbol) × Location)} {t : Table (Symbol × Symbol) (List Location)}

theorem Gathered.empty : Gathered [] ∅ where
  nodup := List.nodup_nil
  places h := by cases h
  edges := by simp [Table.keys, EmptyCollection.emptyCollection]

/-- The places of an edge after one call more. -/
def addPlace (l : Location) (places : List Location) : List Location :=
  if l ∈ places then places else places ++ [l]

theorem addSite_eq (t : Table (Symbol × Symbol) (List Location))
    (c : (Symbol × Symbol) × Location) :
    addSite Places.proper.sameSite t c = t.update c.1 fun old => addPlace c.2 (old.getD []) := by
  unfold addSite addPlace
  congr 1
  funext old
  simp [Places.proper]

theorem Gathered.places_getD (h : Gathered cs t) (e : Symbol × Symbol) :
    ((t.find? e).getD []).Nodup ∧ ∀ l, l ∈ (t.find? e).getD [] ↔ (e, l) ∈ cs := by
  cases hfind : t.find? e with
  | some places => exact h.places hfind
  | none =>
    refine ⟨List.nodup_nil, fun l => ⟨fun hl => (by cases hl), fun hl => ?_⟩⟩
    obtain ⟨places, hplaces⟩ := Table.mem_keys_iff_find?.1 (h.edges.2 ⟨l, hl⟩)
    rw [hfind] at hplaces
    cases hplaces

theorem nodup_addPlace {places : List Location} (h : places.Nodup) (l : Location) :
    (addPlace l places).Nodup := by
  unfold addPlace
  split
  · exact h
  · rename_i hl
    exact List.nodup_append.2
      ⟨h, by simp, fun a ha b hb hab => hl (List.mem_singleton.1 hb ▸ hab ▸ ha)⟩

theorem mem_addPlace {places : List Location} {l l' : Location} :
    l' ∈ addPlace l places ↔ l' ∈ places ∨ l' = l := by
  unfold addPlace
  split
  · rename_i hl
    exact ⟨.inl, fun h => h.elim id fun h => h ▸ hl⟩
  · simp

theorem Gathered.add (h : Gathered cs t) (c : (Symbol × Symbol) × Location) :
    Gathered (cs ++ [c]) (addSite Places.proper.sameSite t c) := by
  obtain ⟨hn, hmem⟩ := h.places_getD c.1
  have hlast : ∀ e l, (e, l) ∈ cs ++ [c] ↔ (e, l) ∈ cs ∨ e = c.1 ∧ l = c.2 := by
    simp [Prod.ext_iff]
  rw [addSite_eq]
  constructor
  · exact Table.nodup_keys_update h.nodup _ _
  · intro e places hplaces
    rw [Table.find?_update] at hplaces
    split at hplaces
    · rename_i heq
      subst heq
      cases hplaces
      refine ⟨nodup_addPlace hn _, fun l => ?_⟩
      rw [mem_addPlace, hmem, hlast]
      simp
    · rename_i hne
      refine ⟨(h.places hplaces).1, fun l => ?_⟩
      rw [(h.places hplaces).2, hlast]
      simp [hne]
  · intro e
    rw [Table.keys_update]
    simp only [hlast, exists_or, exists_and_left, exists_eq, and_true, ← h.edges]
    split
    · rename_i hc
      exact ⟨.inl, fun he => he.elim id fun he => he ▸ hc⟩
    · simp

theorem Gathered.foldl (h : Gathered cs t) (more : List ((Symbol × Symbol) × Location)) :
    Gathered (cs ++ more) (more.foldl (addSite Places.proper.sameSite) t) := by
  induction more generalizing cs t with
  | nil => simpa using h
  | cons c rest ih =>
    have := ih (h.add c)
    rwa [List.append_assoc] at this

end Gathered

/-! ## Putting in order -/

/-- The places with `x` among them, those before `x` in front. -/
def insertProper (x : Location) (places : List Location) : List Location :=
  (insertPlace Places.proper.siteBefore x places).run

theorem insertProper_cons (x y : Location) (rest : List Location) :
    insertProper x (y :: rest) = if x.before y then x :: y :: rest
      else y :: insertProper x rest := by
  rw [insertProper, insertPlace]
  change (if x.before y then pure (x :: y :: rest) else _ : Id (List Location)).run = _
  split <;> rfl

theorem insertProper_perm (x : Location) (places : List Location) :
    (insertProper x places).Perm (x :: places) := by
  induction places with
  | nil => exact .refl _
  | cons y rest ih =>
    rw [insertProper_cons]
    split
    · exact .refl _
    · exact (ih.cons y).trans (.swap x y rest)

theorem ascending_insertProper {x : Location} {places : List Location}
    (h : Ascending Location.cmp places) (hx : x ∉ places) :
    Ascending Location.cmp (insertProper x places) := by
  induction places with
  | nil => exact List.pairwise_singleton _ _
  | cons y rest ih =>
    obtain ⟨hy, hrest⟩ := List.pairwise_cons.1 h
    rw [insertProper_cons]
    split
    · rename_i hbefore
      refine List.pairwise_cons.2 ⟨fun z hz => ?_, h⟩
      rcases List.mem_cons.1 hz with rfl | hz
      · exact Location.before_iff.1 hbefore
      · exact Std.TransCmp.lt_trans (Location.before_iff.1 hbefore) (hy z hz)
    · rename_i hbefore
      refine List.pairwise_cons.2
        ⟨fun z hz => ?_, ih hrest fun hmem => hx (List.mem_cons_of_mem _ hmem)⟩
      rcases List.mem_cons.1 ((insertProper_perm x rest).mem_iff.1 hz) with rfl | hz
      · have hle : y.le z = true := Location.le_of_not_before (by simpa using hbefore)
        cases hcmp : y.cmp z with
        | lt => rfl
        | eq =>
          rw [Std.LawfulEqCmp.eq_of_compare hcmp] at hx
          exact absurd List.mem_cons_self hx
        | gt =>
          rw [Location.le, hcmp] at hle
          cases hle
      · exact hy z hz

/-- The places in order. -/
def sortProper (done places : List Location) : List Location :=
  (sortPlaces Places.proper.siteBefore done places).run

theorem sortProper_perm (done places : List Location) :
    (sortProper done places).Perm (done ++ places) := by
  induction places generalizing done with
  | nil => simp [sortProper, sortPlaces]
  | cons x rest ih =>
    have hinsert := ((insertProper_perm x done).append_right rest).trans List.perm_middle.symm
    exact (ih _).trans hinsert

theorem ascending_sortProper {done places : List Location} (h : Ascending Location.cmp done)
    (hn : (done ++ places).Nodup) : Ascending Location.cmp (sortProper done places) := by
  induction places generalizing done with
  | nil => exact h
  | cons x rest ih =>
    have hperm := List.perm_middle.trans (((insertProper_perm x done).append_right rest).symm)
    have hx : x ∉ done := fun hx => (List.nodup_append.1 hn).2.2 x hx x List.mem_cons_self rfl
    exact ih (ascending_insertProper h hx) (hperm.nodup_iff.1 hn)

/-- The entries of a table in the order of their symbols. -/
def inOrder (t : Table Symbol Meta) : Table Symbol Meta :=
  ⟨t.entries.mergeSort fun a b => a.1.le b.1⟩

theorem ascending_inOrder {t : Table Symbol Meta} (hn : t.keys.Nodup) :
    Ascending Symbol.cmp (inOrder t).keys := by
  have hsorted : (inOrder t).entries.Pairwise fun a b => a.1.le b.1 = true :=
    @List.pairwise_mergeSort _ (fun a b : Symbol × Meta => a.1.le b.1)
      (fun a b c => Symbol.le_trans a.1 b.1 c.1) (fun a b => Symbol.le_total a.1 b.1) t.entries
  have hkeys : (inOrder t).keys.Pairwise fun a b => (Symbol.cmp a b).isLE = true :=
    List.pairwise_map.2 hsorted
  have hperm : (inOrder t).keys.Perm t.keys := (List.mergeSort_perm _ _).map _
  exact .of_sorted hkeys (hperm.nodup_iff.2 hn)

theorem Earliest.inOrder {ds : List (Symbol × Meta)} {t : Table Symbol Meta} (h : Earliest ds t) :
    Earliest ds (inOrder t) := by
  have hperm : t.entries.Perm (CallGraph.inOrder t).entries := (List.mergeSort_perm _ _).symm
  have hfind := Table.find?_of_perm hperm h.nodup
  constructor
  · exact (ascending_inOrder h.nodup).nodup
  · intro s info hs
    exact h.earliest ((hfind s).trans hs)
  · intro s info hs
    rw [← hfind]
    exact h.complete hs

/-- The places of every edge may be put in another order. -/
theorem Gathered.mapValues {cs : List ((Symbol × Symbol) × Location)}
    {t : Table (Symbol × Symbol) (List Location)} (h : Gathered cs t)
    {f : List Location → List Location} (hf : ∀ places, (f places).Perm places) :
    Gathered cs (t.mapValues f) := by
  have hkeys : (t.mapValues f).keys = t.keys := by simp [Table.keys, Table.mapValues]
  constructor
  · rw [hkeys]
    exact h.nodup
  · intro e places hplaces
    rw [Table.find?_mapValues] at hplaces
    obtain ⟨gathered, hgathered, rfl⟩ := Option.map_eq_some_iff.1 hplaces
    obtain ⟨hn, hmem⟩ := h.places hgathered
    exact ⟨(hf gathered).nodup_iff.2 hn, fun l => (hf gathered).mem_iff.trans (hmem l)⟩
  · intro e
    rw [hkeys]
    exact h.edges

theorem sortSites_eq (es : List ((Symbol × Symbol) × List Location)) :
    (sortSites Places.proper.siteBefore es).run.val = es.map fun e => (e.1, sortProper [] e.2) := by
  induction es with
  | nil => rfl
  | cons e rest ih => exact congrArg ((e.1, sortProper [] e.2) :: ·) ih

/-- Calls that are added to a graph change its edges alone. -/
theorem foldl_addEdge {M L : Type} (same : L → L → Bool) (cs : List ((Symbol × Symbol) × L))
    (g : CallGraph M L) :
    (cs.foldl (addEdge same) g).sites = cs.foldl (addSite same) g.sites ∧
      (cs.foldl (addEdge same) g).nodes = g.nodes ∧ (cs.foldl (addEdge same) g).dropped =
        g.dropped := by
  have hstep : ∀ (g : CallGraph M L) c, (addEdge same g c).sites = addSite same g.sites c ∧
      (addEdge same g c).nodes = g.nodes ∧ (addEdge same g c).dropped = g.dropped := by
    intro g c
    unfold addEdge
    split <;> exact ⟨rfl, rfl, rfl⟩
  induction cs generalizing g with
  | nil => exact ⟨rfl, rfl, rfl⟩
  | cons c rest ih =>
    obtain ⟨hsites, hnodes, hdropped⟩ := hstep g c
    obtain ⟨hsites', hnodes', hdropped'⟩ := ih (addEdge same g c)
    rw [hsites] at hsites'
    exact ⟨hsites', hnodes'.trans hnodes, hdropped'.trans hdropped⟩

end Deadwood.CallGraph

namespace Deadwood

open CallGraph

/-- The call graph of records whose places are proper ones. -/
def ProjectGraph.ofRecords (rs : List (Record Meta Location)) : ProjectGraph :=
  Id.run (CallGraph.ofRecords .proper rs)

/-- The definitions that records state, the malformed ones left out. -/
def Record.definitions (rs : List (Record Meta Location)) : List (Symbol × Meta) :=
  rs.filterMap Record.definition?

/-- The calls that records state, the malformed ones left out, each with its edge and place. -/
def Record.calls (rs : List (Record Meta Location)) : List ((Symbol × Symbol) × Location) :=
  rs.filterMap (Record.call? Places.proper.nowhere)

/-- The graph of records, part by part. -/
theorem ProjectGraph.parts_ofRecords (rs : List (Record Meta Location)) :
    (ofRecords rs).nodes = inOrder ((Record.definitions rs).foldl keepProper (∅, 0)).1 ∧
    (ofRecords rs).sites =
      ((Record.calls rs).foldl (addSite Places.proper.sameSite) ∅).mapValues (sortProper []) ∧
    (ofRecords rs).dropped =
      rs.countP Record.isMalformed + ((Record.definitions rs).foldl keepProper (∅, 0)).2 := by
  have hkept : (List.foldlM (keepEarliest Places.proper) (∅, 0) (Record.definitions rs)).run =
      (Record.definitions rs).foldl keepProper (∅, 0) := List.idRun_foldlM
  rw [Record.definitions] at hkept
  unfold ofRecords CallGraph.ofRecords
  rw [Id.run_bind, hkept]
  obtain ⟨hsites, hnodes, hdropped⟩ := foldl_addEdge Places.proper.sameSite (Record.calls rs)
    (.ofNodes (inOrder ((Record.definitions rs).foldl keepProper (∅, 0)).1)
      (rs.countP Record.isMalformed + ((Record.definitions rs).foldl keepProper (∅, 0)).2))
  rw [sites_ofNodes] at hsites
  refine ⟨hnodes, ?_, hdropped⟩
  rw [← hsites]
  exact congrArg Table.mk (sortSites_eq _)

/-- A graph represents records: its nodes are the defined symbols, described by their earliest
definitions, and its edges are the calls with their places, all in order. -/
structure Represents (rs : List (Record Meta Location)) (g : ProjectGraph) : Prop where
  definitions : Earliest (Record.definitions rs) g.nodes
  nodes_ascending : Ascending Symbol.cmp g.nodes.keys
  calls : Gathered (Record.calls rs) g.sites
  places_ascending : ∀ {e places}, g.sites.find? e = some places → Ascending Location.cmp places

theorem represents_ofRecords (rs : List (Record Meta Location)) :
    Represents rs (.ofRecords rs) := by
  have hkept := Earliest.empty.foldl 0 (Record.definitions rs)
  have hsites := Gathered.empty.foldl (Record.calls rs)
  rw [List.nil_append] at hkept hsites
  obtain ⟨hnodes, hplaced, -⟩ := ProjectGraph.parts_ofRecords rs
  constructor
  · rw [hnodes]
    exact hkept.inOrder
  · rw [hnodes]
    exact ascending_inOrder hkept.nodup
  · rw [hplaced]
    exact hsites.mapValues fun places => (sortProper_perm [] places)
  · intro e places hplaces
    rw [hplaced, Table.find?_mapValues] at hplaces
    obtain ⟨gathered, hgathered, rfl⟩ := Option.map_eq_some_iff.1 hplaces
    exact ascending_sortProper List.Pairwise.nil (hsites.places hgathered).1

/-! ## The order of records -/

namespace Represents

variable {rs rs' : List (Record Meta Location)} {g g' : ProjectGraph}

/-- The nodes are the symbols of the definitions. -/
theorem mem_keys_iff (hg : Represents rs g) {s : Symbol} :
    s ∈ g.nodes.keys ↔ ∃ info, (s, info) ∈ Record.definitions rs := by
  rw [Table.mem_keys_iff_find?]
  constructor
  · rintro ⟨info, hinfo⟩
    exact ⟨info, (hg.definitions.earliest hinfo).1⟩
  · rintro ⟨info, hinfo⟩
    exact hg.definitions.complete hinfo

/-- The edges are those of the calls. -/
theorem mem_edges_iff (hg : Represents rs g) {e : Symbol × Symbol} :
    e ∈ g.edges ↔ ∃ l, (e, l) ∈ Record.calls rs :=
  hg.calls.edges

theorem keys_eq (hg : Represents rs g) (hg' : Represents rs' g') (hp : rs.Perm rs') :
    g.nodes.keys = g'.nodes.keys := by
  have hds := hp.filterMap Record.definition?
  refine hg.nodes_ascending.eq_of_mem_iff hg'.nodes_ascending fun s => ?_
  rw [hg.mem_keys_iff, hg'.mem_keys_iff]
  exact exists_congr fun info => hds.mem_iff

/-- Two definitions of a symbol that are kept for the same records stand at the same place. -/
theorem location_eq (hg : Represents rs g) (hg' : Represents rs' g') (hp : rs.Perm rs') {s : Symbol}
    {a b : Meta} (ha : g.nodes.find? s = some a) (hb : g'.nodes.find? s = some b) :
    (s, a) ∈ Record.definitions rs ∧ (s, b) ∈ Record.definitions rs ∧ a.location = b.location := by
  have hds := hp.filterMap Record.definition?
  obtain ⟨hmem, hle⟩ := hg.definitions.earliest ha
  obtain ⟨hmem', hle'⟩ := hg'.definitions.earliest hb
  have hmem'' : (s, b) ∈ Record.definitions rs := hds.mem_iff.2 hmem'
  exact ⟨hmem, hmem'', Location.le_antisymm (hle b hmem'') (hle' a (hds.mem_iff.1 hmem))⟩

theorem edges_iff (hg : Represents rs g) (hg' : Represents rs' g') (hp : rs.Perm rs')
    (e : Symbol × Symbol) :
    e ∈ g.edges ↔ e ∈ g'.edges := by
  have hcs := hp.filterMap (Record.call? Places.proper.nowhere)
  rw [hg.mem_edges_iff, hg'.mem_edges_iff]
  exact exists_congr fun l => hcs.mem_iff

/-- The places of an edge are determined by the calls, because they are ascending. -/
theorem find?_sites_eq (hg : Represents rs g) (hg' : Represents rs' g') (hp : rs.Perm rs')
    (e : Symbol × Symbol) :
    g.sites.find? e = g'.sites.find? e := by
  have hcs := hp.filterMap (Record.call? Places.proper.nowhere)
  have hkeys := hg.edges_iff hg' hp e
  simp only [edges, Table.mem_keys_iff_find?] at hkeys
  cases hfind : g.sites.find? e with
  | none =>
    cases hfind' : g'.sites.find? e with
    | none => rfl
    | some places =>
      obtain ⟨_, hsome⟩ := hkeys.2 ⟨places, hfind'⟩
      rw [hfind] at hsome
      cases hsome
  | some places =>
    obtain ⟨places', hfind'⟩ := hkeys.1 ⟨places, hfind⟩
    rw [hfind']
    congr 1
    refine (hg.places_ascending hfind).eq_of_mem_iff (hg'.places_ascending hfind') fun l => ?_
    rw [(hg.calls.places hfind).2, (hg'.calls.places hfind').2]
    exact hcs.mem_iff

end Represents

/-- **The order of records does not matter.** Let definitions of one symbol at one place be the
`same`, which may mean that their descriptions are equal or that they agree in what is of interest.
Then records in another order give the same nodes in the same ascending order, the same callees and
callers, and for every edge the same places in the same order. -/
theorem ofRecords_perm {same : Meta → Meta → Prop} {rs rs' : List (Record Meta Location)}
    (hp : rs.Perm rs')
    (h : ∀ s a b, (s, a) ∈ Record.definitions rs → (s, b) ∈ Record.definitions rs →
      a.location = b.location → same a b) :
    let g := ProjectGraph.ofRecords rs
    let g' := ProjectGraph.ofRecords rs'
    (Ascending Symbol.cmp g.nodes.keys ∧
      List.Forall₂ (fun a b => a.1 = b.1 ∧ same a.2 b.2) g.nodes.entries g'.nodes.entries ∧
      ((∀ a b, same a b → a = b) → g.nodes = g'.nodes)) ∧
    (∀ s t, t ∈ g.callees s ↔ t ∈ g'.callees s) ∧
    (∀ s t, t ∈ g.callers s ↔ t ∈ g'.callers s) ∧
    ∀ e, g.sites.find? e = g'.sites.find? e := by
  intro g g'
  have hg : Represents rs g := represents_ofRecords rs
  have hg' : Represents rs' g' := represents_ofRecords rs'
  have hedges := hg.edges_iff hg' hp
  have hnodes : List.Forall₂ (fun a b => a.1 = b.1 ∧ same a.2 b.2)
      g.nodes.entries g'.nodes.entries := by
    refine Table.forall₂_of_keys_eq (hg.keys_eq hg' hp) fun s a b ha hb => ?_
    have ha := (Table.find?_eq_some_iff hg.definitions.nodup).2 ha
    have hb := (Table.find?_eq_some_iff hg'.definitions.nodup).2 hb
    obtain ⟨hmem, hmem', hplace⟩ := hg.location_eq hg' hp ha hb
    exact h s a b hmem hmem' hplace
  refine ⟨⟨hg.nodes_ascending, hnodes, fun heq => ?_⟩, fun s t => ?_, fun s t => ?_,
    hg.find?_sites_eq hg' hp⟩
  · have hentries := hnodes.imp fun a b hab => Prod.ext hab.1 (heq _ _ hab.2)
    rw [List.forall₂_eq_eq_eq] at hentries
    exact congrArg Table.mk hentries
  · rw [mem_callees_iff, mem_callees_iff, hedges]
  · rw [mem_callers_iff, mem_callers_iff, hedges]

/-- Two definitions of `f` at different places and a third that repeats the second, a definition
without a name, something that is no record, and calls of which two stand at the same place. -/
def shuffled : List (Record Meta Location) :=
  [.call (some ⟨"m", "f", 0⟩) (some ⟨"os", "getpid", 0⟩) (some ⟨"a.py", 7⟩),
    .definition (some ⟨"m", "f", 0⟩) (some { file := "a.py", line := 9 }),
    .definition (some ⟨"m", "", 0⟩) (some { file := "a.py", line := 1 }),
    .definition (some ⟨"m", "f", 0⟩) (some { file := "a.py", line := 2, «export» := true }),
    .unknown,
    .call (some ⟨"m", "f", 0⟩) (some ⟨"os", "getpid", 0⟩) (some ⟨"a.py", 3⟩),
    .definition (some ⟨"m", "f", 0⟩) (some { file := "a.py", line := 2, «export» := true }),
    .call (some ⟨"m", "f", 0⟩) (some ⟨"os", "getpid", 0⟩) (some ⟨"a.py", 7⟩)]

theorem definitions_shuffled : Record.definitions shuffled =
    [(⟨"m", "f", 0⟩, { file := "a.py", line := 9 }),
      (⟨"m", "f", 0⟩, { file := "a.py", line := 2, «export» := true }),
      (⟨"m", "f", 0⟩, { file := "a.py", line := 2, «export» := true })] := rfl

theorem shuffled_same_graph :
    shuffled.Perm shuffled.reverse ∧
    (∀ s a b, (s, a) ∈ Record.definitions shuffled → (s, b) ∈ Record.definitions shuffled →
      a.location = b.location → a = b) ∧
    (ProjectGraph.ofRecords shuffled).nodes = (ProjectGraph.ofRecords shuffled.reverse).nodes ∧
    ∀ e, (ProjectGraph.ofRecords shuffled).sites.find? e =
      (ProjectGraph.ofRecords shuffled.reverse).sites.find? e := by
  have hp : shuffled.Perm shuffled.reverse := (List.reverse_perm _).symm
  have hsame : ∀ s a b, (s, a) ∈ Record.definitions shuffled →
    (s, b) ∈ Record.definitions shuffled →
      a.location = b.location → a = b := by
    intro s a b ha hb hplace
    rw [definitions_shuffled] at ha hb
    simp only [List.mem_cons, Prod.mk.injEq, List.not_mem_nil, or_false] at ha hb
    rcases ha with ⟨-, rfl⟩ | ⟨-, rfl⟩ | ⟨-, rfl⟩ <;>
      rcases hb with ⟨-, rfl⟩ | ⟨-, rfl⟩ | ⟨-, rfl⟩ <;>
      simp_all [Meta.location]
  obtain ⟨⟨-, -, hnodes⟩, -, -, hsites⟩ := ofRecords_perm hp hsame
  exact ⟨hp, hsame, hnodes fun _ _ h => h, hsites⟩

end Deadwood
