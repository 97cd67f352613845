import Deadwood.Proofs.Build

/-!
# What a call graph holds

A graph keeps its edges in three ways: by the places of their calls, by caller and by callee.
Together with its nodes it holds exactly what the objects state that it was built from, and nothing
of the malformed ones.

* `LooseSymbol.symbol?_eq_some_iff`, `Object.definition?_record`, `Object.call?_record`: which
  objects state something.
* `Links.Proper`: for every key something is listed, each symbol once. This is kept by every call
  that is added (`proper_foldl_addEdge`).
* `CallGraph.Occurs`: a symbol stands somewhere in a graph.
* `ofObjects_exact`: the graph of objects in full.
-/

namespace Deadwood

/-! ## What objects state -/

/-- A symbol as one whose parts might be anything. -/
def Symbol.loose (s : Symbol) : LooseSymbol := ⟨.str s.scope, .str s.name, .int s.arity⟩

theorem LooseSymbol.symbol?_eq_some_iff {l : LooseSymbol} {s : Symbol} :
    l.symbol? = some s ↔ l = s.loose := by
  constructor
  · intro h
    unfold symbol? at h
    split at h
    · cases h
      rfl
    · cases h
  · rintro rfl
    rfl

theorem Record.valid?_eq_some_iff {o : Option Symbol} {s : Symbol} :
    valid? o = some s ↔ o = some s ∧ s.Valid := by
  simp [valid?, Option.filter_eq_some_iff]

theorem Record.valid?_symbol?_iff {l : Option LooseSymbol} {s : Symbol} :
    valid? (l.bind LooseSymbol.symbol?) = some s ↔ l = some s.loose ∧ s.Valid := by
  simp [valid?_eq_some_iff, Option.bind_eq_some_iff, LooseSymbol.symbol?_eq_some_iff]

namespace Object

variable {M L : Type}

/-- A definition states what it should if its symbol is valid and it has a description. -/
theorem definition?_record {o : Object M L} {s : Symbol} {info : M} :
    o.record.definition? = some (s, info) ↔
      o = .definition (some s.loose) (some info) ∧ s.Valid := by
  cases o with
  | definition symbol meta? =>
    simp only [record, Record.definition?, Option.bind_eq_bind, Option.bind_eq_some_iff,
      Option.pure_def,
      Option.some.injEq, Prod.mk.injEq, Record.valid?_symbol?_iff, Object.definition.injEq]
    constructor
    · rintro ⟨s, ⟨hs, hvalid⟩, info, hinfo, rfl, rfl⟩
      exact ⟨⟨hs, hinfo⟩, hvalid⟩
    · rintro ⟨⟨hs, hinfo⟩, hvalid⟩
      exact ⟨s, ⟨hs, hvalid⟩, info, hinfo, rfl, rfl⟩
  | call caller callee site => simp [record, Record.definition?]
  | other => simp [record, Record.definition?]

/-- A call states what it should if both of its symbols are valid; its place may be missing. -/
theorem call?_record {o : Object M L} {nowhere : L} {a b : Symbol} {l : L} :
    o.record.call? nowhere = some ((a, b), l) ↔
      ∃ site, o = .call (some a.loose) (some b.loose) site ∧ a.Valid ∧ b.Valid ∧
        site.getD nowhere = l := by
  cases o with
  | call caller callee site =>
    simp only [record, Record.call?, Option.bind_eq_bind, Option.bind_eq_some_iff, Option.pure_def,
      Option.some.injEq, Prod.mk.injEq, Record.valid?_symbol?_iff, Object.call.injEq]
    constructor
    · rintro ⟨a, ⟨ha, hva⟩, b, ⟨hb, hvb⟩, ⟨rfl, rfl⟩, hl⟩
      exact ⟨site, ⟨ha, hb, rfl⟩, hva, hvb, hl⟩
    · rintro ⟨_, ⟨ha, hb, rfl⟩, hva, hvb, hl⟩
      exact ⟨a, ⟨ha, hva⟩, b, ⟨hb, hvb⟩, ⟨rfl, rfl⟩, hl⟩
  | definition symbol info => simp [record, Record.call?]
  | other => simp [record, Record.call?]

/-- The objects have a call from `a` to `b`, two valid symbols. -/
def Calls (os : List (Object M L)) (a b : Symbol) : Prop :=
  a.Valid ∧ b.Valid ∧ ∃ site, .call (some a.loose) (some b.loose) site ∈ os

theorem mem_filterMap_definition?_iff {os : List (Object M L)} {s : Symbol} {info : M} :
    (s, info) ∈ (os.map record).filterMap Record.definition? ↔
      s.Valid ∧ .definition (some s.loose) (some info) ∈ os := by
  simp only [List.mem_filterMap, List.mem_map, exists_exists_and_eq_and, definition?_record]
  constructor
  · rintro ⟨o, ho, rfl, hvalid⟩
    exact ⟨hvalid, ho⟩
  · rintro ⟨hvalid, ho⟩
    exact ⟨_, ho, rfl, hvalid⟩

theorem mem_filterMap_call?_iff {os : List (Object M L)} {nowhere : L} {a b : Symbol} {l : L} :
    ((a, b), l) ∈ (os.map record).filterMap (Record.call? nowhere) ↔
      a.Valid ∧ b.Valid ∧ ∃ site, .call (some a.loose) (some b.loose) site ∈ os ∧
        site.getD nowhere = l := by
  simp only [List.mem_filterMap, List.mem_map, exists_exists_and_eq_and, call?_record]
  constructor
  · rintro ⟨o, ho, site, rfl, ha, hb, hl⟩
    exact ⟨ha, hb, site, ho, hl⟩
  · rintro ⟨ha, hb, site, ho, hl⟩
    exact ⟨_, ho, site, rfl, ha, hb, hl⟩

variable {os : List (Object Meta Location)}

theorem mem_definitions_iff {s : Symbol} {info : Meta} :
    (s, info) ∈ Record.definitions (os.map record) ↔
    s.Valid ∧ .definition (some s.loose) (some info) ∈ os :=
  mem_filterMap_definition?_iff

theorem mem_calls_iff {a b : Symbol} {l : Location} : ((a, b), l) ∈ Record.calls (os.map record) ↔
    a.Valid ∧ b.Valid ∧ ∃ site, .call (some a.loose) (some b.loose) site ∈ os ∧ site.getD {} = l :=
  mem_filterMap_call?_iff

theorem exists_call_iff {a b : Symbol} :
    (∃ l, ((a, b), l) ∈ Record.calls (os.map record)) ↔ Calls os a b := by
  simp only [mem_calls_iff, Calls]
  constructor
  · rintro ⟨_, ha, hb, site, ho, -⟩
    exact ⟨ha, hb, site, ho⟩
  · rintro ⟨ha, hb, site, ho⟩
    exact ⟨_, ha, hb, site, ho, rfl⟩

end Object

/-! ## Links -/

/-- For every key something is listed, each symbol once. -/
structure Links.Proper (t : Links) : Prop where
  nodup : t.keys.Nodup
  listed : ∀ {s xs}, t.find? s = some xs → xs ≠ [] ∧ xs.Nodup

namespace Links.Proper

variable {t : Links}

theorem empty : Links.Proper ∅ where
  nodup := List.nodup_nil
  listed h := by cases h

theorem link (h : t.Proper) (a b : Symbol) : (t.link a b).Proper where
  nodup := Table.nodup_keys_update h.nodup _ _
  listed {s xs} hs := by
    rw [Links.link, Table.find?_update] at hs
    split at hs
    · cases hs
      have hold : ((t.find? a).getD []).Nodup := by
        cases hfind : t.find? a with
        | none => exact List.nodup_nil
        | some xs => exact (h.listed hfind).2
      dsimp only
      split
      · rename_i hb
        exact ⟨List.ne_nil_of_mem hb, hold⟩
      · rename_i hb
        exact ⟨by simp, hold.append (List.nodup_singleton b) (List.disjoint_singleton.2 hb)⟩
    · exact h.listed hs

theorem nodup_of (h : t.Proper) (s : Symbol) : (t.of s).Nodup := by
  rw [of, Table.findD]
  cases hfind : t.find? s with
  | none => exact List.nodup_nil
  | some xs => exact (h.listed hfind).2

theorem mem_keys_iff (h : t.Proper) {s : Symbol} : s ∈ t.keys ↔ ∃ c, c ∈ t.of s := by
  rw [Table.mem_keys_iff_find?, of, Table.findD]
  cases hfind : t.find? s with
  | none => simp
  | some xs => simpa using List.exists_mem_of_ne_nil xs (h.listed hfind).1

end Links.Proper

namespace CallGraph

variable {M L : Type} {g : CallGraph M L}

/-- A call more keeps both sides of the edges proper. -/
theorem proper_addEdge (same : L → L → Bool) (hs : g.succ.Proper) (hp : g.pred.Proper)
    (c : (Symbol × Symbol) × L) :
    (addEdge same g c).succ.Proper ∧ (addEdge same g c).pred.Proper := by
  unfold addEdge
  split
  · exact ⟨hs, hp⟩
  · exact ⟨hs.link _ _, hp.link _ _⟩

theorem proper_foldl_addEdge (same : L → L → Bool) (cs : List ((Symbol × Symbol) × L))
    (hs : g.succ.Proper) (hp : g.pred.Proper) : (cs.foldl (addEdge same) g).succ.Proper ∧
      (cs.foldl (addEdge same) g).pred.Proper := by
  induction cs generalizing g with
  | nil => exact ⟨hs, hp⟩
  | cons c rest ih =>
    obtain ⟨hs', hp'⟩ := proper_addEdge same hs hp c
    exact ih hs' hp'

theorem proper_ofRecords (rs : List (Record Meta Location)) :
    (ProjectGraph.ofRecords rs).succ.Proper ∧ (ProjectGraph.ofRecords rs).pred.Proper :=
  proper_foldl_addEdge _ _ .empty .empty

/-- The symbol stands somewhere in the graph: it is a node or an end of an edge, in any of the ways
in which edges are kept. -/
def Occurs (g : CallGraph M L) (s : Symbol) : Prop :=
  s ∈ g.nodes.keys ∨ (∃ e ∈ g.sites.keys, s = e.1 ∨ s = e.2) ∨
    (s ∈ g.succ.keys ∨ ∃ t, s ∈ g.succ.of t) ∨ s ∈ g.pred.keys ∨ ∃ t, s ∈ g.pred.of t

/-- What occurs in a graph with proper links is a node or an end of an edge. -/
theorem Occurs.node_or_edge {s : Symbol} (h : g.Occurs s) (hs : g.succ.Proper)
    (hp : g.pred.Proper) :
    s ∈ g.nodes.keys ∨ ∃ a b, (a, b) ∈ g.sites.keys ∧ (s = a ∨ s = b) := by
  rcases h with h | ⟨⟨a, b⟩, he, h⟩ | (h | ⟨t, h⟩) | h | ⟨t, h⟩
  · exact .inl h
  · exact .inr ⟨a, b, he, h⟩
  · obtain ⟨b, hb⟩ := hs.mem_keys_iff.1 h
    exact .inr ⟨s, b, (g.mem_succ_iff s b).1 hb, .inl rfl⟩
  · exact .inr ⟨t, s, (g.mem_succ_iff t s).1 h, .inr rfl⟩
  · obtain ⟨a, ha⟩ := hp.mem_keys_iff.1 h
    exact .inr ⟨a, s, (g.mem_pred_iff a s).1 ha, .inr rfl⟩
  · exact .inr ⟨s, t, (g.mem_pred_iff s t).1 h, .inl rfl⟩

end CallGraph

/-! ## The graph of objects -/

/-- The call graph of objects whose places are proper ones. -/
def ProjectGraph.ofObjects (os : List (Object Meta Location)) : ProjectGraph :=
  Id.run (CallGraph.ofObjects .proper os)

open CallGraph Object in
/-- **What a call graph holds.** For any objects whose places are proper ones, `b` is listed for the
caller `a`, `a` is listed for the callee `b`, and the pair has places, each if and only if the
objects have a call from `a` to `b`. Its places are ascending, hence in order and without
repetition, there is one, and they are those of exactly these calls, where a place that is none
counts as line 0 of no file. The nodes are the symbols of the definitions, each described by one at
the earliest place. No symbol that is not valid occurs anywhere. -/
theorem ofObjects_exact (os : List (Object Meta Location)) :
    let g := ProjectGraph.ofObjects os
    (∀ a b, (b ∈ g.succ.of a ↔ Calls os a b) ∧ (a ∈ g.pred.of b ↔ Calls os a b) ∧
      ((a, b) ∈ g.sites.keys ↔ Calls os a b)) ∧
    (∀ s, (g.succ.of s).Nodup ∧ (g.pred.of s).Nodup) ∧
    (∀ a b places, g.sites.find? (a, b) = some places → places ≠ [] ∧
      Ascending Location.cmp places ∧
      ∀ l, l ∈ places ↔
        ∃ site, .call (some a.loose) (some b.loose) site ∈ os ∧ site.getD ⟨"", 0⟩ = l) ∧
    (∀ s, s ∈ g.nodes.keys ↔ s.Valid ∧ ∃ info, .definition (some s.loose) (some info) ∈ os) ∧
    (∀ s info, g.nodes.find? s = some info → .definition (some s.loose) (some info) ∈ os ∧
      ∀ other, .definition (some s.loose) (some other) ∈ os →
        info.location.le other.location = true) ∧
    ∀ s, g.Occurs s → s.Valid := by
  intro g
  have hg : Represents (os.map record) g := represents_ofRecords _
  obtain ⟨hsucc, hpred⟩ : g.succ.Proper ∧ g.pred.Proper := proper_ofRecords _
  have hedge : ∀ a b, (a, b) ∈ g.sites.keys ↔ Calls os a b :=
    fun a b => hg.mem_edges_iff.trans exists_call_iff
  have hnode : ∀ s, s ∈ g.nodes.keys ↔ s.Valid ∧
      ∃ info, .definition (some s.loose) (some info) ∈ os := by
    intro s
    simp only [hg.mem_keys_iff, mem_definitions_iff, exists_and_left]
  refine ⟨fun a b =>
    ⟨(g.mem_succ_iff a b).trans (hedge a b), (g.mem_pred_iff a b).trans (hedge a b), hedge a b⟩,
    fun s => ⟨hsucc.nodup_of s, hpred.nodup_of s⟩, fun a b places hplaces =>
      ?_, hnode, fun s info hinfo => ?_,
    fun s hs => ?_⟩
  · obtain ⟨ha, hb, site, hsite⟩ := (hedge a b).1 (Table.mem_keys_iff_find?.2 ⟨places, hplaces⟩)
    have hmem : ∀ l, l ∈ places ↔ ∃ site, .call (some a.loose) (some b.loose) site ∈ os ∧
        site.getD {} = l := by
      intro l
      rw [(hg.calls.places hplaces).2, mem_calls_iff, and_iff_right ha, and_iff_right hb]
    exact ⟨List.ne_nil_of_mem ((hmem _).2 ⟨site, hsite, rfl⟩), hg.places_ascending hplaces, hmem⟩
  · obtain ⟨hmem, hearliest⟩ := hg.definitions.earliest hinfo
    obtain ⟨hvalid, hdefinition⟩ := mem_definitions_iff.1 hmem
    exact ⟨hdefinition, fun other hother =>
      hearliest other (mem_definitions_iff.2 ⟨hvalid, hother⟩)⟩
  · rcases hs.node_or_edge hsucc hpred with hs | ⟨a, b, he, rfl | rfl⟩
    · exact ((hnode s).1 hs).1
    · exact ((hedge _ _).1 he).1
    · exact ((hedge _ _).1 he).2.1

end Deadwood
