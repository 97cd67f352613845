import Mathlib.Algebra.GroupWithZero.Nat
import Mathlib.Data.String.Basic
import Deadwood.Proofs.Documentation
import Deadwood.Proofs.Store

/-!
# Collecting with several workers

The sources of a project are collected by a pool of workers. A free worker begins the next source,
reads and collects it on its own, and then puts what it has into the shared store, step by step. The
outcomes are taken in any order in which the workers come to an end.

* `Pool.Step`: what may happen next. Every step brings a run nearer to its end (`Step.pending_lt`),
  and a run that is not at its end can go on (`Invariant.exists_step`).
* `Pool.Invariant`: each source has one place, and the store has of its unit what its worker has put
  there so far. A step keeps it (`Invariant.step`), so it holds of every run (`Invariant.run`).
* `Pool.Agrees`: what a pool ends with, said without its steps.
-/

namespace Deadwood.Project

open Collect (UnitFacts Failure)
open Store (Action Cell)

/-! ## Outcomes -/

namespace Collected

/-- What the worker of a source does to the store. -/
def actions : Collected → List Action
  | .reused u | .fresh u => [.extend u.unit u.facts, .mark u.unit u.digest u.module]
  | .failed _ _ => []

/-- What the store has of a source in the end. -/
def cell (o : Collected) : Cell := o.facts?.elim {} fun u => ⟨some u.facts, u.digest, u.module⟩

theorem unit_of_mem_actions {o : Collected} {a : Action} (h : a ∈ o.actions) : a.unit = o.unit := by
  cases o with
  | failed unit reason => cases h
  | _ u =>
    simp only [actions, List.mem_cons, List.not_mem_nil, or_false] at h
    rcases h with rfl | rfl <;> rfl

theorem foldl_actions (o : Collected) : o.actions.foldl Cell.perform {} = o.cell := by
  cases o with
  | failed unit reason => rfl
  | _ u =>
    by_cases hd : u.digest = "" <;> by_cases hm : u.module = "" <;>
      simp [actions, cell, facts?, Cell.perform, hd, hm]

theorem unit_of_facts? {o : Collected} {u : UnitFacts} (h : o.facts? = some u) :
    u.unit = o.unit := by
  cases o with
  | failed unit reason => cases h
  | _ v =>
    cases h
    rfl

end Collected

namespace Collection

/-- The units that were collected anew, in order. -/
def collected (c : Collection) : List String :=
  (c.filterMap Collected.fresh?).mergeSort fun a b => a ≤ b

/-- The units whose facts were reused, in order. -/
def reused (c : Collection) : List String :=
  (c.filterMap Collected.reused?).mergeSort fun a b => a ≤ b

/-- Why a unit failed. -/
def reasons (c : Collection) : Table String Failure := .ofList c.failed

variable {c c' : Collection}

theorem find?_facts_of_not_mem {unit : String} (h : unit ∉ c.map Collected.unit) :
    c.facts.find? (fun u => u.unit = unit) = none := by
  rw [List.find?_eq_none]
  intro u hu heq
  obtain ⟨o, ho, hfacts⟩ := List.mem_filterMap.1 hu
  refine h (List.mem_map.2 ⟨o, ho, ?_⟩)
  rw [← Collected.unit_of_facts? hfacts]
  exact of_decide_eq_true heq

/-- If units are distinct, the facts of a unit are those of its source. -/
theorem find?_facts (hn : (c.map Collected.unit).Nodup) {o : Collected} (ho : o ∈ c) :
    c.facts.find? (fun u => u.unit = o.unit) = o.facts? := by
  induction c with
  | nil => cases ho
  | cons x rest ih =>
    obtain ⟨hx, hrest⟩ := List.nodup_cons.1 hn
    rw [facts, List.filterMap_cons]
    rcases List.mem_cons.1 ho with rfl | ho
    · cases hfacts : o.facts? with
      | none => exact find?_facts_of_not_mem hx
      | some u => exact List.find?_cons_of_pos (decide_eq_true (Collected.unit_of_facts? hfacts))
    · have hne : x.unit ≠ o.unit := fun heq => hx (heq ▸ List.mem_map_of_mem ho)
      cases hfacts : x.facts? with
      | none => exact ih hrest ho
      | some u =>
        have hunit : u.unit ≠ o.unit := Collected.unit_of_facts? hfacts ▸ hne
        rw [List.find?_cons_of_neg (by simpa using hunit)]
        exact ih hrest ho

theorem find?_facts_self (hn : (c.map Collected.unit).Nodup) {u : UnitFacts} (hu : u ∈ c.facts) :
    c.facts.find? (fun v => v.unit = u.unit) = some u := by
  obtain ⟨o, ho, hfacts⟩ := List.mem_filterMap.1 hu
  rw [Collected.unit_of_facts? hfacts, find?_facts hn ho, hfacts]

theorem nodup_facts (hn : (c.map Collected.unit).Nodup) : (c.facts.map (·.unit)).Nodup := by
  refine hn.sublist ?_
  rw [facts, List.map_filterMap]
  clear hn
  induction c with
  | nil => exact List.Sublist.slnil
  | cons o rest ih =>
    cases hfacts : o.facts? with
    | none =>
      rw [List.filterMap_cons_none (by rw [hfacts, Option.map_none])]
      exact ih.cons _
    | some u =>
      rw [List.filterMap_cons_some (by rw [hfacts, Option.map_some]),
        Collected.unit_of_facts? hfacts]
      exact ih.cons_cons _

section Tables

variable {α : Type} (hn : (c.map Collected.unit).Nodup) (f : UnitFacts → α)

include hn

theorem ofList_facts : Table.ofList (c.facts.map fun u => (u.unit, f u)) =
      ⟨c.facts.map fun u => (u.unit, f u)⟩ := by
  refine Table.ofList_of_nodup ?_
  rw [List.map_map]
  exact nodup_facts hn

theorem keys_ofList_facts : (Table.ofList (c.facts.map fun u => (u.unit, f u))).keys =
      c.facts.map (·.unit) := by
  rw [ofList_facts hn, Table.keys, List.map_map]
  rfl

/-- A table of what was collected has, of a unit, what its facts give. -/
theorem find?_ofList_facts (unit : String) :
    (Table.ofList (c.facts.map fun u => (u.unit, f u))).find? unit =
    (c.facts.find? fun u => u.unit = unit).map f := by
  rw [ofList_facts hn, Table.find?, List.find?_map, Option.map_map]
  rfl

end Tables

theorem pairwise_sort (units : List String) :
    (units.mergeSort fun a b => a ≤ b).Pairwise (· ≤ ·) := by
  have hsorted := @List.pairwise_mergeSort _ (fun a b : String => decide (a ≤ b))
    (by simpa using fun a b c => le_trans) (by simpa using le_total) units
  exact hsorted.imp of_decide_eq_true

theorem sort_of_perm {units units' : List String} (h : units.Perm units') :
    (units.mergeSort fun a b => a ≤ b) = units'.mergeSort fun a b => a ≤ b := by
  refine List.Perm.eq_of_pairwise (fun a b _ _ => le_antisymm) (pairwise_sort _)
    (pairwise_sort _) ?_
  exact (List.mergeSort_perm _ _).trans (h.trans (List.mergeSort_perm _ _).symm)

theorem keys_reasons (hn : (c.map Collected.unit).Nodup) : c.reasons.keys = c.failed.map (·.1) := by
  have hnodup := (perm_map_unit c).nodup_iff.2 hn
  rw [reasons, Table.ofList_of_nodup (List.nodup_append.1 hnodup).2.1]
  rfl

/-- Why units failed does not depend on the order of the sources. -/
theorem find?_reasons_of_perm (h : c.Perm c') (hn : (c.map Collected.unit).Nodup) (unit : String) :
    c.reasons.find? unit = c'.reasons.find? unit := by
  have hn' : (c'.map Collected.unit).Nodup := (h.map _).nodup_iff.1 hn
  have hfailed := (List.nodup_append.1 ((perm_map_unit c).nodup_iff.2 hn)).2.1
  have hfailed' := (List.nodup_append.1 ((perm_map_unit c').nodup_iff.2 hn')).2.1
  rw [reasons, reasons, Table.ofList_of_nodup hfailed, Table.ofList_of_nodup hfailed']
  exact Table.find?_of_perm (h.filterMap _) hfailed unit

theorem perm_units (hn : (c.map Collected.unit).Nodup) :
    (c.collected ++ c.reused ++ c.reasons.keys).Perm (c.map Collected.unit) := by
  rw [keys_reasons hn]
  refine List.Perm.trans (.append_right _ (.append ?_ ?_)) (perm_map_unit c)
  · exact List.mergeSort_perm _ _
  · exact List.mergeSort_perm _ _

end Collection

/-! ## The pool -/

/-- A source that was begun. -/
structure Task where
  outcome : Collected
  /-- What is left to do to the store. -/
  rest : List Action

/-- What is left to do for a source leads to what the store has of it in the end. -/
structure Task.Due (store : Store) (t : Task) : Prop where
  own : ∀ a ∈ t.rest, a.unit = t.outcome.unit
  cell : t.rest.foldl Cell.perform (store.cell t.outcome.unit) = t.outcome.cell

namespace Task.Due

variable {store : Store} {o : Collected} {a : Action} {rest : List Action}

theorem perform (h : Due store ⟨o, a :: rest⟩) : Due (store.perform a) ⟨o, rest⟩ where
  own b hb := h.own b (List.mem_cons_of_mem a hb)
  cell := by
    have hunit : o.unit = a.unit := (h.own a List.mem_cons_self).symm
    rw [Store.cell_perform, if_pos hunit]
    exact h.cell

theorem of_other {t : Task} (h : Due store t) (hne : t.outcome.unit ≠ a.unit) :
    Due (store.perform a) t where
  own := h.own
  cell := by
    rw [Store.cell_perform, if_neg hne]
    exact h.cell

end Task.Due

/-- How far the workers have come. -/
structure Pool where
  /-- The sources that no worker has begun. -/
  waiting : List SourceText
  /-- The sources that the workers are busy with. -/
  running : List Task := []
  /-- The outcomes of workers that came to an end. -/
  finished : Collection := []
  /-- The outcomes that were taken, in this order. -/
  taken : Collection := []
  store : Store := {}

namespace Pool

variable (statements : List UInt8 → Except Source.Fault (List Source.Stmt))

/-- What may happen next, with `width` workers. An outcome that ends the run is never taken. -/
inductive Step (previous : Manifest) (width : Nat) : Pool → Pool → Prop
  | start {s waiting running finished taken store} (h : running.length < width) :
    Step previous width ⟨s :: waiting, running, finished, taken, store⟩
      ⟨waiting, ⟨collectOne statements previous s, (collectOne statements previous s).actions⟩ ::
        running, finished, taken, store⟩
  | act {waiting before o a rest after finished taken store} :
    Step previous width ⟨waiting, before ++ ⟨o, a :: rest⟩ :: after, finished, taken, store⟩
      ⟨waiting, before ++ ⟨o, rest⟩ :: after, finished, taken, store.perform a⟩
  | finish {waiting before o after finished taken store} :
    Step previous width ⟨waiting, before ++ ⟨o, []⟩ :: after, finished, taken, store⟩
      ⟨waiting, before ++ after, o :: finished, taken, store⟩
  | take {waiting running before o after taken store} (h : o.isBlank = false) :
    Step previous width ⟨waiting, running, before ++ o :: after, taken, store⟩
      ⟨waiting, running, before ++ after, taken ++ [o], store⟩

/-- Some steps, one after the other. -/
def Run (previous : Manifest) (width : Nat) : Pool → Pool → Prop :=
  Relation.ReflTransGen (Step statements previous width)

/-- All sources were begun, all workers came to an end, and all outcomes were taken. -/
def Final (p : Pool) : Prop := p.waiting = [] ∧ p.running = [] ∧ p.finished = []

variable {statements} {previous : Manifest} {width : Nat} {p q : Pool} {sources : List SourceText}
    {c : Collection}

/-! ### The end of a run -/

variable (statements) in
/-- The number of steps that are left. -/
def pending (previous : Manifest) (p : Pool) : Nat :=
  (p.waiting.map fun s => (collectOne statements previous s).actions.length + 3).sum +
    (p.running.map fun t => t.rest.length + 2).sum + p.finished.length

theorem Step.pending_lt (h : Step statements previous width p q) :
    q.pending statements previous < p.pending statements previous := by
  cases h <;> simp [pending] <;> omega

variable (statements) in
theorem wellFounded_step (previous : Manifest) (width : Nat) :
    WellFounded fun q p : Pool => Step statements previous width p q :=
  Subrelation.wf (fun h => Step.pending_lt h) (measure (pending statements previous)).wf

/-! ### What a run keeps -/

/-- The sources that were begun; nothing is left to do for those whose workers came to an end. -/
def tasks (p : Pool) : List Task := p.running ++ (p.finished ++ p.taken).map fun o => ⟨o, []⟩

variable (statements) in
/-- Each source has one place, and the store has what the workers have put there so far. -/
structure Invariant (previous : Manifest) (sources : List SourceText) (p : Pool) : Prop where
  places : (p.tasks.map Task.outcome ++ p.waiting.map (collectOne statements previous)).Perm
    (sources.map (collectOne statements previous))
  due : ∀ t ∈ p.tasks, t.Due p.store
  others : ∀ unit ∉ p.tasks.map (·.outcome.unit), p.store.cell unit = {}
  nodup : p.store.units.Nodup

variable (statements) in
theorem map_unit_collectOne (previous : Manifest) (sources : List SourceText) :
    (sources.map (collectOne statements previous)).map Collected.unit =
      sources.map (·.source.unit) := by
  rw [List.map_map]
  exact List.map_congr_left fun s _ => (collectOne_cases statements previous s).1

namespace Invariant

variable (statements) in
theorem initial (previous : Manifest) (sources : List SourceText) :
    Invariant statements previous sources { waiting := sources } where
  places := .refl _
  due t ht := by cases ht
  others _ _ := rfl
  nodup := List.nodup_nil

/-- No two sources have the same unit. -/
theorem nodup_units (hp : Invariant statements previous sources p)
    (hs : (sources.map (·.source.unit)).Nodup) :
    (p.tasks.map (·.outcome.unit) ++ p.waiting.map (·.source.unit)).Nodup := by
  have hplaces := hp.places.map Collected.unit
  rw [List.map_append, map_unit_collectOne, map_unit_collectOne, List.map_map] at hplaces
  exact hplaces.nodup_iff.2 hs

/-- It does not matter how far the sources that were begun have come, as long as their tasks are the
same. -/
theorem of_perm (hp : Invariant statements previous sources p) (htasks : p.tasks.Perm q.tasks)
    (hwaiting : q.waiting = p.waiting) (hstore : q.store = p.store) :
    Invariant statements previous sources q where
  places := by
    rw [hwaiting]
    exact ((htasks.map _).symm.append_right _).trans hp.places
  due t ht := hstore ▸ hp.due t (htasks.mem_iff.2 ht)
  others unit hunit := by
    rw [hstore]
    exact hp.others unit fun hmem => hunit ((htasks.map _).mem_iff.1 hmem)
  nodup := hstore ▸ hp.nodup

/-- Nothing is in the store of a source that is begun. -/
theorem start {s waiting running finished taken store}
    (hp : Invariant statements previous sources ⟨s :: waiting, running, finished, taken, store⟩)
    (hs : (sources.map (·.source.unit)).Nodup) :
    Invariant statements previous sources
      ⟨waiting, ⟨collectOne statements previous s, (collectOne statements previous s).actions⟩ ::
        running, finished, taken, store⟩ := by
  have hunit : (collectOne statements previous s).unit = s.source.unit :=
    (collectOne_cases statements previous s).1
  have hempty : store.cell (collectOne statements previous s).unit = {} := by
    refine hp.others _ fun hmem => ?_
    exact (List.nodup_append.1 (hp.nodup_units hs)).2.2 _ hmem _ (by simp) hunit
  constructor
  · exact List.perm_middle.symm.trans hp.places
  · intro t ht
    rcases List.mem_cons.1 ht with rfl | ht
    · refine ⟨fun a ha => Collected.unit_of_mem_actions ha, ?_⟩
      rw [hempty]
      exact Collected.foldl_actions _
    · exact hp.due t ht
  · exact fun unit hmem => hp.others unit fun hold => hmem (List.mem_cons_of_mem _ hold)
  · exact hp.nodup

/-- A worker changes what the store has of its own source only. -/
theorem act {waiting o a rest running finished taken store}
    (hp : Invariant statements previous sources
      ⟨waiting, ⟨o, a :: rest⟩ :: running, finished, taken, store⟩)
    (hs : (sources.map (·.source.unit)).Nodup) :
    Invariant statements previous sources
      ⟨waiting, ⟨o, rest⟩ :: running, finished, taken, store.perform a⟩ := by
  have hdue : Task.Due store ⟨o, a :: rest⟩ := hp.due _ List.mem_cons_self
  have hunit : a.unit = o.unit := hdue.own a List.mem_cons_self
  have hnodup := (List.nodup_append.1 (hp.nodup_units hs)).1
  constructor
  · exact hp.places
  · intro t ht
    rcases List.mem_cons.1 ht with rfl | ht
    · exact hdue.perform
    · refine (hp.due t (List.mem_cons_of_mem _ ht)).of_other fun heq => ?_
      exact (List.nodup_cons.1 hnodup).1 (List.mem_map.2 ⟨t, ht, heq.trans hunit⟩)
  · intro unit hmem
    have hne : unit ≠ a.unit := fun heq => hmem (List.mem_cons.2 (.inl (heq.trans hunit)))
    rw [Store.cell_perform, if_neg hne]
    exact hp.others unit hmem
  · exact Store.nodup_units_perform hp.nodup a

theorem step (hp : Invariant statements previous sources p)
    (hs : (sources.map (·.source.unit)).Nodup) (h : Step statements previous width p q) :
    Invariant statements previous sources q := by
  cases h with
  | start _ => exact hp.start hs
  | @act waiting before o a rest after finished taken store =>
    -- the task may as well be the first one
    have hfirst : Invariant statements previous sources
        ⟨waiting, ⟨o, a :: rest⟩ :: (before ++ after), finished, taken, store⟩ :=
      hp.of_perm (List.perm_middle.append_right _) rfl rfl
    exact (hfirst.act hs).of_perm (List.perm_middle.symm.append_right _) rfl rfl
  | finish =>
    exact hp.of_perm ((List.perm_middle.append_right _).trans List.perm_middle.symm) rfl rfl
  | @take waiting running before o after taken store _ =>
    refine hp.of_perm ((List.Perm.map _ ?_).append_left running) rfl rfl
    calc (before ++ o :: after ++ taken).Perm (o :: (before ++ after ++ taken)) :=
      List.perm_middle.append_right taken
      List.Perm _ (before ++ after ++ taken ++ [o]) := (List.perm_append_singleton o _).symm
      _ = before ++ after ++ (taken ++ [o]) := List.append_assoc _ _ _

/-- What every run keeps. -/
theorem run (hs : (sources.map (·.source.unit)).Nodup)
    (h : Run statements previous width { waiting := sources } p) :
    Invariant statements previous sources p := by
  induction h with
  | refl => exact initial statements previous sources
  | tail _ hstep ih => exact ih.step hs hstep

/-- A run that is not at its end can go on. -/
theorem exists_step (hp : Invariant statements previous sources p) (hwidth : 0 < width)
    (hblank : ∀ s ∈ sources, (collectOne statements previous s).isBlank = false) (hp' : ¬p.Final) :
    ∃ q, Step statements previous width p q := by
  obtain ⟨waiting, running, finished, taken, store⟩ := p
  rcases finished with _ | ⟨o, finished⟩
  · rcases running with _ | ⟨⟨o, _ | ⟨a, rest⟩⟩, running⟩
    · rcases waiting with _ | ⟨s, waiting⟩
      · exact absurd ⟨rfl, rfl, rfl⟩ hp'
      · exact ⟨_, .start hwidth⟩
    · exact ⟨_, @Step.finish _ _ _ _ [] _ _ _ _ _⟩
    · exact ⟨_, @Step.act _ _ _ _ [] _ _ _ _ _ _ _⟩
  · have ho : o ∈ sources.map (collectOne statements previous) :=
      hp.places.mem_iff.1 (by simp [tasks])
    obtain ⟨s, hs, rfl⟩ := List.mem_map.1 ho
    exact ⟨_, @Step.take _ _ _ _ _ [] _ _ _ _ (hblank s hs)⟩

/-- Every run can be brought to its end. -/
theorem exists_final (hp : Invariant statements previous sources p)
    (hs : (sources.map (·.source.unit)).Nodup) (hwidth : 0 < width)
    (hblank : ∀ s ∈ sources, (collectOne statements previous s).isBlank = false) :
    ∃ q, Run statements previous width p q ∧ q.Final := by
  induction p using (wellFounded_step statements previous width).induction with
  | _ p ih =>
    by_cases hfinal : p.Final
    · exact ⟨p, .refl, hfinal⟩
    · obtain ⟨next, hnext⟩ := hp.exists_step hwidth hblank hfinal
      obtain ⟨q, hrun, hq⟩ := ih next hnext (hp.step hs hnext)
      exact ⟨q, .head hnext hrun, hq⟩

end Invariant

/-! ### What a run ends with -/

/-- What a pool ends with, whatever the order of its steps. -/
structure Agrees (sources : List SourceText) (c : Collection) (p : Pool) : Prop where
  /-- The store has the units that did not fail. -/
  units : p.store.units.Perm (c.facts.map (·.unit))
  /-- Each of them has its own facts, digest and module. -/
  entries : ∀ u ∈ c.facts,
    p.store.factsOf u.unit = u.facts ∧ p.store.digest u.unit = u.digest ∧
      p.store.module u.unit = u.module
  /-- The facts by unit, and what a manifest keeps, are the same as if the sources came one after
  the other. -/
  facts : ∀ unit, p.store.facts.find? unit = c.units.find? unit
  manifest : ∀ unit, c.manifest.find? unit =
    (p.store.facts.find? unit).map fun facts => ⟨p.store.digest unit, p.store.module unit, facts⟩
  collected : p.taken.collected = c.collected
  reused : p.taken.reused = c.reused
  reasons : ∀ unit, p.taken.reasons.find? unit = c.reasons.find? unit
  sorted : p.taken.collected.Pairwise (· ≤ ·) ∧ p.taken.reused.Pairwise (· ≤ ·)
  /-- Every source was collected, was reused or failed, and no two of these at once. -/
  placed : (p.taken.collected ++ p.taken.reused ++ p.taken.reasons.keys).Perm
    (sources.map (·.source.unit))
  disjoint : (p.taken.collected ++ p.taken.reused ++ p.taken.reasons.keys).Nodup

theorem Invariant.taken_perm (hp : Invariant statements previous sources p) (hfinal : p.Final) :
    p.taken.Perm (sources.map (collectOne statements previous)) := by
  obtain ⟨waiting, running, finished, taken, store⟩ := p
  obtain ⟨rfl, rfl, rfl⟩ := hfinal
  simpa [tasks, Function.comp_def] using hp.places

/-- The store has of every unit what its source gave. -/
theorem Invariant.cell_eq (hp : Invariant statements previous sources p) (hfinal : p.Final)
    (hc : c = sources.map (collectOne statements previous)) (hn : (c.map Collected.unit).Nodup)
    (unit : String) :
    p.store.cell unit = (c.facts.find? fun u => u.unit = unit).elim {} fun u =>
      ⟨some u.facts, u.digest, u.module⟩ := by
  have htaken : p.taken.Perm c := hc ▸ hp.taken_perm hfinal
  obtain ⟨waiting, running, finished, taken, store⟩ := p
  obtain ⟨rfl, rfl, rfl⟩ := hfinal
  by_cases hunit : unit ∈ c.map Collected.unit
  · obtain ⟨o, ho, rfl⟩ := List.mem_map.1 hunit
    rw [Collection.find?_facts hn ho]
    exact (hp.due ⟨o, []⟩ (List.mem_map.2 ⟨o, htaken.mem_iff.2 ho, rfl⟩)).cell
  · rw [Collection.find?_facts_of_not_mem hunit]
    refine hp.others unit fun hmem => hunit ((htaken.map Collected.unit).mem_iff.1 ?_)
    simpa [tasks, Function.comp_def] using hmem

theorem Invariant.agrees (hp : Invariant statements previous sources p)
    (hs : (sources.map (·.source.unit)).Nodup) (hfinal : p.Final)
    (hc : c = sources.map (collectOne statements previous)) :
    p.Agrees sources c := by
  have hcUnits : c.map Collected.unit = sources.map (·.source.unit) :=
    hc ▸ map_unit_collectOne statements previous sources
  have hn : (c.map Collected.unit).Nodup := hcUnits ▸ hs
  have htaken : p.taken.Perm c := hc ▸ hp.taken_perm hfinal
  have hnTaken : (p.taken.map Collected.unit).Nodup := (htaken.map _).nodup_iff.2 hn
  have hplaced : (p.taken.collected ++ p.taken.reused ++ p.taken.reasons.keys).Perm
      (sources.map (·.source.unit)) :=
    (Collection.perm_units hnTaken).trans (hcUnits ▸ htaken.map _)
  have hcell := hp.cell_eq hfinal hc hn
  have hfacts : ∀ unit, p.store.facts.find? unit = c.units.find? unit := by
    intro unit
    have hown : p.store.facts.find? unit = (p.store.cell unit).facts := rfl
    rw [Collection.units, Collection.find?_ofList_facts hn (·.facts), hown, hcell]
    cases c.facts.find? _ <;> rfl
  constructor
  · have hkeys : c.units.keys = c.facts.map (·.unit) := Collection.keys_ofList_facts hn (·.facts)
    have hperm :=
      Table.perm_of_find? hp.nodup (hkeys ▸ Collection.nodup_facts hn) fun unit v => by rw [hfacts]
    exact hkeys ▸ hperm.map _
  · intro u hu
    have hown := hcell u.unit
    rw [Collection.find?_facts_self hn hu] at hown
    exact ⟨congrArg (fun cell : Cell => cell.facts.getD []) hown, congrArg Cell.digest hown,
      congrArg Cell.module hown⟩
  · exact hfacts
  · intro unit
    have hown : (p.store.facts.find? unit).map
      (fun facts => ⟨p.store.digest unit, p.store.module unit, facts⟩) =
        (p.store.cell unit).facts.map fun facts =>
          Manifest.Entry.mk (p.store.cell unit).digest (p.store.cell unit).module facts := rfl
    rw [Collection.manifest, Collection.find?_ofList_facts hn fun u =>
      Manifest.Entry.mk u.digest u.module u.facts,
      hown, hcell]
    cases c.facts.find? _ <;> rfl
  · exact Collection.sort_of_perm (htaken.filterMap _)
  · exact Collection.sort_of_perm (htaken.filterMap _)
  · exact Collection.find?_reasons_of_perm htaken hnTaken
  · exact ⟨Collection.pairwise_sort _, Collection.pairwise_sort _⟩
  · exact hplaced
  · exact hplaced.nodup_iff.2 hs

end Pool

/-- **Workers lose nothing.** With any number of workers, every run comes to an end, and whatever
the order of its steps it ends with what the sources give one after the other: the store has the
facts, digest and module of each unit that did not fail and of no other, and each unit was
collected, was reused or failed. Of any actions that come in any order on any store, the batches for
a unit are all there, whole and in the order of each client. -/
theorem collect_concurrently {statements : List UInt8 → Except Source.Fault (List Source.Stmt)}
    {previous : Manifest} {sources : List SourceText} {c : Collection}
    (hs : (sources.map (·.source.unit)).Nodup) (hc : collectAll statements previous sources = .ok c)
    (workers : Nat) :
    (WellFounded fun q p : Pool => Pool.Step statements previous (max 1 workers) p q) ∧
    (∀ p, Pool.Run statements previous (max 1 workers) { waiting := sources } p →
      (∃ q, Pool.Run statements previous (max 1 workers) p q ∧ q.Final) ∧
        (p.Final → p.Agrees sources c)) ∧
    ∀ (clients : List (List Action)) (trace : List Action), Interleaving clients trace →
      ∀ (store : Store) unit,
      (store.performAll trace).factsOf unit =
        store.factsOf unit ++ (Store.batchesFor unit trace).flatten ∧
      Interleaving (clients.map (Store.batchesFor unit)) (Store.batchesFor unit trace) ∧
      (Store.batchesFor unit trace).Perm (clients.flatMap (Store.batchesFor unit)) ∧
      ∀ client ∈ clients, (Store.batchesFor unit client).Sublist (Store.batchesFor unit trace) := by
  obtain ⟨hc, hends⟩ := collectAll_eq_ok_iff.1 hc
  have hblank : ∀ s ∈ sources, (collectOne statements previous s).isBlank = false := by
    intro s hs
    rw [Bool.eq_false_iff, Ne, (collectOne_cases statements previous s).2]
    exact hends s hs
  refine ⟨Pool.wellFounded_step statements previous _, fun p hrun => ?_,
    fun clients trace htrace store unit => ?_⟩
  · have hp := Pool.Invariant.run hs hrun
    exact ⟨hp.exists_final hs (by omega) hblank, fun hfinal => hp.agrees hs hfinal hc⟩
  · have hbatches := htrace.filterMap (Action.batchFor? unit)
    refine ⟨Store.factsOf_performAll store trace unit, hbatches, ?_, fun client hclient => ?_⟩
    · exact hbatches.perm_flatten
    · exact hbatches.sublist (List.mem_map_of_mem hclient)

/-- Two empty modules and a file that cannot be read. -/
def emptySources : List SourceText :=
  [⟨⟨"a.py", "a"⟩, .ok []⟩, ⟨⟨"b.py", "b"⟩, .ok []⟩,
    ⟨⟨"c.py", "c"⟩, .error ⟨.missing, .ofText "c.py"⟩⟩]

/-- A manifest that has a call in the first of them. -/
def emptyKept : Manifest :=
  ⟨[("a.py", ⟨digest [], "a", [.call ⟨"a", "f", 0⟩ ⟨"a", "g", 0⟩ ⟨"a.py", 1⟩]⟩)]⟩

/-- Two workers end with the call that was kept, and with all three sources. -/
theorem emptySources_collected :
    (emptySources.map (·.source.unit)).Nodup ∧
    ∃ c, collectAll Source.read emptyKept emptySources = .ok c ∧
      ∃ q, Pool.Run Source.read emptyKept (max 1 2) { waiting := emptySources } q ∧ q.Final ∧
        q.store.factsOf "a.py" = [.call ⟨"a", "f", 0⟩ ⟨"a", "g", 0⟩ ⟨"a.py", 1⟩] ∧
        (q.taken.collected ++ q.taken.reused ++ q.taken.reasons.keys).Perm
          ["a.py", "b.py", "c.py"] := by
  have hs : (emptySources.map (·.source.unit)).Nodup := by decide
  have hends : ∀ s ∈ emptySources, ¬EndsRun Source.read emptyKept s := by
    simp only [emptySources, List.forall_mem_cons, List.not_mem_nil, false_imp_iff,
      implies_true, and_true]
    refine ⟨?_, ?_, ?_⟩ <;> rintro ⟨content, hcontent, -, hblank⟩ <;> cases hcontent
    · exact not_hasBlank_nil hblank
    · exact not_hasBlank_nil hblank
  have hc := collectAll_eq_ok_iff.2 ⟨rfl, hends⟩
  obtain ⟨-, hruns, -⟩ := collect_concurrently hs hc 2
  obtain ⟨⟨q, hrun, hfinal⟩, -⟩ := hruns _ .refl
  have hq := (hruns q hrun).2 hfinal
  refine ⟨hs, _, hc, q, hrun, hfinal, ?_, hq.placed⟩
  have hkept : reusable? emptyKept ⟨"a.py", "a"⟩ [] =
      some ⟨digest [], "a", [.call ⟨"a", "f", 0⟩ ⟨"a", "g", 0⟩ ⟨"a.py", 1⟩]⟩ := by
    rw [reusable?, show emptyKept.find? "a.py" = some ⟨digest [], "a", _⟩ from rfl,
      Option.filter_some]
    simp
  have hfirst : collectOne Source.read emptyKept ⟨⟨"a.py", "a"⟩, .ok []⟩ =
      .reused ⟨"a.py", "a", digest [], [.call ⟨"a", "f", 0⟩ ⟨"a", "g", 0⟩ ⟨"a.py", 1⟩]⟩ := by
    simp only [collectOne, hkept]
  refine (hq.entries ⟨"a.py", "a", digest [], _⟩ ?_).1
  exact List.mem_filterMap.2 ⟨_, List.mem_map.2 ⟨_, List.mem_cons_self, hfirst⟩, rfl⟩

end Deadwood.Project
