import Mathlib.Data.List.Flatten
import Mathlib.Data.List.Perm.Basic
import Deadwood.Proofs.Table
import Deadwood.Store

/-!
# A shared store

Workers that collect units at the same time share one store. What a worker does to the store is a
list of actions; an action is one step, and the actions of the workers come in any order in which
those of each worker keep theirs.

* `Interleaving xss trace`: the lists `xss` in such an order. Nothing is lost or comes twice
  (`Interleaving.perm_flatten`).
* `Store.cell`: what the store has of one unit. An action changes the cell of its own unit alone
  (`cell_perform`).
* `factsOf_performAll`: the facts of a unit are the batches for it, one behind the other, and these
  are an interleaving of the batches that each worker has for the unit (`Interleaving.filterMap`).
-/

namespace Deadwood

/-! ## Interleavings -/

/-- The members of several lists in one order, in which those of each list keep theirs. -/
inductive Interleaving {α : Type} : List (List α) → List α → Prop
  | done {xss : List (List α)} (h : ∀ xs ∈ xss, xs = []) : Interleaving xss []
  | next {before after : List (List α)} {x : α} {xs trace : List α}
    (h : Interleaving (before ++ xs :: after) trace) :
    Interleaving (before ++ (x :: xs) :: after) (x :: trace)

namespace Interleaving

variable {α β : Type} {xss : List (List α)} {trace : List α}

/-- What is kept of every list comes in the order in which it is kept of the whole. -/
theorem filterMap (h : Interleaving xss trace) (f : α → Option β) :
    Interleaving (xss.map (List.filterMap f)) (trace.filterMap f) := by
  induction h with
  | done h =>
    refine .done fun ys hys => ?_
    obtain ⟨xs, hxs, rfl⟩ := List.mem_map.1 hys
    rw [h xs hxs, List.filterMap_nil]
  | @next before after x xs trace h ih =>
    simp only [List.map_append, List.map_cons] at ih ⊢
    cases hx : f x with
    | none =>
      rw [List.filterMap_cons_none hx, List.filterMap_cons_none hx]
      exact ih
    | some y =>
      rw [List.filterMap_cons_some hx, List.filterMap_cons_some hx]
      exact .next ih

theorem perm_flatten (h : Interleaving xss trace) : trace.Perm xss.flatten := by
  induction h with
  | done h => rw [List.flatten_eq_nil_iff.2 h]
  | @next before after x xs trace h ih =>
    rw [List.flatten_append, List.flatten_cons] at ih ⊢
    exact (ih.cons x).trans List.perm_middle.symm

theorem sublist (h : Interleaving xss trace) {xs : List α} (hxs : xs ∈ xss) : xs.Sublist trace := by
  induction h generalizing xs with
  | done h => rw [h xs hxs]
  | @next before after x ys trace h ih =>
    simp only [List.mem_append, List.mem_cons] at hxs ih
    rcases hxs with hxs | rfl | hxs
    · exact (ih (.inl hxs)).cons x
    · exact (ih (.inr (.inl rfl))).cons_cons x
    · exact (ih (.inr (.inr hxs))).cons x

end Interleaving

/-! ## Actions -/

namespace Store

/-- A step that a worker takes on the store. -/
inductive Action where
  | extend (unit : String) (batch : List Fact)
  | mark (unit digest module : String)

namespace Action

/-- The unit that an action is about. -/
def unit : Action → String
  | .extend unit _ | .mark unit _ _ => unit

/-- The batch that an action has for a unit. -/
def batchFor? (unit : String) : Action → Option (List Fact)
  | .extend target batch => if target = unit then some batch else none
  | .mark _ _ _ => none

end Action

def perform (st : Store) : Action → Store
  | .extend unit batch => st.extend unit batch
  | .mark unit digest module => st.mark unit digest module

def performAll (st : Store) (trace : List Action) : Store := trace.foldl perform st

/-- The batches for a unit, in order. -/
def batchesFor (unit : String) (trace : List Action) : List (List Fact) :=
  trace.filterMap (Action.batchFor? unit)

/-- What a store has of a unit; of one that was never named, there are no facts. -/
structure Cell where
  facts : Option (List Fact) := none
  digest : String := ""
  module : String := ""

def cell (st : Store) (unit : String) : Cell :=
  ⟨st.facts.find? unit, st.digest unit, st.module unit⟩

/-- What an action on its unit makes of the cell. -/
def Cell.perform (c : Cell) : Action → Cell
  | .extend _ batch => { c with facts := some (c.facts.getD [] ++ batch) }
  | .mark _ digest module =>
    { facts := some (c.facts.getD [])
      digest := if digest = "" then c.digest else digest
      module := if module = "" then c.module else module }

theorem findD_insert (t : Table String String) (k k' v d : String) :
    (t.insert k v).findD k' d = if k' = k then v else t.findD k' d := by
  rw [Table.findD, Table.find?_insert, Table.findD]
  split <;> rfl

/-- An action changes the cell of its unit and no other. -/
theorem cell_perform (st : Store) (a : Action) (unit : String) :
    (st.perform a).cell unit = if unit = a.unit then (st.cell unit).perform a
      else st.cell unit := by
  cases a with
  | extend target batch =>
    simp only [perform, extend, cell, Table.find?_update, Action.unit]
    by_cases hunit : unit = target <;> simp [hunit, Cell.perform, digest, module]
  | mark target dig mod =>
    simp only [perform, mark, cell, Table.insertNew, Table.find?_update, digest, module,
      Action.unit, Cell.perform]
    by_cases hunit : unit = target <;> by_cases hdig : dig = "" <;> by_cases hmod : mod = "" <;>
      simp [hunit, hdig, hmod, findD_insert]

theorem factsOf_eq (st : Store) (unit : String) : st.factsOf unit = (st.cell unit).facts.getD [] :=
  rfl

theorem factsOf_perform (st : Store) (a : Action) (unit : String) :
    (st.perform a).factsOf unit = st.factsOf unit ++ (a.batchFor? unit).getD [] := by
  rw [factsOf_eq, cell_perform, factsOf_eq]
  cases a with
  | extend target batch =>
    by_cases hunit : unit = target
    · simp [hunit, Action.unit, Action.batchFor?, Cell.perform]
    · simp [hunit, Ne.symm hunit, Action.unit, Action.batchFor?]
  | mark target dig mod =>
    rw [Action.batchFor?, Option.getD_none, List.append_nil]
    split <;> rfl

/-- The facts of a unit are the batches for it, in the order in which they came. -/
theorem factsOf_performAll (st : Store) (trace : List Action) (unit : String) :
    (st.performAll trace).factsOf unit = st.factsOf unit ++ (batchesFor unit trace).flatten := by
  induction trace generalizing st with
  | nil => simp [performAll, batchesFor]
  | cons a rest ih =>
    calc (st.performAll (a :: rest)).factsOf unit
        = (st.perform a).factsOf unit ++ (batchesFor unit rest).flatten := ih _
      _ = st.factsOf unit ++ ((a.batchFor? unit).getD [] ++ (batchesFor unit rest).flatten) := by
          rw [factsOf_perform, List.append_assoc]
      _ = st.factsOf unit ++ (batchesFor unit (a :: rest)).flatten := by
          rw [batchesFor, batchesFor, List.filterMap_cons]
          cases a.batchFor? unit <;> rfl

theorem nodup_units_perform {st : Store} (h : st.units.Nodup) (a : Action) :
    (st.perform a).units.Nodup := by
  cases a with
  | extend target batch => exact Table.nodup_keys_update h _ _
  | mark target dig mod => exact Table.nodup_keys_update h _ _

end Store

end Deadwood
