import Mathlib.Data.List.GetD
import Mathlib.Data.List.Nodup
import Deadwood.Project.Exports
import Deadwood.Proofs.Table

/-!
# Completing exports in place

The exports can be completed without a new table at every pass: the description of each symbol is
copied into a cell of its own, and the passes write their marks into the cells. The descriptions
that the facts hold stand in cells of the same memory, and several facts may share one.

* `Cells` is a memory and the cell of each symbol, `Cells.read` the table that they stand for.
* `Cells.complete` copies and marks in place.
* `Cells.Apart`: the cells of the symbols are new, and no two symbols share one. `Apart.copyNew` and
  `Apart.mark` keep it, `Apart.read_copyNew` and `Apart.read_mark` say what one copy and one mark do
  to the table, and `Apart.foldl_copyNew` and `Apart.foldl_mark` what whole passes do.
* `complete_spec`: the table comes out as `exports` has it, and no old cell is written to.
-/

namespace Deadwood.Project

/-! ## Marks -/

/-- A description, marked as exported if it is public. -/
def marked (info : Meta) : Meta := if info.isPublic then { info with «export» := true } else info

theorem marked_marked (info : Meta) : marked (marked info) = marked info := by
  by_cases h : info.isPublic = true <;> simp [marked, h]

theorem markExported_eq (p : Symbol → Meta → Bool) (metas : Table Symbol Meta) :
    markExported p metas =
      ⟨metas.entries.map fun e => (e.1, if p e.1 e.2 then marked e.2 else e.2)⟩ := by
  refine congrArg Table.mk (List.map_congr_left fun e _ => ?_)
  cases hp : p e.1 e.2 <;> simp [hp, marked]

theorem markExported_congr {p q : Symbol → Meta → Bool} {metas : Table Symbol Meta}
    (h : ∀ e ∈ metas.entries, p e.1 e.2 = q e.1 e.2) :
    markExported p metas = markExported q metas := by
  refine congrArg Table.mk (List.map_congr_left fun e he => ?_)
  simp only [h e he]

theorem markExported_false (metas : Table Symbol Meta) :
    markExported (fun _ _ => false) metas = metas := by
  simp [markExported]

/-- Marks that hang on the symbol alone can be set in two passes. -/
theorem markExported_markExported (p q : Symbol → Bool) (metas : Table Symbol Meta) :
    markExported (fun s _ => q s) (markExported (fun s _ => p s) metas) =
      markExported (fun s _ => p s || q s) metas := by
  simp only [markExported_eq, List.map_map]
  refine congrArg Table.mk (List.map_congr_left fun e _ => ?_)
  cases hp : p e.1 <;> cases hq : q e.1 <;> simp [hp, hq, marked_marked]

/-! ## Cells -/

/-- A memory of descriptions, and the cell in which the description of each symbol stands. -/
structure Cells where
  memory : List Meta
  table : Table Symbol Nat

namespace Cells

/-- The table of the descriptions in the cells. -/
def read (c : Cells) : Table Symbol Meta := c.table.mapValues fun a => c.memory.getD a default

/-- Copies the description of a symbol that is new into a new cell. -/
def copyNew (c : Cells) (d : Symbol × Nat) : Cells :=
  if c.table.contains d.1 then c
  else ⟨c.memory ++ [c.memory.getD d.2 default], c.table.insert d.1 c.memory.length⟩

/-- Writes the mark into the cell of a symbol. -/
def mark (c : Cells) (s : Symbol) : Cells :=
  (c.table.find? s).elim c fun a => { c with memory := c.memory.modify a marked }

/-- The symbols that a dotted name names: those with its scope and name, then the class itself. -/
def namedBy (c : Cells) (target : String) : List Symbol :=
  c.table.keys.filter (fun s => (s.scope, s.name) = Dotted.cut target) ++
    c.table.keys.filter fun s => s = Symbol.classOf target

/-- The methods of exported classes. -/
def exportedMethods (c : Cells) : List Symbol :=
  (c.read.entries.filter fun e => e.2.kind =
    "method" && (exportedClasses c.read).contains e.1.scope).map Prod.fst

/-- Copies the first description of every symbol, marks what modules offer, and then the methods of
the exported classes. The definitions are given with the cells of their descriptions. -/
def complete (memory : List Meta) (ds : List (Symbol × Nat)) : Cells :=
  let copied := ds.foldl copyNew ⟨memory, ∅⟩
  let offered := ((reexports copied.read).flatMap copied.namedBy).foldl mark copied
  offered.exportedMethods.foldl mark offered

/-- The first cells are those of `memory`, and the cells of the symbols lie behind them, each symbol
having its own. -/
structure Apart (memory : List Meta) (c : Cells) : Prop where
  old : memory <+: c.memory
  keys : c.table.keys.Nodup
  cells : (c.table.entries.map Prod.snd).Nodup
  fresh : ∀ e ∈ c.table.entries, memory.length ≤ e.2 ∧ e.2 < c.memory.length

variable {memory : List Meta} {c : Cells} {s : Symbol}

theorem keys_read (c : Cells) : c.read.keys = c.table.keys := by
  simp [read, Table.mapValues, Table.keys]

/-! ## Marking -/

/-- A cell belongs to one symbol. -/
theorem Apart.cell_iff (h : c.Apart memory) {a : Nat} (hs : c.table.find? s = some a)
    {e : Symbol × Nat} (he : e ∈ c.table.entries) : a = e.2 ↔ e.1 = s := by
  have hmem := Table.mem_of_find? hs
  constructor
  · intro ha
    exact congrArg Prod.fst (List.inj_on_of_nodup_map h.cells he hmem ha.symm)
  · intro hk
    exact congrArg Prod.snd (List.inj_on_of_nodup_map h.keys hmem he hk.symm)

/-- Writing to a cell of a symbol leaves the old ones. -/
theorem Apart.mark (h : c.Apart memory) (s : Symbol) : (c.mark s).Apart memory := by
  unfold Cells.mark
  cases hs : c.table.find? s with
  | none => exact h
  | some a =>
    have ha : memory.length ≤ a := (h.fresh _ (Table.mem_of_find? hs)).1
    refine ⟨?_, h.keys, h.cells, fun e he => ?_⟩
    · refine List.prefix_iff_getElem?.2 fun i hi => ?_
      have hne : a ≠ i := by omega
      calc (c.memory.modify a marked)[i]?
        _ = c.memory[i]? := List.getElem?_modify_ne _ _ hne
        _ = some memory[i] := List.prefix_iff_getElem?.1 h.old i hi
    · rw [Option.elim_some, List.length_modify]
      exact h.fresh e he

theorem getD_modify {a b : Nat} (hb : b < memory.length) :
    (memory.modify a marked).getD b default =
      if a = b then marked (memory.getD b default) else memory.getD b default := by
  rw [List.getD_eq_getElem?_getD, List.getD_eq_getElem?_getD, List.getElem?_modify,
    List.getElem?_eq_getElem hb]
  split_ifs <;> rfl

/-- Marking one cell marks one symbol. -/
theorem Apart.read_mark (h : c.Apart memory) (s : Symbol) :
    (c.mark s).read = markExported (fun s' _ => s' = s) c.read := by
  unfold Cells.mark
  cases hs : c.table.find? s with
  | none =>
    have hnone : ∀ e ∈ c.read.entries, decide (e.1 = s) = false := by
      intro e he
      simp only [decide_eq_false_iff_not]
      rintro rfl
      have hkey : e.1 ∈ c.table.keys := keys_read c ▸ List.mem_map_of_mem he
      obtain ⟨a, ha⟩ := Table.mem_keys_iff_find?.1 hkey
      rw [hs] at ha
      cases ha
    rw [markExported_congr (q := fun _ _ => false) hnone, markExported_false]
    rfl
  | some a =>
    simp only [Option.elim_some, markExported_eq, read, Table.mapValues, List.map_map]
    refine congrArg Table.mk (List.map_congr_left fun e he => ?_)
    simp only [Function.comp, getD_modify (h.fresh e he).2, h.cell_iff hs he, decide_eq_true_eq]

/-- What a whole pass of marks does. -/
theorem Apart.foldl_mark (h : c.Apart memory) (ss : List Symbol) :
    (ss.foldl Cells.mark c).Apart memory ∧
      (ss.foldl Cells.mark c).read = markExported (fun s _ => ss.contains s) c.read := by
  induction ss generalizing c with
  | nil => exact ⟨h, (markExported_false _).symm⟩
  | cons s rest ih =>
    obtain ⟨hapart, hread⟩ := ih (h.mark s)
    refine ⟨hapart, ?_⟩
    rw [List.foldl_cons, hread, h.read_mark, markExported_markExported]
    refine markExported_congr fun e _ => ?_
    rw [List.contains_cons]
    rfl

/-! ## Copying -/

/-- A copy goes into a new cell. -/
theorem Apart.copyNew (h : c.Apart memory) (d : Symbol × Nat) : (c.copyNew d).Apart memory := by
  unfold Cells.copyNew
  split_ifs with hd
  · exact h
  · have hkey : d.1 ∉ c.table.keys := fun hk => hd (Table.contains_iff_mem_keys.2 hk)
    rw [Table.insert_of_not_mem hkey]
    refine ⟨h.old.trans (List.prefix_append _ _), ?_, ?_, ?_⟩
    · rw [← Table.insert_of_not_mem hkey]
      exact Table.nodup_keys_insert h.keys _ _
    · rw [List.map_append, List.nodup_append]
      refine ⟨h.cells, List.nodup_singleton _, fun a ha b hb => ?_⟩
      obtain ⟨e, he, rfl⟩ := List.mem_map.1 ha
      rw [List.map_singleton, List.mem_singleton] at hb
      exact hb ▸ Nat.ne_of_lt (h.fresh e he).2
    · intro e he
      rw [List.length_append, List.length_singleton]
      rcases List.mem_append.1 he with he | he
      · have hfresh := h.fresh e he
        omega
      · rw [List.mem_singleton.1 he]
        exact ⟨h.old.length_le, Nat.lt_succ_self _⟩

theorem Apart.read_copyNew (h : c.Apart memory) (d : Symbol × Nat) :
    (c.copyNew d).read = c.read.insertNew d.1 (c.memory.getD d.2 default) := by
  unfold Cells.copyNew
  split_ifs with hd
  · have hkey : d.1 ∈ c.read.keys := keys_read c ▸ Table.contains_iff_mem_keys.1 hd
    exact (Table.insertNew_of_mem hkey _).symm
  · have hkey : d.1 ∉ c.table.keys := fun hk => hd (Table.contains_iff_mem_keys.2 hk)
    rw [Table.insertNew_of_not_mem (keys_read c ▸ hkey), Table.insert_of_not_mem hkey]
    refine congrArg Table.mk ?_
    simp only [List.map_append, List.map_cons, List.map_nil]
    rw [List.getD_append_right _ _ _ _ (Nat.le_refl _), Nat.sub_self]
    -- the cells that were there hold what they held
    refine congrArg (· ++ _) (List.map_congr_left fun e he => ?_)
    rw [List.getD_append _ _ _ _ (h.fresh e he).2]

/-- What the pass of copies does. The definitions lie in old cells, which copying does not
change. -/
theorem Apart.foldl_copyNew (h : c.Apart memory) {ds : List (Symbol × Nat)}
    {values : List (Symbol × Meta)}
    (hds : ds.map (fun d => (d.1, memory[d.2]?)) = values.map fun d => (d.1, some d.2)) :
    (ds.foldl Cells.copyNew c).Apart memory ∧
      (ds.foldl Cells.copyNew c).read = values.foldl (fun t d => t.insertNew d.1 d.2) c.read := by
  induction ds generalizing c values with
  | nil =>
    obtain rfl : values = [] := by simpa using hds
    exact ⟨h, rfl⟩
  | cons d rest ih =>
    obtain ⟨v, values, rfl⟩ : ∃ v values', values = v :: values' := by
      cases values with
      | nil => cases hds
      | cons v values => exact ⟨v, values, rfl⟩
    obtain ⟨hd, hrest⟩ := List.cons.inj hds
    obtain ⟨hkey, hcell⟩ := Prod.mk.inj hd
    obtain ⟨hapart, hread⟩ := ih (h.copyNew d) hrest
    refine ⟨hapart, ?_⟩
    have hvalue : c.memory.getD d.2 default = v.2 := by
      obtain ⟨hlt, hcell⟩ := List.getElem?_eq_some_iff.1 hcell
      rw [List.getD_eq_getElem?_getD, List.prefix_iff_getElem?.1 h.old _ hlt, hcell]
      rfl
    rw [List.foldl_cons, List.foldl_cons, hread, h.read_copyNew, hvalue, hkey]

/-! ## All passes -/

theorem contains_namedBy (c : Cells) (targets : List String) {s : Symbol} (hs : s ∈ c.table.keys) :
    (targets.flatMap c.namedBy).contains s = targets.any fun t => names t s := by
  rw [Bool.eq_iff_iff, List.contains_iff_mem, List.mem_flatMap, List.any_eq_true]
  simp [namedBy, names, hs]

theorem contains_exportedMethods {c : Cells} (h : c.Apart memory) {e : Symbol × Meta}
    (he : e ∈ c.read.entries) :
    c.exportedMethods.contains e.1 =
      (e.2.kind = "method" && (exportedClasses c.read).contains e.1.scope) := by
  have hkeys : c.read.keys.Nodup := keys_read c ▸ h.keys
  rw [Bool.eq_iff_iff, List.contains_iff_mem, exportedMethods, List.mem_map]
  constructor
  · rintro ⟨e', he', hk⟩
    obtain ⟨hmem, hmethod⟩ := List.mem_filter.1 he'
    rwa [List.inj_on_of_nodup_map hkeys hmem he hk] at hmethod
  · exact fun hmethod => ⟨e, List.mem_filter.2 ⟨he, hmethod⟩, rfl⟩

/-- **Completing in place** gives the descriptions that the exports have and leaves every cell of
the facts as it was. -/
theorem complete_spec {units : Units} {excluded : List String} {ds : List (Symbol × Nat)}
    (hds : ds.map (fun d => (d.1, memory[d.2]?)) =
      (definitionsOf units excluded).map fun d => (d.1, some d.2)) :
    (complete memory ds).read = exports units excluded ∧
      memory <+: (complete memory ds).memory := by
  have hstart : Cells.Apart memory ⟨memory, ∅⟩ :=
    ⟨List.prefix_rfl, List.nodup_nil, List.nodup_nil, nofun⟩
  rw [complete, exports]
  obtain ⟨hcopied, hfirst⟩ := hstart.foldl_copyNew hds
  generalize ds.foldl copyNew ⟨memory, ∅⟩ = copied at hcopied hfirst ⊢
  replace hfirst : copied.read = firstDefinitions (definitionsOf units excluded) := hfirst
  obtain ⟨hoffered, hread⟩ := hcopied.foldl_mark ((reexports copied.read).flatMap copied.namedBy)
  generalize ((reexports copied.read).flatMap copied.namedBy).foldl mark copied =
    offered at hoffered hread ⊢
  obtain ⟨hdone, hresult⟩ := hoffered.foldl_mark offered.exportedMethods
  refine ⟨?_, hdone.old⟩
  have hnamed : offered.read =
      markExported (fun s _ => (reexports copied.read).any fun t => names t s) copied.read :=
    hread.trans <| markExported_congr fun e he =>
      contains_namedBy copied _ (keys_read copied ▸ List.mem_map_of_mem he)
  rw [hresult, ← hfirst, ← hnamed]
  exact markExported_congr fun e he => contains_exportedMethods hoffered he

end Cells

end Deadwood.Project
