import Mathlib.Data.String.Basic
import Deadwood.Proofs.Distance
import Deadwood.Proofs.Inheritance
import Deadwood.Proofs.Order

/-!
# Walks over the classes of a project

Classes may be built on one another in any way, in a diamond or in a cycle. The walk up from a class
lists it and the classes that it is built on, the nearer ones first; the walk down lists the classes
that are built on it, in order and whatever the order in which it comes upon them.

* `extends_ofUnits_iff`: the edges of both walks, by the definitions of the units.
* `membersOf_eq`: the members of a scope under a name are all the definitions there, in order.
* `nearestFirst_ancestors`: the walk up.
* `pairwise_descendants`, `sort_of_run`: the walk down.
* `foundNearest_of_ordered`: a method is taken from one of the nearest classes that define it.
* `inheritance_exact` puts them together.
-/

namespace Deadwood.Project.Index

/-! ## Definitions -/

/-- The definitions of functions and methods with a scope and name, in order; a definition that is
repeated counts as often as it stands in the units. Names that are reserved for modules and classes
are not those of methods. -/
def definedAs (units : Units) (scope name : String) : List Symbol :=
  Symbol.sort (((definitionsOf units []).map Prod.fst).filter fun s =>
    s.Ordinary ∧ s.scope = scope ∧ s.name = name)

theorem findD_foldl_add (ds : List (Symbol × Meta)) (ix : Index) (scope name : String) :
    (ds.foldl add ix).members.findD (scope, name) [] =
      ix.members.findD (scope, name) [] ++
        (ds.map Prod.fst).filter fun s => s.Ordinary ∧ s.scope = scope ∧ s.name = name := by
  induction ds generalizing ix with
  | nil => simp
  | cons d rest ih =>
    obtain ⟨s, info⟩ := d
    have hstep : (ix.add (s, info)).members.findD (scope, name) [] =
        ix.members.findD (scope, name) [] ++
          if s.Ordinary ∧ s.scope = scope ∧ s.name = name then [s] else [] := by
      rw [add_members]
      by_cases hs : s.Ordinary
      · by_cases hk : s.scope = scope ∧ s.name = name
        · obtain ⟨rfl, rfl⟩ := hk
          simp [hs, note, Table.findD]
        · have hne : (scope, name) ≠ (s.scope, s.name) := by
            intro h
            obtain ⟨rfl, rfl⟩ := Prod.mk.inj h
            exact hk ⟨rfl, rfl⟩
          simp [hs, hk, note, Table.findD, Table.find?_update_of_ne _ hne]
      · simp [hs]
    rw [List.foldl_cons, ih, hstep, List.append_assoc]
    by_cases hs : s.Ordinary ∧ s.scope = scope ∧ s.name = name <;> simp [hs]

theorem membersOf_eq (units : Units) (scope name : String) :
    (ofUnits units).membersOf scope name = definedAs units scope name := by
  rw [membersOf, ofUnits, finish, findD_mapValues_sort, findD_foldl_add, definedAs]
  rfl

/-- The bases that a class names; of several definitions of a class the last counts. -/
def namedBases (units : Units) (c : String) : List String :=
  (((definitionsOf units []).reverse.find? fun d => d.1 = .classOf c).map (·.2.implements)).getD []

theorem find?_foldl_add (ds : List (Symbol × Meta)) (ix : Index) (c : String) :
    (ds.foldl add ix).classes.find? c =
      ((ds.reverse.find? fun d => d.1 = .classOf c).map (·.2.implements)).or
        (ix.classes.find? c) := by
  induction ds generalizing ix with
  | nil => simp
  | cons d rest ih =>
    obtain ⟨s, info⟩ := d
    have hstep : (ix.add (s, info)).classes.find? c =
        if s = .classOf c then some info.implements else ix.classes.find? c := by
      rw [add_classes, Symbol.classOf]
      obtain ⟨scope, name, arity⟩ := s
      split_ifs <;> simp_all [Table.find?_insert, eq_comm]
    rw [List.foldl_cons, ih, hstep, List.reverse_cons, List.find?_append]
    cases rest.reverse.find? fun d => d.1 = .classOf c with
    | some d => simp
    | none => by_cases hs : s = .classOf c <;> simp [hs]

theorem bases_ofUnits (units : Units) (c : String) :
    (ofUnits units).bases c = (namedBases units c).map (ofUnits units).resolveAlias := by
  have hfind := find?_foldl_add (definitionsOf units []) {} c
  rw [bases, ofUnits, finish, Table.findD, Table.find?_mapValues, hfind, namedBases]
  cases (definitionsOf units []).reverse.find? fun d => d.1 = .classOf c with
  | some d => rfl
  | none => rfl

/-- A class extends the classes of the project among the bases that it names. -/
theorem extends_ofUnits_iff {units : Units} {d b : String} :
    (ofUnits units).Extends d b ↔
      (∃ named ∈ namedBases units d, (ofUnits units).resolveAlias named = b) ∧
        ∃ info, Defines units (.classOf b) info := by
  rw [Extends, innerBases, List.mem_filter, contains_classes_iff, bases_ofUnits, List.mem_map]

/-! ## The walk up -/

variable {ix : Index} {c name : String}

theorem edge_innerBases : Search.Edge ix.classes.keys ix.innerBases = ix.Extends := by
  funext d b
  exact propext edge_innerBases_iff

theorem nearestFirst_ancestors (ix : Index) (c : String) :
    Search.NearestFirst ix.Extends c (ix.ancestors c) where
  head := by
    obtain ⟨rest, hrest⟩ := ancestors_eq_cons ix c
    rw [hrest, List.head?_cons]
  nodup := List.nodup_reverse.2 (Search.visit_nodup _ _ _ _ (List.nodup_singleton c))
  mem_iff x := mem_ancestors_iff
  ordered := by
    have hqueue := Search.pairwise_visit (Search.Leveled.init ix.classes.keys ix.innerBases c)
    simp only [List.map_map, Function.comp_def, List.map_id', edge_innerBases] at hqueue
    exact List.pairwise_reverse.2 hqueue

/-! ## The walk down -/

theorem pairwise_descendants (ix : Index) (b : String) : (ix.descendants b).Pairwise (· < ·) := by
  have hsorted : (ix.descendants b).Pairwise (· ≤ ·) := pairwise_sortBy id _
  have hnodup : (ix.descendants b).Nodup :=
    (List.mergeSort_perm _ _).nodup_iff.2 ((Search.run_sweep _ _ _ _).nodup List.nodup_nil)
  exact (hsorted.and hnodup).imp fun h => lt_of_le_of_ne h.1 h.2

/-- The classes built on a class are found in whatever order the classes that wait are taken. -/
theorem sort_of_run {b : String} {stack out : List String} (hstack : stack.Perm (ix.children b))
    (h : Search.Run ix.classes.keys ix.children stack [] out) :
    (out.mergeSort fun a b => a ≤ b) = ix.descendants b := by
  have hsweep := Search.run_sweep ix.classes.keys ix.children (ix.children b) []
  have hmem : ∀ x, x ∈ out ↔ x ∈ Search.sweep ix.classes.keys ix.children (ix.children b) [] := by
    intro x
    rw [h.mem_iff (.nil _ _ _), hsweep.mem_iff (.nil _ _ _)]
    simp only [hstack.mem_iff]
  have hperm :=
    (List.perm_ext_iff_of_nodup (h.nodup List.nodup_nil) (hsweep.nodup List.nodup_nil)).2 hmem
  refine List.Perm.eq_of_pairwise (fun _ _ _ _ => le_antisymm) (pairwise_sortBy id _)
    (pairwise_sortBy id _) ?_
  exact (List.mergeSort_perm _ _).trans (hperm.trans (List.mergeSort_perm _ _).symm)

theorem mem_descendants_iff_mem_ancestors {b : String} (h : b ≠ c) :
    c ∈ ix.descendants b ↔ b ∈ ix.ancestors c := by
  rw [mem_descendants_iff, mem_ancestors_iff, Relation.reflTransGen_iff_eq_or_transGen]
  exact ⟨.inr, fun h' => h'.resolve_left h⟩

/-- A diamond that is closed to a cycle: `D` is built on `B` and `C`, both are built on `A`, and `A`
on `D`. -/
def ring : Index where
  classes := ⟨[("D", ["B", "C"]), ("B", ["A"]), ("C", ["A"]), ("A", ["D"])]⟩

example : ring.ancestors "D" = ["D", "B", "C", "A"] ∧ ring.descendants "A" =
      ["A", "B", "C", "D"] := by cbv

/-! ## Methods -/

/-- Of the classes `among`, the methods found under a name are all those of one class that lies
nearest to `c` of those that define any; none are found only if no class does. -/
structure FoundNearest (units : Units) (c name : String) (among : String → Prop)
    (found : List Symbol) : Prop where
  nil_iff : found = [] ↔ ∀ d, among d → definedAs units d name = []
  nearest : found ≠ [] → ∃ d, among d ∧ found = definedAs units d name ∧
    ∀ e, among e → definedAs units e name ≠ [] →
      Search.distance (ofUnits units).Extends c d ≤ Search.distance (ofUnits units).Extends c e

/-- The first of some classes that has methods with the name. -/
theorem firstMembers_cases (ix : Index) (name : String) (classes : List String) :
    (ix.firstMembers name classes = [] ∧ ∀ d ∈ classes, ix.membersOf d name = []) ∨
      ∃ before d behind, classes = before ++ d :: behind ∧
        (∀ e ∈ before, ix.membersOf e name = []) ∧
        ix.membersOf d name ≠ [] ∧ ix.firstMembers name classes = ix.membersOf d name := by
  induction classes with
  | nil => exact .inl ⟨rfl, List.forall_mem_nil _⟩
  | cons d rest ih =>
    by_cases hd : ix.membersOf d name = []
    · have hskip : ix.firstMembers name (d :: rest) = ix.firstMembers name rest := by
        simp [firstMembers, hd]
      rcases ih with ⟨hnil, hrest⟩ | ⟨before, e, behind, rfl, hbefore, he, hfound⟩
      · exact .inl ⟨hskip.trans hnil, List.forall_mem_cons.2 ⟨hd, hrest⟩⟩
      · exact .inr ⟨d :: before, e, behind, rfl, List.forall_mem_cons.2 ⟨hd, hbefore⟩, he,
          hskip.trans hfound⟩
    · exact .inr ⟨[], d, rest, rfl, List.forall_mem_nil _, hd, by simp [firstMembers, hd]⟩

theorem foundNearest_of_ordered {units : Units} {classes : List String} {among : String → Prop}
    (hamong : ∀ d, d ∈ classes ↔ among d)
    (hordered : classes.Pairwise fun x y =>
      Search.distance (ofUnits units).Extends c x ≤ Search.distance (ofUnits units).Extends c y) :
    FoundNearest units c name among ((ofUnits units).firstMembers name classes) := by
  have hcases := firstMembers_cases (ofUnits units) name classes
  simp only [membersOf_eq] at hcases
  rcases hcases with ⟨hnil, hnone⟩ | ⟨before, d, behind, rfl, hbefore, hd, hfound⟩
  · exact ⟨⟨fun _ e he => hnone e ((hamong e).2 he), fun _ => hnil⟩, fun h => absurd hnil h⟩
  · have hmem : among d := (hamong d).1 (List.mem_append_right _ List.mem_cons_self)
    rw [hfound]
    refine ⟨⟨fun h => absurd h hd, fun h => h d hmem⟩, fun _ => ⟨d, hmem, rfl, fun e he hne => ?_⟩⟩
    have hbehind := (List.pairwise_cons.1 (List.pairwise_append.1 hordered).2.1).1
    rcases List.mem_append.1 ((hamong e).2 he) with he | he
    · exact absurd (hbefore e he) hne
    · rcases List.mem_cons.1 he with rfl | he
      · exact le_rfl
      · exact hbehind e he

theorem foundNearest_findMethod (units : Units) (c name : String) :
    FoundNearest units c name (· ∈ (ofUnits units).ancestors c)
      ((ofUnits units).findMethod c name) :=
  foundNearest_of_ordered (fun _ => Iff.rfl) (nearestFirst_ancestors _ c).ordered

theorem foundNearest_findInherited (units : Units) (c name : String) :
    FoundNearest units c name (fun d => d ∈ (ofUnits units).ancestors c ∧ d ≠ c)
      ((ofUnits units).findInherited c name) := by
  have hup := nearestFirst_ancestors (ofUnits units) c
  refine foundNearest_of_ordered (fun d => ?_) (hup.ordered.sublist (List.drop_sublist 1 _))
  obtain ⟨rest, hrest⟩ := ancestors_eq_cons (ofUnits units) c
  have hnodup := hup.nodup
  rw [hrest] at hnodup ⊢
  have hc : c ∉ rest := (List.nodup_cons.1 hnodup).1
  rw [List.drop_one, List.tail_cons, List.mem_cons]
  constructor
  · exact fun hd => ⟨.inr hd, fun e => hc (e ▸ hd)⟩
  · exact fun hd => hd.1.resolve_left hd.2

/-- **Walks over the classes of any project.** A class extends the classes of the project among the
bases that its last definition names. The ancestors of a class are it and what it is built on, each
once and the nearer ones first. The classes built on a class are those from which at least one base
leads to it, in strictly ascending order, in whatever order they are come upon; the two walks are
converse to each other. A method is looked up in the nearest of the classes that define it, and all
its definitions there are found; likewise for a method that is inherited. -/
theorem inheritance_exact (units : Units) :
    (∀ d b, (ofUnits units).Extends d b ↔
      (∃ named ∈ namedBases units d, (ofUnits units).resolveAlias named = b) ∧
        ∃ info, Defines units (.classOf b) info) ∧
    (∀ c, Search.NearestFirst (ofUnits units).Extends c ((ofUnits units).ancestors c)) ∧
    (∀ b, ((ofUnits units).descendants b).Pairwise (· < ·) ∧
      (∀ d, d ∈ (ofUnits units).descendants b ↔ Relation.TransGen (ofUnits units).Extends d b) ∧
      ∀ stack out, stack.Perm ((ofUnits units).children b) →
        Search.Run (ofUnits units).classes.keys (ofUnits units).children stack [] out →
          (out.mergeSort fun a b => a ≤ b) = (ofUnits units).descendants b) ∧
    (∀ b c, b ≠ c → (c ∈ (ofUnits units).descendants b ↔ b ∈ (ofUnits units).ancestors c)) ∧
    ∀ c name,
      FoundNearest units c name (· ∈ (ofUnits units).ancestors c)
        ((ofUnits units).findMethod c name) ∧
      FoundNearest units c name (fun d => d ∈ (ofUnits units).ancestors c ∧ d ≠ c)
        ((ofUnits units).findInherited c name) := by
  refine ⟨fun d b => extends_ofUnits_iff, nearestFirst_ancestors _, fun b => ?_, ?_,
    fun c name => ?_⟩
  · exact ⟨pairwise_descendants _ b, fun d => mem_descendants_iff, fun stack out => sort_of_run⟩
  · exact fun b c => mem_descendants_iff_mem_ancestors
  · exact ⟨foundNearest_findMethod units c name, foundNearest_findInherited units c name⟩

end Deadwood.Project.Index
