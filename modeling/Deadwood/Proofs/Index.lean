import Deadwood.Project.Index
import Deadwood.Proofs.Dotted
import Deadwood.Proofs.Table

/-!
# What an index knows

`Index.ofUnits` folds the definitions of a project into five tables. Each of them is described here
by the definitions of the units alone, so that later proofs do not open the fold.

* `Defines units s info`: some unit defines `s`, described by `info`.
* `mem_membersOf_iff`, `mem_methods_iff`, `contains_classes_iff`, `contains_modules_iff`: which
  symbols, classes and modules the index holds. `exists_of_alias` says where an alias comes from.
* `followAliases_induct`: what one replaced beginning keeps, following aliases keeps.
* `resolve_cases`: what an unresolved callee may become.
-/

namespace Deadwood.Symbol

/-- The symbol of a function or method: its name is not a reserved one. -/
def Ordinary (s : Symbol) : Prop := s.name ≠ bodyName ∧ s.name ≠ recordName

instance (s : Symbol) : Decidable s.Ordinary := inferInstanceAs (Decidable (_ ∧ _))

end Deadwood.Symbol

namespace Deadwood.Project

/-- Some unit of the project defines `s`, described by `info`. -/
def Defines (units : Units) (s : Symbol) (info : Meta) : Prop :=
  ∃ u ∈ units.entries, Fact.definition s info ∈ u.2

theorem mem_definitions_iff {facts : List Fact} {s : Symbol} {info : Meta} :
    (s, info) ∈ Fact.definitions facts ↔ .definition s info ∈ facts := by
  simp only [Fact.definitions, List.mem_filterMap]
  constructor
  · rintro ⟨f, hf, h⟩
    cases f with
    | definition s' info' =>
      cases h
      exact hf
    | call => cases h
  · intro h
    exact ⟨_, h, rfl⟩

theorem mem_definitionsOf_iff {units : Units} {s : Symbol} {info : Meta} :
    (s, info) ∈ definitionsOf units [] ↔ Defines units s info := by
  simp [definitionsOf, sortedUnits, Defines, mem_definitions_iff]

namespace Index

/-! ## One definition -/

theorem mem_note_iff {κ : Type} [DecidableEq κ] {t : Table κ (List Symbol)} {k k' : κ}
    {a s : Symbol} :
    s ∈ (note t k a).findD k' [] ↔ s ∈ t.findD k' [] ∨ k' = k ∧ s = a := by
  by_cases h : k' = k
  · subst h
    simp [note, Table.findD]
  · simp [note, Table.findD, Table.find?_update_of_ne _ h, h]

theorem recordName_ne_bodyName : Symbol.recordName ≠ Symbol.bodyName := by decide

section Add

variable (ix : Index) (s : Symbol) (info : Meta)

theorem add_members : (ix.add (s, info)).members =
    if s.Ordinary then note ix.members (s.scope, s.name) s else ix.members := by
  by_cases hb : s.name = Symbol.bodyName
  · simp [add, Symbol.Ordinary, hb]
  by_cases hr : s.name = Symbol.recordName
  · by_cases ha : s.arity = 0 <;> simp [add, Symbol.Ordinary, hr, ha, recordName_ne_bodyName]
  · simp [add, Symbol.Ordinary, hb, hr]

theorem add_methods : (ix.add (s, info)).methods =
    if s.Ordinary ∧ info.kind = "method" then note ix.methods s.name s else ix.methods := by
  by_cases hb : s.name = Symbol.bodyName
  · simp [add, Symbol.Ordinary, hb]
  by_cases hr : s.name = Symbol.recordName
  · by_cases ha : s.arity = 0 <;> simp [add, Symbol.Ordinary, hr, ha, recordName_ne_bodyName]
  · simp [add, Symbol.Ordinary, hb, hr]

theorem add_classes : (ix.add (s, info)).classes =
    if s.name = Symbol.recordName ∧ s.arity = 0 then ix.classes.insert s.scope info.implements
    else ix.classes := by
  by_cases hb : s.name = Symbol.bodyName
  · simp [add, hb, recordName_ne_bodyName.symm]
  by_cases hr : s.name = Symbol.recordName
  · by_cases ha : s.arity = 0 <;> simp [add, hr, ha, recordName_ne_bodyName]
  · simp [add, hb, hr]

theorem add_modules : (ix.add (s, info)).modules =
    if s.name = Symbol.bodyName ∧ s.scope ∉ ix.modules then ix.modules ++ [s.scope]
    else ix.modules := by
  by_cases hb : s.name = Symbol.bodyName
  · by_cases hm : s.scope ∈ ix.modules <;> simp [add, hb, hm]
  by_cases hr : s.name = Symbol.recordName
  · by_cases ha : s.arity = 0 <;> simp [add, hr, ha, recordName_ne_bodyName]
  · simp [add, hb, hr]

theorem add_aliases : (ix.add (s, info)).aliases =
    if s.name = Symbol.bodyName then
      info.aliases.entries.foldl (fun t a => t.insert (Dotted.below s.scope a.1) a.2) ix.aliases
    else ix.aliases := by
  by_cases hb : s.name = Symbol.bodyName
  · simp [add, hb]
  by_cases hr : s.name = Symbol.recordName
  · by_cases ha : s.arity = 0 <;> simp [add, hr, ha, recordName_ne_bodyName]
  · simp [add, hb, hr]

end Add

/-! ## All definitions -/

/-- What one definition adds to a view of the index, the definitions together add. -/
theorem foldl_add_iff (view : Index → Prop) {adds : Symbol × Meta → Prop}
    (step : ∀ ix d, view (ix.add d) ↔ view ix ∨ adds d) (ds : List (Symbol × Meta)) (ix : Index) :
    view (ds.foldl add ix) ↔ view ix ∨ ∃ d ∈ ds, adds d := by
  induction ds generalizing ix with
  | nil => simp
  | cons d rest ih =>
    rw [List.foldl_cons, ih, step, List.exists_mem_cons_iff, or_assoc]

variable {units : Units} {s : Symbol}

theorem exists_definition_iff {adds : Symbol × Meta → Prop} :
    (∃ d ∈ definitionsOf units [], adds d) ↔ ∃ s info, Defines units s info ∧ adds (s, info) := by
  constructor
  · rintro ⟨⟨s, info⟩, hd, h⟩
    exact ⟨s, info, mem_definitionsOf_iff.1 hd, h⟩
  · rintro ⟨s, info, hd, h⟩
    exact ⟨(s, info), mem_definitionsOf_iff.2 hd, h⟩

theorem findD_mapValues_sort {κ : Type} [DecidableEq κ] (t : Table κ (List Symbol)) (k : κ) :
    (t.mapValues Symbol.sort).findD k [] = Symbol.sort (t.findD k []) := by
  simp only [Table.findD, Table.find?_mapValues]
  cases t.find? k with
  | none => simp [Symbol.sort]
  | some found => rfl

/-- The symbols with a scope and name are the functions and methods so called. -/
theorem mem_membersOf_iff {scope name : String} :
    s ∈ (ofUnits units).membersOf scope name ↔
      s.Ordinary ∧ s.scope = scope ∧ s.name = name ∧ ∃ info, Defines units s info := by
  have step : ∀ ix d, s ∈ (add ix d).members.findD (scope, name) [] ↔
      s ∈ ix.members.findD (scope, name) [] ∨
        d.1.Ordinary ∧ (scope, name) = (d.1.scope, d.1.name) ∧ s = d.1 := by
    rintro ix ⟨a, info⟩
    rw [add_members]
    by_cases ha : a.Ordinary
    · rw [if_pos ha, mem_note_iff]
      simp [ha]
    · simp [ha]
  rw [membersOf, ofUnits, finish, findD_mapValues_sort, Symbol.sort, List.mem_mergeSort,
    foldl_add_iff (fun ix => s ∈ ix.members.findD (scope, name) []) step, exists_definition_iff]
  constructor
  · rintro (h | ⟨a, info, hd, ha, hk, rfl⟩)
    · cases h
    · obtain ⟨rfl, rfl⟩ := Prod.mk.inj hk
      exact ⟨ha, rfl, rfl, info, hd⟩
  · rintro ⟨hs, rfl, rfl, info, hd⟩
    exact .inr ⟨s, info, hd, hs, rfl, rfl⟩

/-- The methods with a name, whatever their class. -/
theorem mem_methods_iff {name : String} :
    s ∈ (ofUnits units).methods.findD name [] ↔
      s.Ordinary ∧ s.name = name ∧ ∃ info, Defines units s info ∧ info.kind = "method" := by
  have step : ∀ ix d, s ∈ (add ix d).methods.findD name [] ↔
      s ∈ ix.methods.findD name [] ∨
        (d.1.Ordinary ∧ d.2.kind = "method") ∧ name = d.1.name ∧ s = d.1 := by
    rintro ix ⟨a, info⟩
    rw [add_methods]
    by_cases ha : a.Ordinary ∧ info.kind = "method"
    · rw [if_pos ha, mem_note_iff]
      simp [ha]
    · rw [if_neg ha]
      simp [ha]
  rw [ofUnits, finish, findD_mapValues_sort, Symbol.sort, List.mem_mergeSort,
    foldl_add_iff (fun ix => s ∈ ix.methods.findD name []) step, exists_definition_iff]
  constructor
  · rintro (h | ⟨a, info, hd, ⟨ha, hk⟩, rfl, rfl⟩)
    · cases h
    · exact ⟨ha, rfl, info, hd, hk⟩
  · rintro ⟨hs, rfl, info, hd, hk⟩
    exact .inr ⟨s, info, hd, ⟨hs, hk⟩, rfl, rfl⟩

theorem contains_classes_iff {c : String} :
    (ofUnits units).classes.contains c = true ↔ ∃ info, Defines units (.classOf c) info := by
  have step : ∀ ix d, (add ix d).classes.contains c = true ↔
      ix.classes.contains c = true ∨ d.1 = Symbol.classOf c := by
    rintro ix ⟨a, info⟩
    obtain ⟨scope, name, arity⟩ := a
    rw [add_classes]
    split_ifs with ha
    · obtain ⟨rfl, rfl⟩ := ha
      have hc : Symbol.mk scope Symbol.recordName 0 = .classOf c ↔ c = scope := by
        simp [Symbol.classOf, eq_comm]
      rw [Table.contains_insert, hc, or_comm]
    · have : Symbol.mk scope name arity ≠ .classOf c := by
        rintro ⟨⟩
        exact ha ⟨rfl, rfl⟩
      simp [this]
  rw [ofUnits, finish, Table.contains_mapValues,
    foldl_add_iff (fun ix => ix.classes.contains c = true) step, exists_definition_iff]
  constructor
  · rintro (h | ⟨a, info, hd, rfl⟩)
    · cases h
    · exact ⟨info, hd⟩
  · rintro ⟨info, hd⟩
    exact .inr ⟨_, info, hd, rfl⟩

theorem contains_modules_iff {c : String} :
    (ofUnits units).modules.contains c = true ↔
      ∃ s info, Defines units s info ∧ s.name = Symbol.bodyName ∧ s.scope = c := by
  have step : ∀ ix d, c ∈ (add ix d).modules ↔
      c ∈ ix.modules ∨ d.1.name = Symbol.bodyName ∧ d.1.scope = c := by
    rintro ix ⟨a, info⟩
    rw [add_modules]
    split_ifs with ha <;> aesop
  rw [List.contains_iff_mem, ofUnits, finish, foldl_add_iff (fun ix => c ∈ ix.modules) step,
    exists_definition_iff]
  constructor
  · rintro (h | h)
    · cases h
    · exact h
  · exact .inr

/-- An alias of the index is one that a module's own code records. -/
theorem exists_of_alias {k target : String} (h : (ofUnits units).aliases.find? k = some target) :
    ∃ s info, Defines units s info ∧ s.name = Symbol.bodyName ∧
      ∃ a ∈ info.aliases.entries, k = Dotted.below s.scope a.1 ∧ target = a.2 := by
  have key : ∀ (ds : List (Symbol × Meta)) (ix : Index),
      (ds.foldl add ix).aliases.find? k = some target →
      ix.aliases.find? k = some target ∨ ∃ d ∈ ds, d.1.name = Symbol.bodyName ∧
        ∃ a ∈ d.2.aliases.entries, k = Dotted.below d.1.scope a.1 ∧ target = a.2 := by
    intro ds
    induction ds with
    | nil => exact fun ix h => .inl h
    | cons d rest ih =>
      intro ix h
      obtain ⟨a, info⟩ := d
      rcases ih _ h with h | ⟨d, hd, h⟩
      · rw [add_aliases] at h
        split_ifs at h with ha
        · rcases Table.find?_foldl_insert (fun b : String × String => Dotted.below a.scope b.1)
            (·.2) _ _ h with h | h
          · exact .inl h
          · exact .inr ⟨(a, info), List.mem_cons_self, ha, h⟩
        · exact .inl h
      · exact .inr ⟨d, List.mem_cons_of_mem _ hd, h⟩
  rcases key _ _ h with h | h
  · cases h
  · exact exists_definition_iff.1 h

/-! ## Following aliases -/

/-- A dotted name with all but its last `k` segments replaced, if they are an alias. -/
def replaced? (aliases : Table String String) (dotted : String) (k : Nat) : Option String :=
  let parts := Dotted.segments dotted
  let head := Dotted.join (parts.take (parts.length - k))
  (aliases.find? head).bind fun target =>
    if target ≠ "" && target ≠ head then
      let tail := Dotted.join (parts.drop (parts.length - k))
      some (if tail = "" then target else Dotted.below target tail)
    else none

theorem replaceHead_eq (aliases : Table String String) (dotted : String) :
    replaceHead aliases dotted =
      ((List.range (Dotted.segments dotted).length).findSome? (replaced? aliases dotted)).getD
        dotted :=
  rfl

/-- One step along the aliases leaves a name as it is, or puts the target of an alias for a
beginning of it, behind which the rest is kept. An alias for nothing or for itself is passed
over. -/
theorem replaceHead_cases (aliases : Table String String) (dotted : String) :
    replaceHead aliases dotted = dotted ∨
      ∃ head target, Dotted.Encloses head dotted ∧ aliases.find? head = some target ∧
        (target ≠ "" ∧ target ≠ head) ∧
        (replaceHead aliases dotted = target ∨
          ∃ tail, dotted = Dotted.below head tail ∧
            replaceHead aliases dotted = Dotted.below target tail) := by
  rw [replaceHead_eq]
  cases hf : (List.range (Dotted.segments dotted).length).findSome? (replaced? aliases dotted) with
  | none => exact .inl rfl
  | some found =>
    obtain ⟨k, hk, hfound⟩ := List.exists_of_findSome?_eq_some hf
    obtain ⟨target, halias, hfound⟩ := Option.bind_eq_some_iff.1 hfound
    simp only at hfound
    split_ifs at hfound with hactive htail
    all_goals
      simp only [Bool.and_eq_true, decide_eq_true_eq] at hactive
      obtain rfl := Option.some_inj.1 hfound
    · exact .inr ⟨_, _, Dotted.mem_enclosing_iff.1 (List.mem_map_of_mem hk), halias,
        hactive, .inl rfl⟩
    · refine .inr ⟨_, target, Dotted.mem_enclosing_iff.1 (List.mem_map_of_mem hk), halias, hactive,
        .inr ⟨_, ?_, rfl⟩⟩
      -- a tail that is not empty comes from segments, so the name is cut in two
      have hk := List.mem_range.1 hk
      have hd : (Dotted.segments dotted).drop ((Dotted.segments dotted).length - k) ≠ [] := by
        intro h
        exact htail (by rw [h]; rfl)
      have ht : (Dotted.segments dotted).take ((Dotted.segments dotted).length - k) ≠ [] := by
        intro h
        have := congrArg List.length h
        simp at this
        omega
      rw [← Dotted.join_append ht hd, List.take_append_drop, Dotted.join_segments]

/-- A name stays as it is if every alias for a beginning of it stands for nothing or for itself. -/
theorem replaceHead_of_idle {aliases : Table String String} {dotted : String}
    (h : ∀ p target, Dotted.Encloses p dotted → aliases.find? p = some target →
      target = "" ∨ target = p) : replaceHead aliases dotted = dotted := by
  rcases replaceHead_cases aliases dotted with h' | ⟨head, target, hp, halias, ⟨hne, hself⟩, -⟩
  · exact h'
  · rcases h head target hp halias with rfl | rfl
    · exact absurd rfl hne
    · exact absurd rfl hself

/-- What one step along the aliases keeps, following them keeps. -/
theorem followAliases_induct {aliases : Table String String} (keeps : String → Prop)
    (step : ∀ d, keeps d → keeps (replaceHead aliases d)) (n : Nat) {dotted : String}
    (h : keeps dotted) : keeps (followAliases aliases n dotted) := by
  induction n generalizing dotted with
  | zero => exact h
  | succ n ih => exact ih (step dotted h)

/-- If every target has a last segment, a name with a last segment leads to one with a last
segment. -/
theorem last_followAliases {aliases : Table String String}
    (h : ∀ k target, aliases.find? k = some target → Dotted.last target ≠ "") (n : Nat)
    {dotted : String} (hd : Dotted.last dotted ≠ "") :
    Dotted.last (followAliases aliases n dotted) ≠ "" := by
  refine followAliases_induct (Dotted.last · ≠ "") (fun d hd => ?_) n hd
  rcases replaceHead_cases aliases d with he | ⟨head, target, -, halias, -, he | ⟨tail, rfl, he⟩⟩
  · rwa [he]
  · rw [he]
    exact h _ _ halias
  · rw [he, Dotted.last_below]
    rwa [Dotted.last_below] at hd

/-! ## Resolving -/

/-- The methods of the first classes with the name are those of the first class that has any. -/
theorem mem_firstMembers_iff {ix : Index} {name : String} {classes : List String} :
    s ∈ ix.firstMembers name classes ↔
      ∃ c, classes.find? (fun c => ix.membersOf c name ≠ []) = some c ∧
        s ∈ ix.membersOf c name := by
  induction classes with
  | nil => simp [firstMembers]
  | cons c rest ih =>
    by_cases hc : ix.membersOf c name = []
    · have hskip : ix.firstMembers name (c :: rest) = ix.firstMembers name rest := by
        simp [firstMembers, hc]
      rw [hskip, ih, List.find?_cons_of_neg (by simp [hc])]
    · have htake : ix.firstMembers name (c :: rest) = ix.membersOf c name := by
        simp [firstMembers, hc]
      rw [htake, List.find?_cons_of_pos (by simp [hc])]
      simp

theorem mem_overriders_iff {ix : Index} {c name : String} :
    s ∈ ix.overriders c name ↔ ∃ d ∈ ix.descendants c, s ∈ ix.membersOf d name :=
  List.mem_flatMap

/-- The dotted name of a callee. -/
def calleeName (callee : Symbol) : String :=
  if callee.scope = "" then callee.name else Dotted.below callee.scope callee.name

/-- The symbol outside the project that a dotted name, called with so many arguments, refers to. -/
def externalSymbol (dotted : String) (arguments : Int) : Symbol where
  scope := if (Dotted.cut dotted).1 = "" then "builtins" else (Dotted.cut dotted).1
  name := Dotted.last dotted
  arity := arguments

theorem resolve_of_neg {ix : Index} {callee : Symbol} (h : callee.arity < 0) :
    ix.resolve callee =
      if Text.startsWith callee.scope Collect.superMark then
        ix.findInherited (Text.drop callee.scope Collect.superMark.length) callee.name
      else if callee.scope = Collect.anyScope then
        if callee.arity ≤ -2 then ix.methods.findD callee.name [] else []
      else ix.resolveDotted (ix.resolveAlias (calleeName callee)) callee.arity := by
  unfold resolve
  rw [if_neg (by omega)]
  rfl

theorem resolveDotted_eq (ix : Index) (dotted : String) (arity : Int) :
    ix.resolveDotted dotted arity =
      if !(ix.membersOf (Dotted.cut dotted).1 (Dotted.cut dotted).2).isEmpty then
        ix.membersOf (Dotted.cut dotted).1 (Dotted.cut dotted).2 ++
          if ix.classes.contains (Dotted.cut dotted).1 then
            ix.overriders (Dotted.cut dotted).1 (Dotted.cut dotted).2
          else []
      else if ix.classes.contains dotted then [Symbol.classOf dotted]
      else if ix.classes.contains (Dotted.cut dotted).1 then
        ix.findMethod (Dotted.cut dotted).1 (Dotted.cut dotted).2 ++
          ix.overriders (Dotted.cut dotted).1 (Dotted.cut dotted).2
      else if ix.isInside dotted || arity = -1 then []
      else [externalSymbol dotted (argumentCount arity)] :=
  rfl

/-- What a dotted name refers to: a definition, a class, or, for a call, something outside. -/
theorem resolveDotted_cases {ix : Index} {dotted : String} {arity : Int}
    (h : s ∈ ix.resolveDotted dotted arity) :
    (∃ c name, s ∈ ix.membersOf c name) ∨ (∃ c, ix.classes.contains c = true ∧ s = .classOf c) ∨
      arity ≠ -1 ∧ ix.isInside dotted = false ∧
        s = externalSymbol dotted (argumentCount arity) := by
  rw [resolveDotted_eq] at h
  split_ifs at h with hfound hclass hscope hscope hin
  · rcases List.mem_append.1 h with h | h
    · exact .inl ⟨_, _, h⟩
    · obtain ⟨d, -, h⟩ := mem_overriders_iff.1 h
      exact .inl ⟨_, _, h⟩
  · exact .inl ⟨_, _, by simpa using h⟩
  · exact .inr (.inl ⟨_, hscope, List.mem_singleton.1 h⟩)
  · rcases List.mem_append.1 h with h | h
    · obtain ⟨c, -, h⟩ := mem_firstMembers_iff.1 h
      exact .inl ⟨_, _, h⟩
    · obtain ⟨d, -, h⟩ := mem_overriders_iff.1 h
      exact .inl ⟨_, _, h⟩
  · cases h
  · simp only [Bool.or_eq_true, decide_eq_true_eq, not_or] at hin
    exact .inr (.inr ⟨hin.2, by simpa using hin.1, List.mem_singleton.1 h⟩)

/-- **What an unresolved callee may stand for**: a definition of the project, or, for a call whose
dotted name lies outside all modules, an external symbol that takes the arguments of the call. -/
theorem resolve_cases {callee : Symbol} (hneg : callee.arity < 0)
    (h : s ∈ (ofUnits units).resolve callee) :
    (∃ info, Defines units s info) ∨
      callee.arity ≤ -2 ∧
        (ofUnits units).isInside ((ofUnits units).resolveAlias (calleeName callee)) = false ∧
        s = externalSymbol ((ofUnits units).resolveAlias (calleeName callee))
          (-2 - callee.arity) := by
  have member : ∀ {c name : String}, s ∈ (ofUnits units).membersOf c name →
      ∃ info, Defines units s info := fun h => (mem_membersOf_iff.1 h).2.2.2
  rw [resolve_of_neg hneg] at h
  split_ifs at h with hsuper hany hcall
  · obtain ⟨c, -, h⟩ := mem_firstMembers_iff.1 h
    exact .inl (member h)
  · obtain ⟨-, -, info, hd, -⟩ := mem_methods_iff.1 h
    exact .inl ⟨info, hd⟩
  · cases h
  · rcases resolveDotted_cases h with ⟨c, name, h⟩ | ⟨c, hc, rfl⟩ | ⟨ha, hin, hs⟩
    · exact .inl (member h)
    · exact .inl (contains_classes_iff.1 hc)
    · have hcount : argumentCount callee.arity = -2 - callee.arity := by
        simp only [argumentCount]
        omega
      exact .inr ⟨by omega, hin, hcount ▸ hs⟩

end Index

end Deadwood.Project
