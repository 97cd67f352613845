import Mathlib.Data.List.TakeWhile
import Deadwood.Project.Collection
import Deadwood.Proofs.Dotted

/-!
# Documentation without text

The facts of a definition have the first line of its documentation. A documentation that is white
space alone has no such line; if all of its white space stands on its first line, or the other lines
are empty, it counts as none, but otherwise its module cannot be collected and the run ends.

* `BlankText` says which texts do that, of the text as it is written. `summary_eq_blank_iff`
  compares this with what is left of the text without its indentation.
* `Stmt.bodies` are the bodies whose documentation is looked at: those of the functions and classes
  that do not stand inside a function.
* `collect_cases`: what becomes of a file.
* `collectAll_placed`: all sources are collected, reused or have failed, each of them in one of
  these ways, unless some file with such a documentation has to be collected anew.
-/

namespace Deadwood.Text

/-! ## White space -/

/-- What is dropped does not matter to a property that it has. -/
theorem forall_dropWhile_iff {α : Type} {p : α → Bool} {P : α → Prop} (h : ∀ a, p a = true → P a)
    (xs : List α) :
    (∀ a ∈ xs.dropWhile p, P a) ↔ ∀ a ∈ xs, P a := by
  induction xs with
  | nil => rfl
  | cons x rest ih =>
    rw [List.dropWhile_cons]
    split_ifs with hx
    · rw [ih, List.forall_mem_cons, and_iff_right (h x hx)]
    · rfl

theorem trim_eq_empty_iff {s : String} : trim s = "" ↔ ∀ c ∈ s.toList, isBlank c = true := by
  have hblank := forall_dropWhile_iff (P := fun c => isBlank c = true) (fun _ h => h)
  rw [trim, ← String.ofList_nil, String.ofList_inj, List.reverse_eq_nil_iff, ← hblank s.toList]
  constructor
  · intro h c hc
    refine (hblank _).1 (fun c hc => ?_) c (List.mem_reverse.2 hc)
    rw [← dropBlank, ← dropBlank, h] at hc
    cases hc
  · exact fun h => List.dropWhile_eq_nil_iff.2 fun c hc => h c (List.mem_reverse.1 hc)

/-! ## Tabs -/

/-- Tabs become blanks, and nothing else changes. -/
theorem forall_expandFrom_iff {P : Char → Prop} (htab : P '\t' ↔ P ' ') (cs : List Char)
    (column : Nat) (marked : Bool) :
    (∀ c ∈ expandFrom column marked cs, P c) ↔ ∀ c ∈ cs, P c := by
  induction cs generalizing column marked with
  | nil => simp [expandFrom]
  | cons c rest ih =>
    rw [expandFrom]
    split_ifs with hc hline hmark
    · have hfill : 8 - column % 8 ≠ 0 := by omega
      simp [List.mem_replicate, hfill, ih, hc, htab]
    · simp [ih]
    · simp [ih]
    · simp [ih]

theorem dropWhile_expandFrom (cs : List Char) (column : Nat) (marked : Bool) :
    ∃ k half, (expandFrom column marked cs).dropWhile (· ≠ '\n') =
      expandFrom k half (cs.dropWhile (· ≠ '\n')) := by
  induction cs generalizing column marked with
  | nil => exact ⟨column, marked, rfl⟩
  | cons c rest ih =>
    by_cases hend : c = '\n'
    · subst hend
      exact ⟨column, marked, by simp [expandFrom]⟩
    · rw [expandFrom, List.dropWhile_cons_of_pos (by simpa using hend)]
      split_ifs with htab hline hmark
      · rw [List.dropWhile_append_of_pos (by simp)]
        exact ih _ _
      · rw [List.dropWhile_cons_of_pos (by simpa using hend)]
        exact ih _ _
      · rw [List.dropWhile_cons_of_pos (by simpa using hend)]
        exact ih _ _
      · rw [List.dropWhile_cons_of_pos (by simpa using hend)]
        exact ih _ _

/-! ## Lines -/

/-- The first piece is what stands before the first `c`; the others have what stands behind it. -/
theorem splitChars_eq_cons (c : Char) (cs : List Char) :
    ∃ pieces, splitChars c cs = cs.takeWhile (· ≠ c) :: pieces ∧
      pieces.flatten = (cs.dropWhile (· ≠ c)).filter (· ≠ c) := by
  induction cs with
  | nil => exact ⟨[], rfl, rfl⟩
  | cons x rest ih =>
    obtain ⟨pieces, hsplit, hpieces⟩ := ih
    by_cases hx : x = c
    · refine ⟨splitChars c rest, by simp [splitChars, hx], ?_⟩
      have hbefore : (rest.takeWhile (· ≠ c)).filter (· ≠ c) = rest.takeWhile (· ≠ c) :=
        List.filter_eq_self.2 fun x h => List.mem_takeWhile_imp (x := x) h
      rw [hsplit, List.flatten_cons, hpieces, ← hbefore, ← List.filter_append,
        List.takeWhile_append_dropWhile]
      simp [hx]
    · refine ⟨pieces, ?_, ?_⟩
      · rw [splitChars, if_neg hx, hsplit, List.takeWhile_cons_of_pos (by simpa using hx)]
      · rw [hpieces, List.dropWhile_cons_of_pos (by simpa using hx)]

theorem forall_lines_iff {P : Char → Prop} (ls : List String) :
    (∀ c ∈ ("\n".intercalate ls).toList, P c) ↔
      (∀ l ∈ ls, ∀ c ∈ l.toList, P c) ∧ (1 < ls.length → P '\n') := by
  rw [String.toList_intercalate]
  induction ls with
  | nil => simp
  | cons l rest ih =>
    cases rest with
    | nil => simp
    | cons l' rest =>
      rw [List.map_cons, List.map_cons, List.intercalate_cons_cons, ← List.map_cons]
      simp only [List.forall_mem_append, List.forall_mem_cons, ih]
      simp
      tauto

end Deadwood.Text

namespace Deadwood.Source

/-! ## Blank documentation -/

/-- A text of white space alone that has more than line breaks behind its first line. -/
def BlankText (s : String) : Prop :=
  (∀ c ∈ s.toList, Text.isBlank c = true) ∧ ∃ c ∈ s.toList.dropWhile (· ≠ '\n'), c ≠ '\n'

instance (s : String) : Decidable (BlankText s) := inferInstanceAs (Decidable (_ ∧ _))

theorem forall_dropEmptyEnds_iff {P : String → Prop} (h : P "") (ls : List String) :
    (∀ l ∈ dropEmptyEnds ls, P l) ↔ ∀ l ∈ ls, P l := by
  have hdrop := Text.forall_dropWhile_iff (p := fun l : String => decide (l = "")) (P := P)
    fun l hl => of_decide_eq_true hl ▸ h
  rw [dropEmptyEnds, hdrop]
  simp only [List.mem_reverse]
  rw [hdrop]
  simp only [List.mem_reverse]

/-- The lines are joined to nothing only if all of them are empty. -/
theorem intercalate_dropEmptyEnds_eq_empty_iff (ls : List String) :
    "\n".intercalate (dropEmptyEnds ls) = "" ↔ ∀ l ∈ ls, l = "" := by
  have hall := forall_dropEmptyEnds_iff (P := (· = "")) rfl ls
  constructor
  · intro h
    have hnone := (Text.forall_lines_iff (P := fun _ => False) (dropEmptyEnds ls)).1 (by simp [h])
    refine hall.1 fun l hl => ?_
    rw [← String.toList_eq_nil_iff, List.eq_nil_iff_forall_not_mem]
    exact hnone.1 l hl
  · intro h
    have hnil : dropEmptyEnds ls = [] := by
      rw [dropEmptyEnds, List.dropWhile_eq_nil_iff.2 fun l hl =>
        decide_eq_true (h l (List.mem_reverse.1 hl))]
      rfl
    rw [hnil]
    rfl

/-- The shared indentation of lines is no greater than that of any of them, so that it cuts off
blanks only. -/
theorem forall_blank_drop_iff (ls : List String) :
    (∀ l ∈ ls, ∀ c ∈ (Text.drop l (sharedIndentation ls)).toList, Text.isBlank c = true) ↔
      ∀ l ∈ ls, ∀ c ∈ l.toList, Text.isBlank c = true := by
  refine ⟨fun h l hl => ?_, fun h l hl c hc => ?_⟩
  · cases hindent : indentation? l with
    | none => simpa [indentation?] using hindent
    | some k =>
      have hk : k = (l.toList.takeWhile Text.isBlank).length := by
        rw [indentation?] at hindent
        split_ifs at hindent with hall
        exact (Option.some.inj hindent).symm
      have hmin : sharedIndentation ls ≤ k := by
        have hmem : k ∈ ls.filterMap indentation? := List.mem_filterMap.2 ⟨l, hl, hindent⟩
        rw [sharedIndentation]
        cases hleast : (ls.filterMap indentation?).min? with
        | none => exact Nat.zero_le k
        | some least => exact (List.min?_eq_some_iff.1 hleast).2 k hmem
      -- what stands behind the blanks of a line is left when the shared indentation is cut off
      refine (Text.forall_dropWhile_iff (fun _ hc => hc) _).1 fun c hc => h l hl c ?_
      have hdrop : l.toList.drop k = l.toList.dropWhile Text.isBlank := by
        have hleft :=
          @List.drop_left _ (l.toList.takeWhile Text.isBlank) (l.toList.dropWhile Text.isBlank)
        rwa [List.takeWhile_append_dropWhile, ← hk] at hleft
      rw [← hdrop] at hc
      rw [Text.drop, String.toList_ofList]
      exact (List.drop_subset_drop_left _ hmin) hc
  · rw [Text.drop, String.toList_ofList] at hc
    exact h l hl c (List.drop_subset _ _ hc)

theorem sharedIndentation_of_blank {ls : List String}
    (h : ∀ l ∈ ls, ∀ c ∈ l.toList, Text.isBlank c = true) :
    sharedIndentation ls = 0 := by
  have hnone : ls.filterMap indentation? = [] := by
    rw [List.filterMap_eq_nil_iff]
    intro l hl
    rw [indentation?, if_pos (List.all_eq_true.2 (h l hl))]
  rw [sharedIndentation, hnone]
  rfl

theorem cleaned_blank_iff_lines {s first : String} {rest : List String}
    (hlines : Text.splitOn '\n' (Text.expandTabs s) = first :: rest) :
    (cleaned s ≠ "" ∧ Text.trim (cleaned s) = "") ↔
      ((∀ c ∈ first.toList, Text.isBlank c = true) ∧
        ∀ l ∈ rest, ∀ c ∈ l.toList, Text.isBlank c = true) ∧
        ∃ l ∈ rest, l ≠ "" := by
  have hclean : cleaned s = "\n".intercalate
      (dropEmptyEnds (Text.trimLeft first :: rest.map (Text.drop · (sharedIndentation rest)))) := by
    rw [cleaned, hlines]
  have hall : Text.trim (cleaned s) = "" ↔
      (∀ c ∈ first.toList, Text.isBlank c = true) ∧ ∀ l ∈ rest, ∀ c ∈ l.toList,
        Text.isBlank c = true := by
    rw [hclean, Text.trim_eq_empty_iff, Text.forall_lines_iff, and_iff_left fun _ => by decide,
      forall_dropEmptyEnds_iff (P := fun l => ∀ c ∈ l.toList, Text.isBlank c = true) (by simp),
      List.forall_mem_cons, List.forall_mem_map, forall_blank_drop_iff, Text.trimLeft,
        String.toList_ofList,
      Text.dropBlank, Text.forall_dropWhile_iff fun _ hc => hc]
  rw [hall, and_comm]
  -- in white space nothing is indented, and the first line is cut off whole
  refine and_congr_right fun ⟨hfirst, hrest⟩ => ?_
  have hnone : Text.trimLeft first = "" := by
    rw [Text.trimLeft, Text.dropBlank, List.dropWhile_eq_nil_iff.2 hfirst, String.ofList_nil]
  have hsame : rest.map (Text.drop · (sharedIndentation rest)) = rest := by
    rw [sharedIndentation_of_blank hrest]
    simp [Text.drop]
  rw [ne_eq, hclean, intercalate_dropEmptyEnds_eq_empty_iff, hsame, hnone]
  simp

theorem forall_mem_map_ofList {P : Char → Prop} (pieces : List (List Char)) :
    (∀ l ∈ pieces.map String.ofList, ∀ c ∈ l.toList, P c) ↔ ∀ c ∈ pieces.flatten, P c := by
  simp only [List.forall_mem_map, String.toList_ofList, List.mem_flatten]
  exact ⟨fun h c ⟨l, hl, hc⟩ => h l hl c hc, fun h l hl c hc => h c ⟨l, hl, hc⟩⟩

/-- What is left of a documentation without its indentation is white space, and more than nothing,
exactly if the documentation is a blank text. -/
theorem cleaned_blank_iff (s : String) :
    (cleaned s ≠ "" ∧ Text.trim (cleaned s) = "") ↔ BlankText s := by
  obtain ⟨pieces, hsplit, hpieces⟩ :=
    Text.splitChars_eq_cons '\n' (Text.expandFrom 0 false s.toList)
  obtain ⟨k, half, htail⟩ := Text.dropWhile_expandFrom s.toList 0 false
  have hlines : Text.splitOn '\n' (Text.expandTabs s) =
      .ofList ((Text.expandFrom 0 false s.toList).takeWhile (· ≠ '\n')) :: pieces.map .ofList := by
    rw [Text.splitOn, Text.expandTabs, String.toList_ofList, hsplit, List.map_cons]
  have hblank :
    ((∀ c ∈ (Text.expandFrom 0 false s.toList).takeWhile (· ≠ '\n'), Text.isBlank c = true) ∧
      ∀ l ∈ pieces.map String.ofList, ∀ c ∈ l.toList, Text.isBlank c = true) ↔
      ∀ c ∈ s.toList, Text.isBlank c = true := by
    have hend (cs : List Char) : (∀ c ∈ cs.filter (· ≠ '\n'), Text.isBlank c = true) ↔
        ∀ c ∈ cs, Text.isBlank c = true := by
      refine ⟨fun h c hc => ?_, fun h c hc => h c (List.mem_filter.1 hc).1⟩
      by_cases hne : c = '\n'
      · rw [hne]
        decide
      · exact h c (List.mem_filter.2 ⟨hc, decide_eq_true hne⟩)
    rw [← Text.forall_expandFrom_iff (by decide) s.toList 0 false, forall_mem_map_ofList,
      hpieces, hend,
      ← List.forall_mem_append, List.takeWhile_append_dropWhile]
  have hmore : (∃ l ∈ pieces.map String.ofList, l ≠ "") ↔ ∃ c ∈ s.toList.dropWhile (· ≠ '\n'),
      c ≠ '\n' := by
    have hempty : (∀ l ∈ pieces.map String.ofList, l = "") ↔ ∀ c ∈ s.toList.dropWhile (· ≠ '\n'),
        c = '\n' := by
      have hnone := forall_mem_map_ofList (P := fun _ => False) pieces
      simp only [imp_false, ← List.eq_nil_iff_forall_not_mem, String.toList_eq_nil_iff] at hnone
      rw [← Text.forall_expandFrom_iff (P := (· = '\n')) (by decide) _ k half, ← htail,
        hnone, hpieces,
        List.filter_eq_nil_iff]
      simp
    simpa using not_congr hempty
  rw [cleaned_blank_iff_lines hlines, hmore, String.toList_ofList, hblank, BlankText]

theorem summary_eq_blank_iff (body : List Stmt) :
    summary body = .blank ↔ ∃ s, documentation? body = some s ∧ BlankText s := by
  rw [summary]
  cases hdoc : documentation? body with
  | none => simp
  | some s =>
    simp only [Option.some.injEq, exists_eq_left', ← cleaned_blank_iff]
    split_ifs with hempty hwhite
    · simp [hempty]
    · simp [hempty, hwhite]
    · simp [hwhite]

/-! ## Where documentation is looked at -/

mutual

/-- The bodies of the functions and classes in a statement that stand outside of functions. -/
def Stmt.bodies : Stmt → List (List Stmt)
  | .function _ _ _ _ body => [body]
  | .classDef _ _ _ _ _ body => body :: bodiesAll body
  | .block _ clauses => bodiesClauses clauses
  | _ => []

/-- The bodies of the functions and classes in statements. -/
def Stmt.bodiesAll : List Stmt → List (List Stmt)
  | [] => []
  | s :: rest => s.bodies ++ bodiesAll rest

/-- The bodies of the functions and classes in clauses. -/
def Stmt.bodiesClauses : List Clause → List (List Stmt)
  | [] => []
  | .mk _ body :: rest => bodiesAll body ++ bodiesClauses rest

end

/-- The documentation of a module, or of a function or class outside of functions, is a blank
text. -/
def HasBlankText (body : List Stmt) : Prop :=
  ∃ b ∈ body :: Stmt.bodiesAll body, ∃ s, documentation? b = some s ∧ BlankText s

end Deadwood.Source

namespace Deadwood.Collect

open Source (Stmt Clause Summary summary)

/-- Whether an event defines something with a blank documentation. -/
def Event.isBlank : Event → Bool
  | .define _ _ doc _ => doc = .blank
  | .use .. => false

/-- Whether the documentation of a body is blank. -/
def isBlankBody (body : List Stmt) : Bool := summary body = .blank

@[simp] theorem inFunction_insideFunction (p : Place) (f : Symbol) :
    (p.insideFunction f).inFunction = true := rfl

@[simp] theorem inFunction_insideClass (p : Place) (c : Enclosure) :
    (p.insideClass c).inFunction = p.inFunction := rfl

theorem isBlank_functionEvent (p : Place) (line : Nat) (name : String)
    (parameters : Source.Parameters) (decorators : List Source.Expr) (body : List Stmt) :
    (functionEvent p line name parameters decorators body).isBlank = isBlankBody body := rfl

theorem any_isBlank_useEvents (p : Place) (n : Names) (es : List Source.Expr) :
    (useEvents p n es).any Event.isBlank = false := by
  simp [useEvents, Event.isBlank]

theorem any_isBlank_classEvents (p : Place) (c : Enclosure) (line : Nat) (name : String)
    (decorators : List Source.Expr) (body : List Stmt) :
    (classEvents p c line name decorators body).any Event.isBlank = isBlankBody body := by
  rw [classEvents, List.any_cons]
  split_ifs <;> simp [Event.isBlank, isBlankBody]

mutual

/-- A walk finds a blank documentation where the statement has one, and never in a function. -/
theorem any_isBlank_walk (p : Place) (n : Names) (s : Stmt) :
    (walk p n s).1.any Event.isBlank = (!p.inFunction && s.bodies.any isBlankBody) := by
  cases s with
  | function line name parameters decorators body =>
    rw [walk]
    -- a function in a function defines nothing; any other one does, and hides what is inside
    cases hp : p.inFunction with
    | true => simp [any_isBlank_useEvents, any_isBlank_walkAll p, hp]
    | false =>
      simp [any_isBlank_useEvents, isBlank_functionEvent, any_isBlank_walkAll (p.insideFunction _),
        Stmt.bodies]
  | classDef line name bases keywords decorators body =>
    rw [walk]
    cases hp : p.inFunction with
    | true => simp [any_isBlank_useEvents, any_isBlank_walkAll p, hp]
    | false =>
      simp [any_isBlank_useEvents, any_isBlank_classEvents, any_isBlank_walkAll (p.insideClass _),
        hp, Stmt.bodies]
  | importModules names => simp [walk, Stmt.bodies]
  | importFrom level module names => simp [walk, Stmt.bodies]
  | assign targets value => simp [walk, any_isBlank_useEvents, Stmt.bodies]
  | augment target value => simp [walk, any_isBlank_useEvents, Stmt.bodies]
  | declare target hint value => simp [walk, any_isBlank_useEvents, Stmt.bodies]
  | evaluate value => simp [walk, any_isBlank_useEvents, Stmt.bodies]
  | simple parts => simp [walk, any_isBlank_useEvents, Stmt.bodies]
  | block form clauses => rw [walk, any_isBlank_walkClauses, Stmt.bodies]

theorem any_isBlank_walkAll (p : Place) (n : Names) (body : List Stmt) :
    (walkAll p n body).1.any Event.isBlank =
      (!p.inFunction && (Stmt.bodiesAll body).any isBlankBody) := by
  cases body with
  | nil => simp [walkAll, Stmt.bodiesAll]
  | cons s rest =>
    simp [walkAll, Stmt.bodiesAll, any_isBlank_walk p n s, any_isBlank_walkAll p _ rest,
      Bool.and_or_distrib_left]

theorem any_isBlank_walkClauses (p : Place) (n : Names) (clauses : List Clause) :
    (walkClauses p n clauses).1.any Event.isBlank =
      (!p.inFunction && (Stmt.bodiesClauses clauses).any isBlankBody) := by
  match clauses with
  | [] => simp [walkClauses, Stmt.bodiesClauses]
  | .mk header body :: rest =>
    simp [walkClauses, Stmt.bodiesClauses, any_isBlank_useEvents, any_isBlank_walkAll p n body,
      any_isBlank_walkClauses p _ rest, Bool.and_or_distrib_left]

end

/-! ## Files -/

theorem isOk_eventFact (unit : String) (names : List String) (e : Event) :
    (eventFact unit names e).isOk = !e.isBlank := by
  cases e with
  | define symbol info doc top => cases doc <;> rfl
  | use caller callee line => rfl

theorem isOk_mapM_eventFact (unit : String) (names : List String) (events : List Event) :
    (events.mapM (eventFact unit names)).isOk = !events.any Event.isBlank := by
  induction events with
  | nil => rfl
  | cons e rest ih =>
    have he := isOk_eventFact unit names e
    rw [List.mapM_cons, List.any_cons, Bool.not_or, ← he, ← ih]
    cases eventFact unit names e with
    | error _ => rfl
    | ok fact => cases rest.mapM (eventFact unit names) <;> rfl

theorem any_isBlankBody_iff (body : List Stmt) :
    (body :: Stmt.bodiesAll body).any isBlankBody = true ↔ Source.HasBlankText body := by
  have hbody (b : List Stmt) : isBlankBody b = true ↔
      ∃ s, Source.documentation? b = some s ∧ Source.BlankText s := by
    rw [isBlankBody, decide_eq_true_iff, Source.summary_eq_blank_iff]
  simp only [List.any_eq_true, hbody, Source.HasBlankText]

instance : DecidablePred Source.HasBlankText := fun body =>
  decidable_of_iff _ (any_isBlankBody_iff body)

theorem isOk_factsOf (module unit : String) (isPackage : Bool) (body : List Stmt) :
    (factsOf module unit isPackage body).isOk = true ↔ ¬ Source.HasBlankText body := by
  have hany : (factsOf module unit isPackage body).isOk =
      !(body :: Stmt.bodiesAll body).any isBlankBody := by
    rw [factsOf, isOk_mapM_eventFact, List.any_cons, List.any_cons, any_isBlank_walkAll]
    rfl
  rw [hany, ← any_isBlankBody_iff, Bool.not_eq_true', ← Bool.not_eq_true]

variable (statements : List UInt8 → Except Source.Fault (List Stmt))

/-- The content of a source file that has a documentation without text; `statements` reads
sources. -/
def HasBlank (content : List UInt8) : Prop :=
  ∃ body, statements content = .ok body ∧ Source.HasBlankText body

instance (content : List UInt8) : Decidable (HasBlank statements content) :=
  decidable_of_iff (∃ body ∈ (statements content).toOption, Source.HasBlankText body) (by
    rw [HasBlank]
    cases statements content <;> simp [Except.toOption])

/-- **What becomes of a file**: its facts are collected, or it is no module that can be analysed, or
it has a documentation without text. -/
theorem collect_cases (module unit : String) (content : List UInt8) :
    (∃ u, collect statements module unit content = .ok u ∧ u.unit = unit ∧
      ¬ HasBlank statements content) ∨
    (∃ f, collect statements module unit content = .error (.fault f) ∧
      ¬ HasBlank statements content) ∨
    (collect statements module unit content = .error .blankDocumentation ∧
      HasBlank statements content) := by
  have hisOk := isOk_factsOf module unit (isPackageUnit unit)
  simp only [collect, HasBlank]
  cases statements content with
  | error f => exact .inr (.inl ⟨f, rfl, by simp⟩)
  | ok body =>
    specialize hisOk body
    simp only [Except.ok.injEq, exists_eq_left']
    cases hfacts : factsOf module unit (isPackageUnit unit) body with
    | error _ =>
      rw [hfacts] at hisOk
      exact .inr (.inr ⟨rfl, not_not.1 fun h => nomatch hisOk.2 h⟩)
    | ok facts =>
      rw [hfacts] at hisOk
      exact .inl ⟨_, rfl, rfl, hisOk.1 rfl⟩

end Deadwood.Collect

namespace Deadwood.Project

open Collect

variable (statements : List UInt8 → Except Source.Fault (List Source.Stmt))

/-- The unit of a source. -/
def Collected.unit : Collected → String
  | .reused u | .fresh u => u.unit
  | .failed unit _ => unit

/-- A file that has to be collected anew and has a documentation without text. -/
def EndsRun (previous : Manifest) (s : SourceText) : Prop :=
  ∃ content, s.content = .ok content ∧ reusable? previous s.source content = none ∧
    HasBlank statements content

/-- One source: it keeps its unit, and it ends the run only in the one way. -/
theorem collectOne_cases (previous : Manifest) (s : SourceText) :
    (collectOne statements previous s).unit = s.source.unit ∧
      ((collectOne statements previous s).isBlank = true ↔ EndsRun statements previous s) := by
  simp only [collectOne, EndsRun]
  cases s.content with
  | error e => exact ⟨rfl, by simp [Collected.isBlank]⟩
  | ok content =>
    simp only [Except.ok.injEq, exists_eq_left']
    cases reusable? previous s.source content with
    | some e => exact ⟨rfl, by simp [Collected.isBlank]⟩
    | none =>
      rcases collect_cases statements s.source.module s.source.unit content with
        ⟨u, hu, hunit, hnot⟩ | ⟨f, hf, hnot⟩ | ⟨hb, h⟩
      · simp [hu, Collected.unit, hunit, Collected.isBlank, hnot]
      · simp [hf, Collected.unit, Collected.isBlank, hnot]
      · simp [hb, Collected.unit, Collected.isBlank, h]

/-- Every source is in exactly one of the three lists. -/
theorem perm_map_unit (c : Collection) :
    (c.filterMap Collected.fresh? ++ c.filterMap Collected.reused? ++ c.failed.map (·.1)).Perm
      (c.map Collected.unit) := by
  induction c with
  | nil => exact .refl _
  | cons x rest ih =>
    cases x with
    | fresh u => exact ih.cons u.unit
    | reused u => exact ((List.perm_middle.append_right _).trans (ih.cons u.unit))
    | failed unit reason => exact List.perm_middle.trans (ih.cons unit)

variable {statements} in
theorem collectAll_eq_ok_iff {previous : Manifest} {sources : List SourceText} {c : Collection} :
    collectAll statements previous sources = .ok c ↔
      c = sources.map (collectOne statements previous) ∧
        ∀ s ∈ sources, ¬ EndsRun statements previous s := by
  have hany : (sources.map (collectOne statements previous)).any Collected.isBlank = true ↔
      ¬ ∀ s ∈ sources, ¬ EndsRun statements previous s := by
    simp [List.any_map, (collectOne_cases statements previous _).2]
  rw [collectAll]
  split_ifs with h
  · simp [hany.1 h]
  · rw [hany, not_not] at h
    rw [Except.ok.injEq, eq_comm, and_iff_left h]

/-- **Only a documentation without text ends a run**, whatever parser reads the sources. A file
fails in this way exactly if it has such a documentation, and otherwise it is collected or it is no
module. The sources of a project can be collected exactly if no such file has to be collected anew,
and then each of them was collected, was reused or has failed. -/
theorem collectAll_placed (previous : Manifest) (sources : List SourceText) :
    (∀ module unit content,
      (collect statements module unit content = .error .blankDocumentation ↔
        HasBlank statements content) ∧
      (¬ HasBlank statements content →
        (∃ u, collect statements module unit content = .ok u) ∨
          ∃ f, collect statements module unit content = .error (.fault f))) ∧
    ((∃ c, collectAll statements previous sources = .ok c) ↔
      ∀ s ∈ sources, ¬ EndsRun statements previous s) ∧
    ∀ c, collectAll statements previous sources = .ok c →
      (c.filterMap Collected.fresh? ++ c.filterMap Collected.reused? ++ c.failed.map (·.1)).Perm
        (sources.map (·.source.unit)) := by
  refine ⟨fun module unit content => ?_, by simp [collectAll_eq_ok_iff], fun c hc => ?_⟩
  · rcases collect_cases statements module unit content with
      ⟨u, hu, -, hnot⟩ | ⟨f, hf, hnot⟩ | ⟨hb, h⟩
    · exact ⟨by simp [hu, hnot], fun _ => .inl ⟨u, hu⟩⟩
    · exact ⟨by simp [hf, hnot], fun _ => .inr ⟨f, hf⟩⟩
    · exact ⟨by simp [hb, h], fun hnot => absurd h hnot⟩
  · obtain ⟨rfl, -⟩ := collectAll_eq_ok_iff.1 hc
    refine (perm_map_unit _).trans (.of_eq ?_)
    rw [List.map_map]
    exact List.map_congr_left fun s _ => (collectOne_cases statements previous s).1

/-- The text `'\n '`, a documentation of two lines. -/
def blankText : List UInt8 := [0x27, 0x5c, 0x6e, 0x20, 0x27]

/-- Three sources: one whose documentation has no text, an empty one, and one that cannot be
read. -/
def threeSources : List SourceText :=
  [⟨⟨"a.py", "a"⟩, .ok blankText⟩, ⟨⟨"b.py", "b"⟩, .ok []⟩,
    ⟨⟨"c.py", "c"⟩, .error ⟨.missing, .ofText "c.py"⟩⟩]

/-- A manifest with an entry for the first of them. -/
def firstKept : Manifest := ⟨[("a.py", ⟨digest blankText, "a", []⟩)]⟩

theorem hasBlank_blankText : HasBlank Source.read blankText := by decide +kernel

theorem not_hasBlank_nil : ¬ HasBlank Source.read [] := by decide +kernel

/-- The entry for the first source still holds. -/
theorem reusable?_firstKept :
    reusable? firstKept ⟨"a.py", "a"⟩ blankText = some ⟨digest blankText, "a", []⟩ := by
  rw [reusable?, show firstKept.find? "a.py" = some ⟨digest blankText, "a", []⟩ from rfl,
    Option.filter_some]
  simp

/-- The first source ends a run that has to collect it, and no run that reuses its entry. -/
theorem blankText_ends_run :
    (¬ ∃ c, collectAll Source.read ∅ threeSources = .ok c) ∧
    ∃ c, collectAll Source.read firstKept threeSources = .ok c ∧
      (c.filterMap Collected.fresh? ++ c.filterMap Collected.reused? ++ c.failed.map (·.1)).Perm
        ["a.py", "b.py", "c.py"] := by
  obtain ⟨-, hscratch, -⟩ := collectAll_placed Source.read ∅ threeSources
  obtain ⟨-, hkept, hplaced⟩ := collectAll_placed Source.read firstKept threeSources
  refine ⟨fun h => hscratch.1 h _ List.mem_cons_self ⟨blankText, rfl, rfl, hasBlank_blankText⟩, ?_⟩
  have hnone : ∀ s ∈ threeSources, ¬ EndsRun Source.read firstKept s := by
    simp only [threeSources, List.forall_mem_cons, List.not_mem_nil, false_imp_iff,
      implies_true, and_true]
    refine ⟨?_, ?_, ?_⟩
    · rintro ⟨content, hcontent, hreuse, -⟩
      cases hcontent
      rw [reusable?_firstKept] at hreuse
      cases hreuse
    · rintro ⟨content, hcontent, -, hblank⟩
      cases hcontent
      exact not_hasBlank_nil hblank
    · rintro ⟨content, hcontent, -⟩
      cases hcontent
  obtain ⟨c, hc⟩ := hkept.2 hnone
  exact ⟨c, hc, hplaced c hc⟩

end Deadwood.Project
