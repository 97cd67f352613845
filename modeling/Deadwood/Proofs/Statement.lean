import Mathlib.Data.Option.Basic
import Deadwood.Proofs.Grammar

/-!
# The names in modules that are read

The rules for patterns and statements pass names on as those for expressions do
(`yields_statementRule`), so that the names in the tree of a module are identifiers
(`allNamed_of_read`).
-/

namespace Deadwood.Source

namespace Grammar

open Rule Source.Expr

/-! ## Patterns -/

theorem keeps_seesContinuation : Keeps seesContinuation := by
  refine yields_peek.bind fun l _ => ?_
  split <;> exact .pure trivial

theorem keeps_boundName : Keeps boundName :=
  yields_name.bind fun _ _ => (keeps_guard _).andThen fun _ =>
    keeps_seesContinuation.andThen fun _ => keeps_guard _

theorem keeps_patternNumber : Keeps patternNumber := by
  refine (keeps_accept _).discard.andThen fun _ => ?_
  extract_lets number
  have hnumber : Keeps number := by
    refine yields_peek.bind fun l _ => ?_
    split
    · exact keeps_skip.andThen fun _ => .pure trivial
    · exact .failure
  refine hnumber.andThen fun _ => ?_
  refine (keeps_acceptAny _).andThen fun _ => .ite ?_ (.pure trivial)
  exact (keeps_guard _).andThen fun _ => hnumber.andThen fun _ => keeps_guard _

theorem yields_dottedRest (line : Nat) {first : Expr} (hfirst : first.Named) :
    Yields Expr.Named (dottedRest line first) := by
  refine yields_iterate (fun e he => ?_) hfirst
  refine (keeps_accept _).andThen fun _ => .ite ?_ (.pure (by simp))
  refine yields_name.bind fun field hfield => .pure ?_
  rintro _ ⟨⟩
  exact ⟨he, hfield⟩

section Pattern

variable {pattern : Rule (List Expr)} (hpattern : Yields AllNamed pattern)

include hpattern

theorem yields_classPatterns : Yields AllNamed (classPatterns pattern) := by
  unfold classPatterns
  extract_lets one
  have hone (keyword : Bool) : Yields (fun found => AllNamed found.2) (one keyword) := by
    refine yields_peekTwo.bind fun p _ => ?_
    split
    · refine keeps_skip.andThen fun _ => keeps_skip.andThen fun _ => ?_
      exact hpattern.bind fun es hes => .pure hes
    · exact (keeps_guard _).andThen fun _ => hpattern.bind fun es hes => .pure hes
  refine (keeps_accept _).andThen fun _ => .ite (.pure trivial) ?_
  refine (hone false).bind fun first hfirst => ?_
  refine (yields_iterate (P := fun found => AllNamed found.2) (fun found hfound => ?_) hfirst).bind
    fun all hall => (keeps_mark _).andThen fun _ => .pure hall
  obtain ⟨keyword, found⟩ := found
  refine (keeps_accept _).andThen fun _ => .ite ?_ (.pure (by simp))
  refine (keeps_sees _).andThen fun _ => .ite (.pure (by simp)) ?_
  refine (hone keyword).bind fun more hmore => .pure ?_
  rintro _ ⟨⟩
  exact allNamed_append.2 ⟨hfound, hmore⟩

theorem yields_sequenceItem : Yields (fun found => AllNamed found.2) (sequenceItem pattern) := by
  refine (keeps_accept _).andThen fun _ => .ite ?_ (hpattern.bind fun es hes => .pure hes)
  refine yields_name.discard.andThen fun _ => keeps_seesContinuation.andThen fun _ => ?_
  exact (keeps_guard _).andThen fun _ => .pure trivial

theorem yields_sequenceRest {more : Lexeme → Bool} {first : Bool × List Expr}
    (hfirst : AllNamed first.2) :
    Yields (fun found => AllNamed found.1) (sequenceRest pattern more first) := by
  refine (yields_commaSeparated (yields_sequenceItem hpattern) hfirst).bind fun found hfound =>
    .pure ?_
  refine allNamed_iff.2 fun e he => ?_
  obtain ⟨item, hitem, he⟩ := List.mem_flatMap.1 he
  exact allNamed_iff.1 (hfound item hitem) e he

end Pattern

section Inner

variable {inner : Inner} (h : ∀ l, Yields Expr.Named (inner l))

include h

theorem yields_patternConstant : Yields AllNamed (patternConstant inner) := by
  refine yields_peek.bind fun l _ => ?_
  split
  · exact (yields_literals h).bind fun e he => .pure (allNamed_singleton.2 he)
  · exact (keeps_guard _).andThen fun _ => keeps_skip.andThen fun _ => .pure trivial
  · exact keeps_patternNumber.andThen fun _ => .pure trivial

theorem yields_patternKey : Yields AllNamed (patternKey inner) := by
  refine yields_peek.bind fun l hl => ?_
  split
  · rename_i id
    refine keeps_line.andThen fun line => keeps_skip.andThen fun _ =>
      (keeps_sees _).andThen fun _ => ?_
    have hname : (Expr.name line id .load).Named := hl id rfl
    refine (keeps_guard _).andThen fun _ => (yields_dottedRest line hname).bind fun e he => ?_
    exact .pure (allNamed_singleton.2 he)
  · exact yields_patternConstant h

section Pattern

variable {pattern : Rule (List Expr)} (hpattern : Yields AllNamed pattern)

include hpattern

theorem yields_mappingPattern : Yields AllNamed (mappingPattern inner pattern) := by
  unfold mappingPattern
  extract_lets entry
  have hentry (rest : Bool) : Yields (fun found => AllNamed found.2.1 ∧ AllNamed found.2.2)
      (entry rest) := by
    refine (keeps_guard _).andThen fun _ => (keeps_accept _).andThen fun _ => .ite ?_ ?_
    · exact keeps_boundName.andThen fun _ => .pure ⟨trivial, trivial⟩
    · refine (yields_patternKey h).bind fun key hkey => (keeps_mark _).andThen fun _ => ?_
      exact hpattern.bind fun value hvalue => .pure ⟨hkey, hvalue⟩
  refine (keeps_accept _).andThen fun _ => .ite (.pure trivial) ?_
  refine (hentry false).bind fun first hfirst => ?_
  refine (yields_iterate (P := fun found => AllNamed found.2.1 ∧ AllNamed found.2.2)
    (fun found hfound => ?_)
    hfirst).bind fun all hall => (keeps_mark _).andThen fun _ => .pure (allNamed_append.2 hall)
  obtain ⟨rest, keys, values⟩ := found
  refine (keeps_accept _).andThen fun _ => .ite ?_ (.pure (by simp))
  refine (keeps_sees _).andThen fun _ => .ite (.pure (by simp)) ?_
  refine (hentry rest).bind fun more hmore => .pure ?_
  rintro _ ⟨⟩
  exact ⟨allNamed_append.2 ⟨hfound.1, hmore.1⟩, allNamed_append.2 ⟨hfound.2, hmore.2⟩⟩

theorem yields_closedPattern : Yields AllNamed (closedPattern inner pattern) := by
  refine keeps_line.andThen fun line => yields_peek.bind fun l hl => ?_
  split
  · rename_i id
    have hname : (Expr.name line id .load).Named := hl id rfl
    refine keeps_skip.andThen fun _ => keeps_seesContinuation.andThen fun _ => ?_
    refine (keeps_guard _).andThen fun _ => (yields_dottedRest line hname).bind fun e he => ?_
    refine (keeps_accept _).andThen fun _ => .ite ?_ ?_
    · exact (yields_classPatterns hpattern).bind fun es hes => .pure ⟨he, hes⟩
    · refine keeps_seesContinuation.andThen fun _ => (keeps_guard _).andThen fun _ => ?_
      split
      · exact .pure trivial
      · exact .pure (allNamed_singleton.2 he)
  · refine keeps_skip.andThen fun _ => (keeps_accept _).andThen fun _ => .ite (.pure trivial) ?_
    refine (yields_sequenceItem hpattern).bind fun first hfirst => ?_
    refine (yields_sequenceRest hpattern hfirst).bind fun found hfound =>
      (keeps_guard _).andThen fun _ => ?_
    exact (keeps_mark _).andThen fun _ => .pure hfound
  · refine keeps_skip.andThen fun _ => (keeps_accept _).andThen fun _ => .ite (.pure trivial) ?_
    refine (yields_sequenceItem hpattern).bind fun first hfirst => ?_
    refine (yields_sequenceRest hpattern hfirst).bind fun found hfound => ?_
    exact (keeps_mark _).andThen fun _ => .pure hfound
  · exact keeps_skip.andThen fun _ => yields_mappingPattern h hpattern
  · exact yields_patternConstant h

theorem yields_wholePattern : Yields AllNamed (wholePattern inner pattern) := by
  have hclosed := yields_closedPattern h hpattern
  refine hclosed.bind fun first hfirst => ?_
  refine (yields_many (yields_some_or_none (keeps_accept _) hclosed)).bind fun others hothers => ?_
  have hfound : AllNamed (first ++ others.flatten) :=
    allNamed_append.2 ⟨hfirst, allNamed_flatten.2 hothers⟩
  exact (keeps_accept _).andThen fun _ =>
    .ite (keeps_boundName.andThen fun _ => .pure hfound) (.pure hfound)

end Pattern

theorem yields_patternRule (fuel : Nat) : Yields AllNamed (patternRule inner fuel) := by
  induction fuel with
  | zero => exact .failure
  | succ fuel ih => exact yields_wholePattern h ih

theorem yields_casePattern : Yields AllNamed (casePattern inner) := by
  refine yields_get.bind fun ts _ => ?_
  refine (yields_sequenceItem (yields_patternRule h _)).bind fun first hfirst => ?_
  refine (yields_sequenceRest (yields_patternRule h _) hfirst).bind fun found hfound => ?_
  exact (keeps_guard _).andThen fun _ => .pure hfound

/-! ## Simple statements -/

theorem yields_assignment {first : Expr} (hfirst : first.Named) :
    Yields (Stmt.Named anyName) (assignment inner first) := by
  refine (yields_iterate (P := fun found : List Expr × Expr => AllNamed found.1 ∧ found.2.Named)
    (fun found hfound => ?_) (a := ([], first)) ⟨trivial, hfirst⟩).bind fun found hfound =>
      .pure hfound
  obtain ⟨places, value⟩ := found
  refine (keeps_accept _).andThen fun _ => .ite ?_ (.pure (by simp))
  refine (Yields.option fun place hplace => named_of_target? true value hplace hfound.2).bind
    fun place hplace => ?_
  refine (yields_yieldOrExpressions h).bind fun value' hvalue' => .pure ?_
  rintro _ ⟨⟩
  exact ⟨allNamed_append.2 ⟨hfound.1, allNamed_singleton.2 hplace⟩, hvalue'⟩

theorem yields_expressionStatement : Yields (Stmt.Named anyName) (expressionStatement inner) := by
  refine (keeps_sees _).andThen fun _ =>
    .ite ((yields_yieldExpression h).bind fun e he => .pure he) ?_
  refine (yields_starExpressions h).bind fun first hfirst => ?_
  have hplace : Yields Expr.Named (ofOption first.singleTarget?) :=
    .option fun place hplace => named_of_singleTarget? hplace hfirst
  refine (keeps_sees _).andThen fun _ => .ite (yields_assignment h hfirst) ?_
  refine (keeps_accept _).andThen fun _ =>
    .ite ?_ ((keeps_acceptAny _).andThen fun _ => .ite ?_ (.pure hfirst))
  · refine hplace.bind fun place hplace => (h _).keeps.andThen fun _ =>
      (keeps_accept _).andThen fun _ => ?_
    refine .branch (P := fun value => ∀ e ∈ value, e.Named) ?_ (.pure (by simp)) fun value hvalue =>
      .pure ⟨hplace, hvalue⟩
    exact (yields_yieldOrExpressions h).map fun e he => by simpa using he
  · exact hplace.bind fun place hplace => (yields_yieldOrExpressions h).bind fun e he =>
      .pure ⟨hplace, he⟩

end Inner

/-- The segments of the name of a module that is imported. -/
theorem yields_dottedName : Yields (fun s => ∀ part ∈ Dotted.segments s, part ≠ "") dottedName := by
  have hsegments {id : String} (hid : Identifier id) : ∀ part ∈ Dotted.segments id, part ≠ "" := by
    rw [Dotted.segments_of_simple hid.2]
    simpa using hid.1
  refine yields_name.bind fun first hfirst => yields_iterate (fun s hs => ?_) (hsegments hfirst)
  refine (keeps_accept _).andThen fun _ => .ite ?_ (.pure (by simp))
  refine yields_name.bind fun id hid => .pure ?_
  rintro _ ⟨⟩
  have hbelow : s ++ "." ++ id = Dotted.below s id := rfl
  rw [hbelow, Dotted.segments_below]
  exact List.forall_mem_append.2 ⟨hs, hsegments hid⟩

theorem keeps_newName : Keeps newName :=
  (keeps_accept _).andThen fun _ => .ite (yields_name.map fun _ _ => trivial) (.pure trivial)

theorem yields_importedName : Yields (fun i => i.name ≠ "*" → Identifier i.name) importedName :=
  yields_name.bind fun _ hid => keeps_newName.andThen fun _ => .pure fun _ => hid

theorem yields_importedNames :
    Yields (fun is => ∀ i ∈ is, i.name ≠ "*" → Identifier i.name) importedNames := by
  refine (keeps_accept _).andThen fun _ => .ite (.pure (by simp)) ?_
  refine (keeps_accept _).andThen fun _ => .ite ?_ (yields_separated yields_importedName)
  refine yields_importedName.bind fun first hfirst => ?_
  refine (yields_commaSeparated yields_importedName hfirst).bind fun found hfound => ?_
  exact (keeps_mark _).andThen fun _ => .pure hfound

theorem keeps_leadingDots : Keeps leadingDots := by
  refine yields_iterate (fun n _ => ?_) trivial
  refine (keeps_accept _).andThen fun _ => .ite (.pure fun _ _ => trivial) ?_
  exact (keeps_accept _).andThen fun _ => .ite (.pure fun _ _ => trivial) (.pure fun _ _ => trivial)

theorem yields_importFromStatement : Yields (Stmt.Named anyName) importFromStatement := by
  refine keeps_leadingDots.andThen fun level => (keeps_sees _).andThen fun _ => ?_
  refine .branch (P := fun _ => True) (.pure trivial) yields_dottedName.keeps fun module _ => ?_
  exact (keeps_word _).andThen fun _ => yields_importedNames.bind fun names hnames => .pure hnames

theorem yields_importStatement : Yields (Stmt.Named anyName) importStatement := by
  refine (yields_separated (P := fun i : Import => ∀ part ∈ Dotted.segments i.name, part ≠ "")
    ?_).bind
    fun names hnames => .pure hnames
  exact yields_dottedName.bind fun id hid => keeps_newName.andThen fun _ => .pure hid

theorem yields_optional {l : Lexeme} {rule : Rule Expr} (hrule : Yields Expr.Named rule) :
    Yields AllNamed (optional l rule) :=
  (keeps_accept _).andThen fun _ =>
    .ite (hrule.bind fun _ he => .pure (allNamed_singleton.2 he)) (.pure trivial)

section Inner

variable {inner : Inner} (h : ∀ l, Yields Expr.Named (inner l))

include h

theorem yields_simpleStatement : Yields (Stmt.Named anyName) (simpleStatement inner) := by
  have hsimple : Yields (Stmt.Named anyName) (Pure.pure (.simple []) : Rule Stmt) := .pure trivial
  refine yields_peek.bind fun l _ => ?_
  split
  · split
    · exact keeps_skip.andThen fun _ => hsimple
    · exact keeps_skip.andThen fun _ => hsimple
    · exact keeps_skip.andThen fun _ => hsimple
    · refine keeps_skip.andThen fun _ => yields_peek.bind fun l _ => ?_
      split
      · exact .ite ((yields_starExpressions h).bind fun e he => .pure (allNamed_singleton.2 he))
          hsimple
      · exact hsimple
    · exact keeps_skip.andThen fun _ => yields_importStatement
    · exact keeps_skip.andThen fun _ => yields_importFromStatement
    · refine keeps_skip.andThen fun _ => yields_peek.bind fun l _ => ?_
      split
      · refine .ite ((h _).bind fun e he => ?_) hsimple
        exact (yields_optional (h _)).bind fun es hes => .pure ⟨he, hes⟩
      · exact hsimple
    · refine keeps_skip.andThen fun _ => (h _).bind fun e he => ?_
      exact (yields_optional (h _)).bind fun es hes => .pure ⟨he, hes⟩
    · refine keeps_skip.andThen fun _ => (yields_starExpressions h).bind fun e he => ?_
      refine (Yields.option fun place hplace => named_of_target? false e hplace he).bind
        fun place hplace => ?_
      exact .pure (allNamed_singleton.2 hplace)
    · exact keeps_skip.andThen fun _ =>
        (yields_separated yields_name).discard.andThen fun _ => hsimple
    · exact keeps_skip.andThen fun _ =>
        (yields_separated yields_name).discard.andThen fun _ => hsimple
    · exact yields_expressionStatement h
  · exact yields_expressionStatement h

theorem yields_simpleLine : Yields (Stmt.AllNamed anyName) (simpleLine inner) := by
  refine (yields_simpleStatement h).bind fun first hfirst => ?_
  refine (yields_many (P := Stmt.Named anyName) ?_).bind fun rest hrest => ?_
  · refine (keeps_accept _).andThen fun _ => .ite ?_ (.pure (by simp))
    refine (keeps_sees _).andThen fun _ => .ite (.pure (by simp)) ?_
    exact (yields_simpleStatement h).map fun s hs => by simpa using hs
  · exact (keeps_expect _).andThen fun _ => .pure ⟨hfirst, Stmt.allNamed_iff.2 hrest⟩

theorem yields_block {statement : Rule (List Stmt)}
    (hstatement : Yields (Stmt.AllNamed anyName) statement) :
    Yields (Stmt.AllNamed anyName) (block inner statement) := by
  refine (keeps_mark _).andThen fun _ => (keeps_accept _).andThen fun _ =>
    .ite ?_ (yields_simpleLine h)
  refine (keeps_expect _).andThen fun _ => hstatement.bind fun first hfirst => ?_
  refine (yields_many (P := Stmt.AllNamed anyName) ?_).bind fun rest hrest => ?_
  · refine (keeps_sees _).andThen fun _ => .ite (.pure (by simp)) ?_
    exact hstatement.map fun s hs => by simpa using hs
  · refine (keeps_expect _).andThen fun _ => .pure ?_
    exact Stmt.allNamed_append.2 ⟨hfirst, Stmt.allNamed_flatten.2 hrest⟩

/-! ## Statements with blocks -/

section Body

variable {body : Rule (List Stmt)} (hbody : Yields (Stmt.AllNamed anyName) body)

include hbody

omit h in
theorem yields_elseClause (w : String) : Yields (Clause.AllNamed anyName) (elseClause w body) :=
  (keeps_accept _).andThen fun _ =>
    .ite (hbody.bind fun _ hss => .pure ⟨⟨trivial, hss⟩, trivial⟩) (.pure trivial)

theorem yields_branches : Yields (Stmt.Named anyName) (branches inner body) := by
  refine (yields_namedExpression h).bind fun test htest => hbody.bind fun first hfirst => ?_
  refine (yields_many (P := Clause.Named anyName) ?_).bind fun others hothers => ?_
  · refine (keeps_accept _).andThen fun _ => .ite ?_ (.pure (by simp))
    refine (yields_namedExpression h).bind fun test htest => hbody.bind fun ss hss => .pure ?_
    rintro _ ⟨⟩
    exact ⟨⟨allNamed_singleton.2 htest, hss⟩, trivial⟩
  · refine (yields_elseClause hbody "else").bind fun otherwise hotherwise => .pure ?_
    refine ⟨⟨allNamed_singleton.2 htest, hfirst⟩, Clause.allNamed_append.2 ⟨?_, hotherwise⟩⟩
    exact Clause.allNamed_iff.2 hothers

theorem yields_forLoop : Yields (Stmt.Named anyName) (forLoop inner body) := by
  refine (yields_targets h).bind fun place hplace => (keeps_word _).andThen fun _ => ?_
  refine (yields_starExpressions h).bind fun source hsource => hbody.bind fun first hfirst => ?_
  refine (yields_elseClause hbody "else").bind fun otherwise hotherwise => .pure ?_
  exact ⟨⟨⟨hplace, hsource, trivial⟩, hfirst⟩, hotherwise⟩

theorem yields_whileLoop : Yields (Stmt.Named anyName) (whileLoop inner body) := by
  refine (yields_namedExpression h).bind fun test htest => hbody.bind fun first hfirst => ?_
  refine (yields_elseClause hbody "else").bind fun otherwise hotherwise => .pure ?_
  exact ⟨⟨allNamed_singleton.2 htest, hfirst⟩, hotherwise⟩

omit hbody in
theorem yields_resource : Yields AllNamed (resource inner) :=
  (h _).bind fun _ he => (yields_optional (yields_starTarget h)).bind fun _ hes => .pure ⟨he, hes⟩

theorem yields_resources : Yields (Stmt.Named anyName) (resources inner body) := by
  refine Yields.bind (P := fun header => ∀ es ∈ header, AllNamed es) (.orElse ?_ ?_)
    fun header hheader => ?_
  · refine (keeps_mark _).andThen fun _ => (yields_resource h).bind fun first hfirst => ?_
    refine (yields_commaSeparated (yields_resource h) hfirst).bind fun found hfound => ?_
    refine (keeps_mark _).andThen fun _ => (keeps_sees _).andThen fun _ => ?_
    exact (keeps_guard _).andThen fun _ => .pure hfound
  · exact yields_separated (yields_resource h)
  · exact hbody.bind fun ss hss => .pure ⟨⟨allNamed_flatten.2 hheader, hss⟩, trivial⟩

theorem yields_handler (group : Bool) :
    Yields (Clause.Named anyName) (handler group inner body) := by
  have hrest : Yields (Clause.Named anyName) (do
      if !group && (← sees (.mark ":")) then return .mk [] (← body)
      else
        let e ← inner .expression
        discard newName
        return .mk [e] (← body)) := by
    refine (keeps_sees _).andThen fun _ => .ite ?_ ?_
    · exact hbody.bind fun ss hss => .pure ⟨⟨trivial, hss⟩, trivial⟩
    · refine (h _).bind fun e he => keeps_newName.discard.andThen fun _ => ?_
      exact hbody.bind fun ss hss => .pure ⟨⟨allNamed_singleton.2 he, hss⟩, trivial⟩
  unfold handler
  exact .ite ((keeps_mark _).andThen fun _ => hrest) hrest

theorem yields_attempt : Yields (Stmt.Named anyName) (attempt inner body) := by
  refine hbody.bind fun first hfirst => yields_peekTwo.bind fun p _ => ?_
  have hhandlers (group : Bool) : Yields (fun o => ∀ c ∈ o, Clause.Named anyName c) (do
      if ← accept (.keyword "except") then some <$> handler group inner body else return none) :=
    yields_some_or_none (keeps_accept _) (yields_handler h hbody group)
  split <;> refine (Yields.pure (P := fun _ => True) trivial).andThen fun group => ?_
  all_goals
    refine (yields_many (hhandlers group)).bind fun handlers hhandlers => ?_
    refine .branch (.pure trivial) (yields_elseClause hbody "else") fun otherwise hotherwise => ?_
    refine (yields_elseClause hbody "finally").bind fun final hfinal =>
      (keeps_guard _).andThen fun _ => .pure ?_
    refine ⟨⟨trivial, hfirst⟩, ?_⟩
    exact Clause.allNamed_append.2
      ⟨Clause.allNamed_append.2 ⟨Clause.allNamed_iff.2 hhandlers, hotherwise⟩, hfinal⟩

theorem yields_functionDefinition (line : Nat) {decorators : List Expr}
    (hdecorators : AllNamed decorators) :
    Yields (Stmt.Named anyName) (functionDefinition line decorators inner body) := by
  refine yields_name.bind fun id hid => (keeps_mark _).andThen fun _ => ?_
  refine (yields_parameters h true ")").bind fun p hp => (keeps_mark _).andThen fun _ => ?_
  refine (yields_optional (h _)).keeps.andThen fun _ => hbody.bind fun ss hss => .pure ?_
  exact ⟨⟨hid, trivial⟩, hp, hdecorators, hss⟩

theorem yields_classDefinition (line : Nat) {decorators : List Expr}
    (hdecorators : AllNamed decorators) :
    Yields (Stmt.Named anyName) (classDefinition line decorators inner body) := by
  refine yields_name.bind fun id hid => (keeps_accept _).andThen fun _ => ?_
  refine .branch (yields_arguments h false) (.pure ⟨trivial, trivial⟩) fun a ha =>
    hbody.bind fun ss hss => .pure ?_
  exact ⟨hid, ha.1, ha.2, hdecorators, hss⟩

theorem yields_definition {decorators : List Expr} (hdecorators : AllNamed decorators) :
    Yields (Stmt.Named anyName) (definition decorators inner body) := by
  refine keeps_line.andThen fun line => (keeps_accept _).andThen fun _ => .ite ?_ ?_
  · exact yields_classDefinition h hbody line hdecorators
  · refine (keeps_accept _).discard.andThen fun _ => (keeps_word _).andThen fun _ => ?_
    exact yields_functionDefinition h hbody line hdecorators

theorem yields_decorated : Yields (Stmt.Named anyName) (decorated inner body) := by
  refine (yields_many (P := Expr.Named) ?_).bind fun decorators hdecorators => ?_
  · refine (keeps_accept _).andThen fun _ => .ite ?_ (.pure (by simp))
    refine (yields_namedExpression h).bind fun e he => (keeps_expect _).andThen fun _ => .pure ?_
    simpa using he
  · exact yields_definition h hbody (allNamed_iff.2 hdecorators)

omit hbody in
theorem yields_subject : Yields Expr.Named (subject inner) := by
  refine (yields_displayItem h).bind fun first hfirst => ?_
  refine (yields_commaSeparated (yields_displayItem h) hfirst).bind fun found hfound => ?_
  exact (keeps_guard _).andThen fun _ => .pure (named_tuple_or hfound hfirst _)

theorem yields_caseClause :
    Yields (fun o => ∀ c ∈ o, Clause.Named anyName c) (caseClause inner body) := by
  refine (keeps_accept _).andThen fun _ => .ite ?_ (.pure (by simp))
  refine (yields_casePattern h).bind fun found hfound => ?_
  refine (yields_optional (yields_namedExpression h)).bind fun condition hcondition => ?_
  refine hbody.bind fun ss hss => .pure ?_
  rintro _ ⟨⟩
  exact ⟨⟨allNamed_append.2 ⟨hfound, hcondition⟩, hss⟩, trivial⟩

theorem yields_matchStatement : Yields (Stmt.Named anyName) (matchStatement inner body) := by
  refine (keeps_expect _).andThen fun _ => (yields_subject h).bind fun e he => ?_
  refine (keeps_mark _).andThen fun _ => (keeps_expect _).andThen fun _ =>
    (keeps_expect _).andThen fun _ => ?_
  refine (yields_many (yields_caseClause h hbody)).bind fun cases hcases => ?_
  refine (keeps_guard _).andThen fun _ => (keeps_expect _).andThen fun _ => .pure ?_
  exact ⟨⟨allNamed_singleton.2 he, trivial⟩, Clause.allNamed_iff.2 hcases⟩

theorem yields_anyStatement : Yields (Stmt.AllNamed anyName) (anyStatement inner body) := by
  have hone {rule : Rule Stmt} (hrule : Yields (Stmt.Named anyName) rule) :
      Yields (Stmt.AllNamed anyName) (do return [← rule]) :=
        hrule.bind fun s hs => .pure ⟨hs, trivial⟩
  refine yields_peekTwo.bind fun p _ => ?_
  split
  · split
    · exact keeps_skip.andThen fun _ => hone (yields_branches h hbody)
    · exact keeps_skip.andThen fun _ => hone (yields_whileLoop h hbody)
    · exact keeps_skip.andThen fun _ => hone (yields_forLoop h hbody)
    · exact keeps_skip.andThen fun _ => hone (yields_attempt h hbody)
    · exact keeps_skip.andThen fun _ => hone (yields_resources h hbody)
    · exact hone (yields_definition h hbody trivial)
    · exact hone (yields_definition h hbody trivial)
    · split
      · exact keeps_skip.andThen fun _ => keeps_skip.andThen fun _ => hone (yields_forLoop h hbody)
      · exact keeps_skip.andThen fun _ => keeps_skip.andThen fun _ =>
          hone (yields_resources h hbody)
      · exact hone (yields_definition h hbody trivial)
    · exact yields_simpleLine h
  · exact hone (yields_decorated h hbody)
  · exact .orElse (hone (yields_matchStatement h hbody)) (yields_simpleLine h)
  · exact yields_simpleLine h

end Body

theorem yields_statementRule (fuel : Nat) :
    Yields (Stmt.AllNamed anyName) (statementRule inner fuel) := by
  induction fuel with
  | zero => exact .failure
  | succ fuel ih => exact yields_anyStatement h (yields_block h ih)

theorem allNamed_of_module {ts : List Token} (hts : ∀ t ∈ ts, t.Named) {body : List Stmt}
    (hbody : module? inner ts = some body) : Stmt.AllNamed anyName body := by
  obtain ⟨⟨found, rest⟩, hrun, hbody⟩ := Option.bind_eq_some_iff.1 hbody
  obtain ⟨-, -, hbody⟩ := Option.bind_eq_some_iff.1 hbody
  cases hbody
  refine (Yields.bind (yields_many (P := Stmt.AllNamed anyName) ?_) fun found hfound => .pure ?_ :
    Yields (Stmt.AllNamed anyName) _) ts hts _ rest hrun |>.1
  · refine yields_get.bind fun ts _ => .ite (.pure (by simp)) ?_
    exact (yields_statementRule h _).map fun ss hss => by simpa using hss
  · exact Stmt.allNamed_flatten.2 hfound

end Inner

end Grammar

/-- **The names in a module that can be read are identifiers.** -/
theorem allNamed_of_read {file : List UInt8} {body : List Stmt} (h : read file = .ok body) :
    Stmt.AllNamed anyName body := by
  unfold read at h
  split at h
  · cases h
  · rename_i found hfound
    dsimp only at h
    split_ifs at h
    cases h
    obtain ⟨chars, -, hbody⟩ := Option.bind_eq_some_iff.1 hfound
    obtain ⟨ts, hts, hbody⟩ := Option.bind_eq_some_iff.1 hbody
    exact Grammar.allNamed_of_module (yields_expressionRule _) (named_of_tokens hts) hbody

end Deadwood.Source
