import Deadwood.Proofs.Named

/-!
# The names in expressions that are read

Every rule of the grammar of expressions yields expressions whose names are identifiers, if the
rules for the expressions inside do. `yields_expressionRule` ties the layers together by induction
on the fuel, as the rule itself does.
-/

namespace Deadwood.Source

/-! ## Places that can be written -/

namespace Expr

mutual

theorem named_of_target? (star : Bool) :
    ∀ (e : Expr) {t : Expr}, e.target? star = some t → e.Named → t.Named
  | .name .., _, ht, h => by
    cases ht
    exact h
  | .member .., _, ht, h => by
    cases ht
    exact h
  | .subscript .., _, ht, h => by
    cases ht
    exact h
  | .starred value, _, ht, h => by
    rw [target?] at ht
    split_ifs at ht
    obtain ⟨u, hu, rfl⟩ := Option.map_eq_some_iff.1 ht
    have hu : u.Named := named_of_target? star value hu h
    exact hu
  | .tuple items, _, ht, h => by
    obtain ⟨us, hus, rfl⟩ := Option.map_eq_some_iff.1 ht
    exact allNamed_of_targetAll? star items hus h
  | .list items, _, ht, h => by
    obtain ⟨us, hus, rfl⟩ := Option.map_eq_some_iff.1 ht
    exact allNamed_of_targetAll? star items hus h
  | .call .., _, ht, _ => by cases ht
  | .text _, _, ht, _ => by cases ht
  | .constant, _, ht, _ => by cases ht
  | .set _, _, ht, _ => by cases ht
  | .lambda .., _, ht, _ => by cases ht
  | .compound .., _, ht, _ => by cases ht

theorem allNamed_of_targetAll? (star : Bool) :
    ∀ (es : List Expr) {ts : List Expr}, targetAll? star es = some ts → AllNamed es → AllNamed ts
  | [], _, ht, _ => by
    cases ht
    trivial
  | e :: rest, _, ht, h => by
    obtain ⟨t, hfirst, ht⟩ := Option.bind_eq_some_iff.1 ht
    obtain ⟨us, hrest, ht⟩ := Option.bind_eq_some_iff.1 ht
    cases ht
    exact ⟨named_of_target? star e hfirst h.1, allNamed_of_targetAll? star rest hrest h.2⟩

end

theorem named_of_singleTarget? {e t : Expr} (ht : e.singleTarget? = some t) (h : e.Named) :
    t.Named := by
  unfold singleTarget? at ht
  split at ht
  · cases ht
  · cases ht
  · exact named_of_target? false e ht h

end Expr

namespace Grammar

open Rule Source.Expr

/-- More than one expression, or one with a comma, are a tuple. -/
theorem named_tuple_or {items : List Expr} {first : Expr} (hitems : ∀ e ∈ items, e.Named)
    (hfirst : first.Named) (c : Prop) [Decidable c] :
    (if c then Expr.tuple items else first).Named := by
  split
  · exact allNamed_iff.2 hitems
  · exact hfirst

theorem keeps_seesClause : Keeps seesClause := by
  refine yields_peekTwo.bind fun p _ => ?_
  split <;> exact .pure trivial

/-! ## Replacement fields -/

section Fields

variable {inner : Inner}

theorem named_of_fieldExpression (h : ∀ l, Yields Expr.Named (inner l)) {line : Nat}
    {text : List Char} {e : Expr} (he : fieldExpression inner line text = some e) : e.Named := by
  obtain ⟨ts, hts, he⟩ := Option.bind_eq_some_iff.1 he
  obtain ⟨⟨e', rest⟩, hrun, he⟩ := Option.bind_eq_some_iff.1 he
  obtain ⟨-, -, he⟩ := Option.bind_eq_some_iff.1 he
  cases he
  exact (h _ ts (named_of_tokens hts) e rest hrun).1

mutual

theorem allNamed_of_pieceExpressions (h : ∀ l, Yields Expr.Named (inner l)) :
    ∀ (ps : List Piece) {es : List Expr},
    pieceExpressions inner ps = some es → AllNamed es
  | [], _, hes => by
    cases hes
    trivial
  | p :: rest, _, hes => by
    obtain ⟨first, hfirst, hes⟩ := Option.bind_eq_some_iff.1 hes
    obtain ⟨others, hothers, hes⟩ := Option.bind_eq_some_iff.1 hes
    cases hes
    exact allNamed_append.2
      ⟨allNamed_of_pieceExpression h p hfirst, allNamed_of_pieceExpressions h rest hothers⟩

theorem allNamed_of_pieceExpression (h : ∀ l, Yields Expr.Named (inner l)) :
    ∀ (p : Piece) {es : List Expr},
    pieceExpression inner p = some es → AllNamed es
  | .plain _, _, hes => by
    cases hes
    trivial
  | .field chars line none, _, hes => by
    obtain ⟨e, he, hes⟩ := Option.bind_eq_some_iff.1 hes
    cases hes
    exact ⟨⟨named_of_fieldExpression h he, trivial⟩, trivial⟩
  | .field chars line (some format), _, hes => by
    obtain ⟨e, he, hes⟩ := Option.bind_eq_some_iff.1 hes
    obtain ⟨parts, hparts, hes⟩ := Option.bind_eq_some_iff.1 hes
    cases hes
    exact ⟨⟨named_of_fieldExpression h he, allNamed_of_pieceExpressions h format hparts, trivial⟩,
      trivial⟩

end

theorem allNamed_of_literalParts (h : ∀ l, Yields Expr.Named (inner l))
    {literal : Quotation × Nat × List Char} {es : List Expr}
    (hes : literalParts inner literal = some es) : AllNamed es := by
  obtain ⟨form, line, body⟩ := literal
  rw [literalParts] at hes
  split at hes
  · obtain ⟨ps, -, hes⟩ := Option.bind_eq_some_iff.1 hes
    exact allNamed_of_pieceExpressions h ps hes
  · obtain ⟨-, -, rfl⟩ := Option.map_eq_some_iff.1 hes
    trivial

theorem forall_mem_of_mapM {α β : Type} {P : β → Prop} {f : α → Option β}
    (hf : ∀ a b, f a = some b → P b) {xs : List α} {ys : List β} (h : xs.mapM f = some ys) :
    ∀ y ∈ ys, P y := by
  induction xs generalizing ys with
  | nil =>
    cases h
    simp
  | cons x rest ih =>
    rw [List.mapM_cons] at h
    obtain ⟨y, hy, h⟩ := Option.bind_eq_some_iff.1 h
    obtain ⟨others, hothers, h⟩ := Option.bind_eq_some_iff.1 h
    cases h
    exact List.forall_mem_cons.2 ⟨hf x y hy, ih hothers⟩

end Fields

section Inner

variable {inner : Inner} (h : ∀ l, Yields Expr.Named (inner l))

include h

/-! ## Levels -/

theorem yields_namedExpression : Yields Expr.Named (namedExpression inner) := by
  refine yields_peekTwo.bind fun p hp => ?_
  split
  · refine keeps_line.andThen fun line => keeps_skip.andThen fun _ => keeps_skip.andThen fun _ => ?_
    exact (h _).bind fun value hvalue => .pure ⟨hp.1 _ rfl, hvalue, trivial⟩
  · refine (h _).bind fun e he => (keeps_sees _).andThen fun _ => ?_
    exact (keeps_guard _).andThen fun _ => .pure he

theorem yields_displayItem : Yields Expr.Named (displayItem inner) :=
  (keeps_accept _).andThen fun _ =>
    .ite ((h _).bind fun _ he => .pure he) (yields_namedExpression h)

theorem yields_starExpression : Yields Expr.Named (starExpression inner) :=
  (keeps_accept _).andThen fun _ => .ite ((h _).bind fun _ he => .pure he) (h _)

theorem yields_starExpressions : Yields Expr.Named (starExpressions inner) := by
  refine (yields_starExpression h).bind fun first hfirst => ?_
  refine (yields_commaSeparated (yields_starExpression h) hfirst).bind fun found hfound => .pure ?_
  exact named_tuple_or hfound hfirst _

theorem yields_yieldExpression : Yields Expr.Named (yieldExpression inner) := by
  refine (keeps_word _).andThen fun _ => (keeps_accept _).andThen fun _ => .ite ?_ ?_
  · exact (h _).bind fun e he => .pure (allNamed_singleton.2 he)
  · refine yields_peek.bind fun l _ => ?_
    split
    · refine .ite ?_ (.pure trivial)
      exact (yields_starExpressions h).bind fun e he => .pure (allNamed_singleton.2 he)
    · exact .pure trivial

theorem yields_yieldOrExpressions : Yields Expr.Named (yieldOrExpressions inner) :=
  (keeps_sees _).andThen fun _ => .ite (yields_yieldExpression h) (yields_starExpressions h)

theorem yields_starTarget : Yields Expr.Named (starTarget inner) := by
  refine (keeps_accept _).andThen fun _ => .branch (P := Expr.Named) ?_ (h _) fun e he => ?_
  · exact (h _).map fun e he => he
  · exact .option fun t ht => named_of_target? true e ht he

theorem yields_targets : Yields Expr.Named (targets inner) := by
  refine (yields_starTarget h).bind fun first hfirst => ?_
  refine (yields_commaSeparated (yields_starTarget h) hfirst).bind fun found hfound => .pure ?_
  exact named_tuple_or hfound hfirst _

theorem yields_clauses : Yields AllNamed (clauses inner) := by
  refine keeps_seesClause.andThen fun _ => (keeps_guard _).andThen fun _ => ?_
  refine (yields_many (P := AllNamed) ?_).bind fun found hfound => .pure (allNamed_flatten.2 hfound)
  refine keeps_seesClause.andThen fun _ => .ite ?_ (.pure (by simp))
  refine (keeps_accept _).discard.andThen fun _ => (keeps_word _).andThen fun _ => ?_
  refine (yields_targets h).bind fun target htarget => (keeps_word _).andThen fun _ => ?_
  refine (h _).bind fun source hsource => ?_
  refine (yields_many (yields_some_or_none (keeps_accept _) (h _))).bind
    fun conditions hconditions => .pure ?_
  rintro _ ⟨⟩
  exact ⟨htarget, hsource, allNamed_iff.2 hconditions⟩

/-! ## Arguments -/

/-- The arguments that are read so far. -/
def ArgumentList.Named (a : ArgumentList) : Prop := AllNamed a.positional ∧ AllNamed a.keywords

theorem yields_argument {a : ArgumentList} (ha : a.Named) :
    Yields ArgumentList.Named (argument inner a) := by
  have hpositional (e : Expr) (he : e.Named) : AllNamed (a.positional ++ [e]) :=
    allNamed_append.2 ⟨ha.1, allNamed_singleton.2 he⟩
  have hkeywords (e : Expr) (he : e.Named) : AllNamed (a.keywords ++ [e]) :=
    allNamed_append.2 ⟨ha.2, allNamed_singleton.2 he⟩
  refine (keeps_accept _).andThen fun _ => .ite ?_ ((keeps_accept _).andThen fun _ => .ite ?_ ?_)
  · exact (keeps_guard _).andThen fun _ => (h _).bind fun e he => .pure ⟨hpositional _ he, ha.2⟩
  · exact (h _).bind fun e he => .pure ⟨ha.1, hkeywords e he⟩
  · refine yields_peekTwo.bind fun p _ => ?_
    split
    · refine keeps_skip.andThen fun _ => keeps_skip.andThen fun _ => ?_
      exact (h _).bind fun e he => .pure ⟨ha.1, hkeywords e he⟩
    · refine (keeps_guard _).andThen fun _ => ?_
      exact (yields_namedExpression h).bind fun e he => .pure ⟨hpositional e he, ha.2⟩

theorem yields_arguments (comprehension : Bool) :
    Yields ArgumentList.Named (arguments comprehension inner) := by
  refine (keeps_accept _).andThen fun _ => .ite (.pure ⟨trivial, trivial⟩) ?_
  refine (yields_argument h (a := {}) ⟨trivial, trivial⟩).bind fun first hfirst => ?_
  refine keeps_seesClause.andThen fun _ => .ite ?_ ?_
  · split
    · rename_i element hpositional _
      have helement : element.Named := by
        have := hfirst.1
        rw [hpositional] at this
        exact this.1
      refine (keeps_guard _).andThen fun _ => (yields_clauses h).bind fun parts hparts => ?_
      exact (keeps_mark _).andThen fun _ => .pure ⟨⟨⟨helement, hparts⟩, trivial⟩, trivial⟩
    · exact .failure
  · refine (yields_iterate (fun a ha => ?_) hfirst).bind fun all hall =>
      (keeps_mark _).andThen fun _ => .pure hall
    refine (keeps_accept _).andThen fun _ => .ite ?_ (.pure (by simp))
    refine (keeps_sees _).andThen fun _ => .ite (.pure (by simp)) ?_
    exact (yields_argument h ha).map fun b hb => by simpa using hb

theorem yields_bound : Yields AllNamed (bound inner) :=
  yields_peek.bind fun _ _ =>
    .ite (.pure trivial) ((h _).bind fun _ he => .pure (allNamed_singleton.2 he))

theorem yields_sliceRest {lower : List Expr} (hlower : AllNamed lower) :
    Yields Expr.Named (sliceRest inner lower) := by
  refine (keeps_mark _).andThen fun _ => (yields_bound h).bind fun upper hupper => ?_
  refine (keeps_accept _).andThen fun _ =>
    .branch (yields_bound h) (.pure trivial) fun step hstep => .pure ?_
  exact allNamed_append.2 ⟨allNamed_append.2 ⟨hlower, hupper⟩, hstep⟩

theorem yields_index : Yields Expr.Named (index inner) := by
  refine (keeps_accept _).andThen fun _ => .ite ((h _).bind fun _ he => .pure he) ?_
  refine (keeps_sees _).andThen fun _ => .ite (yields_sliceRest h trivial) ?_
  refine yields_peekTwo.bind fun p _ => ?_
  split
  · exact yields_namedExpression h
  · refine (h _).bind fun e he => (keeps_sees _).andThen fun _ => .ite ?_ (.pure he)
    exact yields_sliceRest h (allNamed_singleton.2 he)

theorem yields_indices : Yields Expr.Named (indices inner) := by
  refine (yields_index h).bind fun first hfirst => ?_
  refine (yields_commaSeparated (yields_index h) hfirst).bind fun found hfound => ?_
  exact (keeps_mark _).andThen fun _ => .pure (named_tuple_or hfound hfirst _)

/-! ## Parameters -/

theorem keeps_annotated (annotated star : Bool) : Keeps <| annotation annotated star inner := by
  unfold annotation
  refine .ite ((keeps_accept _).andThen fun _ => .ite ?_ (.pure trivial)) (.pure trivial)
  exact .branch (yields_starExpression h) (h _) fun _ _ => .pure trivial

theorem yields_parameter (annotated : Bool) {p : ParameterList} (hp : p.found.Named) :
    Yields (fun p => p.found.Named) (parameter annotated inner p) := by
  refine (keeps_accept _).andThen fun _ => .ite ?_ ((keeps_accept _).andThen fun _ => .ite ?_
    ((keeps_accept _).andThen fun _ => .ite ?_ ?_))
  · exact (keeps_guard _).andThen fun _ => .pure hp
  · refine (keeps_guard _).andThen fun _ => yields_name.discard.andThen fun _ => ?_
    exact (keeps_annotated h _ _).andThen fun _ => .pure hp
  · refine (keeps_guard _).andThen fun _ => (keeps_sees _).andThen fun _ => .ite (.pure hp) ?_
    refine yields_name.discard.andThen fun _ => ?_
    exact (keeps_annotated h _ _).andThen fun _ => .pure hp
  · refine yields_name.bind fun id _ => (keeps_annotated h _ _).andThen fun _ => ?_
    refine (keeps_accept _).andThen fun _ => ?_
    refine .branch (P := fun given => ∀ e ∈ given, e.Named)
      ((h _).map fun e he => by simpa using he)
      (.pure (by simp)) fun given hgiven => ?_
    have hdefaults : AllNamed given.toList :=
      allNamed_iff.2 fun e he => hgiven e (by simpa using he)
    split
    · exact (keeps_guard _).andThen fun _ => .pure ⟨allNamed_append.2 ⟨hp.1, hdefaults⟩, hp.2⟩
    · exact .pure ⟨hp.1, allNamed_append.2 ⟨hp.2, hdefaults⟩⟩
    · exact .failure

theorem yields_parameters (annotated : Bool) (closing : String) :
    Yields Parameters.Named (parameters annotated closing inner) := by
  refine (keeps_sees _).andThen fun _ => .ite (.pure ⟨trivial, trivial⟩) ?_
  refine (yields_parameter h annotated (p := {}) ⟨trivial, trivial⟩).bind fun first hfirst => ?_
  refine (yields_iterate (P := fun p => p.found.Named) (fun p hp => ?_) hfirst).bind fun all hall =>
    ?_
  · refine (keeps_accept _).andThen fun _ => .ite ?_ (.pure (by simp))
    refine (keeps_sees _).andThen fun _ => .ite (.pure (by simp)) ?_
    exact (yields_parameter h annotated hp).map fun b hb => by simpa using hb
  · refine (keeps_guard _).andThen fun _ => (keeps_sees _).andThen fun _ => ?_
    exact (keeps_guard _).andThen fun _ => .pure hall

/-! ## Displays -/

theorem yields_literals : Yields Expr.Named (literals inner) := by
  refine (yields_many (P := fun _ => True) ?_).keeps.andThen fun found =>
    (keeps_guard _).andThen fun _ => .ite ?_ ?_
  · refine keeps_line.andThen fun line => yields_peek.bind fun l _ => ?_
    split
    · exact keeps_skip.andThen fun _ => .pure (by simp)
    · exact .pure (by simp)
  · refine (keeps_guard _).andThen fun _ => ?_
    refine (Yields.option (P := fun parts => ∀ es ∈ parts, AllNamed es) fun parts hparts => ?_).bind
      fun parts hparts => .pure (allNamed_flatten.2 hparts)
    exact forall_mem_of_mapM (fun _ _ => allNamed_of_literalParts h) hparts
  · refine (Yields.option (P := fun _ => True) fun _ _ => trivial).andThen fun texts =>
      .ite (.pure trivial) ?_
    exact (keeps_guard _).andThen fun _ => .pure trivial

theorem yields_display {closing : String} {first : Expr} (hfirst : first.Named) :
    Yields (fun found => ∀ e ∈ found.1, e.Named) (display inner closing first) :=
  (yields_commaSeparated (yields_displayItem h) hfirst).bind fun _ hfound =>
    (keeps_mark _).andThen fun _ => .pure hfound

/-- A comprehension, behind its element. -/
theorem yields_comprehension {closing : String} {elements : List Expr}
    (helements : AllNamed elements) :
    Yields Expr.Named (do
      let parts ← clauses inner
      mark closing
      return .compound .comprehension (elements ++ parts)) :=
  (yields_clauses h).bind fun _ hparts => (keeps_mark _).andThen fun _ =>
    .pure (allNamed_append.2 ⟨helements, hparts⟩)

theorem yields_parenthesised : Yields Expr.Named (parenthesised inner) := by
  refine (keeps_accept _).andThen fun _ =>
    .ite (.pure trivial) ((keeps_sees _).andThen fun _ => .ite ?_ ?_)
  · exact (yields_yieldExpression h).bind fun e he => (keeps_mark _).andThen fun _ => .pure he
  · refine (yields_displayItem h).bind fun first hfirst =>
      keeps_seesClause.andThen fun _ => .ite ?_ ?_
    · exact (keeps_guard _).andThen fun _ => yields_comprehension h (allNamed_singleton.2 hfirst)
    · refine (yields_display h hfirst).bind fun found hfound =>
        .ite (.pure (allNamed_iff.2 hfound)) ?_
      exact (keeps_guard _).andThen fun _ => .pure hfirst

theorem yields_bracketed : Yields Expr.Named (bracketed inner) := by
  refine (keeps_accept _).andThen fun _ => .ite (.pure trivial) ?_
  refine (yields_displayItem h).bind fun first hfirst =>
    keeps_seesClause.andThen fun _ => .ite ?_ ?_
  · exact (keeps_guard _).andThen fun _ => yields_comprehension h (allNamed_singleton.2 hfirst)
  · exact (yields_display h hfirst).bind fun found hfound => .pure (allNamed_iff.2 hfound)

theorem yields_dictEntry : Yields (fun e => AllNamed e.1 ∧ e.2.Named) (dictEntry inner) := by
  refine (keeps_accept _).andThen fun _ => .ite ?_ ?_
  · exact (h _).bind fun e he => .pure ⟨trivial, he⟩
  · refine (h _).bind fun key hkey => (keeps_mark _).andThen fun _ => ?_
    exact (h _).bind fun e he => .pure ⟨allNamed_singleton.2 hkey, he⟩

theorem yields_dictRest {first : List Expr × Expr} (hfirst : AllNamed first.1 ∧ first.2.Named) :
    Yields Expr.Named (dictRest inner first) := by
  refine (yields_commaSeparated (yields_dictEntry h) hfirst).bind fun found hfound => ?_
  refine (keeps_mark _).andThen fun _ =>
    .pure (allNamed_append.2 ⟨allNamed_iff.2 ?_, allNamed_iff.2 ?_⟩)
  · intro e he
    obtain ⟨entry, hentry, he⟩ := List.mem_flatMap.1 he
    exact allNamed_iff.1 (hfound entry hentry).1 e he
  · intro e he
    obtain ⟨entry, hentry, rfl⟩ := List.mem_map.1 he
    exact (hfound entry hentry).2

theorem yields_setRest {first : Expr} (hfirst : first.Named) :
    Yields Expr.Named (setRest inner first) := by
  refine keeps_seesClause.andThen fun _ => .ite ?_ ?_
  · exact (keeps_guard _).andThen fun _ => yields_comprehension h (allNamed_singleton.2 hfirst)
  · exact (yields_display h hfirst).bind fun found hfound => .pure (allNamed_iff.2 hfound)

theorem yields_braced : Yields Expr.Named (braced inner) := by
  refine (keeps_accept _).andThen fun _ =>
    .ite (.pure trivial) ((keeps_sees _).andThen fun _ => .ite ?_ ?_)
  · exact (yields_dictEntry h).bind fun first hfirst => yields_dictRest h hfirst
  · refine yields_peekTwo.bind fun p _ => ?_
    split
    · exact (yields_displayItem h).bind fun first hfirst => yields_setRest h hfirst
    · exact (yields_displayItem h).bind fun first hfirst => yields_setRest h hfirst
    · refine (h _).bind fun first hfirst => (keeps_accept _).andThen fun _ =>
        .ite ?_ (yields_setRest h hfirst)
      refine (h _).bind fun value hvalue => keeps_seesClause.andThen fun _ => .ite ?_ ?_
      · have hboth : Expr.AllNamed [first, value] := ⟨hfirst, hvalue, trivial⟩
        exact yields_comprehension h hboth
      · exact yields_dictRest h ⟨allNamed_singleton.2 hfirst, hvalue⟩

/-! ## Layers -/

theorem yields_atom : Yields Expr.Named (atom inner) := by
  refine keeps_line.andThen fun line => yields_peek.bind fun l hl => ?_
  split
  · exact keeps_skip.andThen fun _ => .pure (hl _ rfl)
  · exact keeps_skip.andThen fun _ => .pure trivial
  · exact yields_literals h
  · exact (keeps_guard _).andThen fun _ => keeps_skip.andThen fun _ => .pure trivial
  · refine keeps_skip.andThen fun _ => ?_
    split
    · exact yields_parenthesised h
    · exact yields_bracketed h
    · exact yields_braced h
    · exact .pure trivial
    · exact .failure
  · exact .failure

theorem yields_primary : Yields Expr.Named (primary inner) := by
  refine keeps_line.andThen fun line => (yields_atom h).bind fun first hfirst => ?_
  refine yields_iterate (fun e he => ?_) hfirst
  refine (keeps_accept _).andThen fun _ => .ite ?_ ((keeps_accept _).andThen fun _ => .ite ?_
    ((keeps_accept _).andThen fun _ => .ite ?_ (.pure (by simp))))
  · refine yields_name.bind fun field hfield => .pure ?_
    rintro _ ⟨⟩
    exact ⟨he, hfield⟩
  · refine (yields_arguments h true).bind fun a ha => .pure ?_
    rintro _ ⟨⟩
    exact ⟨he, ha⟩
  · refine (yields_indices h).bind fun i hi => .pure ?_
    rintro _ ⟨⟩
    exact ⟨he, hi⟩

theorem yields_factor (fuel : Nat) : Yields Expr.Named (factor inner fuel) := by
  induction fuel with
  | zero => exact .failure
  | succ fuel ih =>
    have hpower (base : Expr) (hbase : base.Named) : Yields Expr.Named (do
        if ← accept (.mark "**") then return .compound .binary [base, ← factor inner fuel]
          else return base) :=
      (keeps_accept _).andThen fun _ =>
        .ite (ih.bind fun e he => .pure ⟨hbase, he, trivial⟩) (.pure hbase)
    refine (keeps_acceptAny _).andThen fun _ =>
      .ite ?_ ((keeps_accept _).andThen fun _ => .ite ?_ ?_)
    · exact ih.bind fun e he => .pure (allNamed_singleton.2 he)
    · refine (yields_primary h).bind fun e he => Yields.bind (P := Expr.Named) (.pure ?_) hpower
      exact allNamed_singleton.2 he
    · exact (yields_primary h).bind hpower

omit h in
theorem yields_joined {operators : List String} {rule : Rule Expr}
    (hrule : Yields Expr.Named rule) :
    Yields Expr.Named (joined operators rule) := by
  refine hrule.bind fun first hfirst => yields_iterate (fun e he => ?_) hfirst
  refine (keeps_acceptAny _).andThen fun _ => .ite ?_ (.pure (by simp))
  refine hrule.bind fun e' he' => .pure ?_
  rintro _ ⟨⟩
  exact ⟨he, he', trivial⟩

theorem yields_operand : Yields Expr.Named (operand inner) :=
  yields_get.bind fun _ _ =>
    yields_joined (yields_joined (yields_joined (yields_joined (yields_joined
    (yields_joined (yields_factor h _))))))

omit h in
theorem keeps_comparisonOperator : Keeps comparisonOperator := by
  refine (keeps_acceptAny _).andThen fun _ =>
    .ite (.pure trivial) (yields_peekTwo.bind fun p _ => ?_)
  split
  · exact keeps_skip.andThen fun _ => .pure trivial
  · exact keeps_skip.andThen fun _ => keeps_skip.andThen fun _ => .pure trivial
  · exact keeps_skip.andThen fun _ => keeps_skip.andThen fun _ => .pure trivial
  · exact keeps_skip.andThen fun _ => .pure trivial
  · exact .pure trivial

omit h in
/-- A first term alone, or with those that follow it. -/
theorem named_first_or {first : Expr} {others : List Expr} (hfirst : first.Named)
    (hothers : ∀ e ∈ others, e.Named) (form : Form) :
    (if others.isEmpty then first else .compound form (first :: others)).Named := by
  split
  · exact hfirst
  · exact ⟨hfirst, allNamed_iff.2 hothers⟩

theorem yields_comparison : Yields Expr.Named (comparison inner) := by
  refine (yields_operand h).bind fun first hfirst => ?_
  refine (yields_many (yields_some_or_none keeps_comparisonOperator (yields_operand h))).bind
    fun others hothers => .pure ?_
  exact named_first_or hfirst hothers .comparison

theorem yields_inversion (fuel : Nat) : Yields Expr.Named (inversion inner fuel) := by
  induction fuel with
  | zero => exact .failure
  | succ fuel ih =>
    refine (keeps_accept _).andThen fun _ => .ite ?_ (yields_comparison h)
    exact ih.bind fun e he => .pure (allNamed_singleton.2 he)

omit h in
theorem yields_connected {w : String} {term : Rule Expr} (hterm : Yields Expr.Named term) :
    Yields Expr.Named (connected w term) := by
  refine hterm.bind fun first hfirst => ?_
  refine (yields_many (yields_some_or_none (keeps_accept _) hterm)).bind fun others hothers =>
    .pure ?_
  exact named_first_or hfirst hothers .boolean

theorem yields_disjunction : Yields Expr.Named (disjunction inner) :=
  yields_get.bind fun _ _ => yields_connected (yields_connected (yields_inversion h _))

theorem yields_wholeExpression : Yields Expr.Named (wholeExpression inner) := by
  refine (keeps_accept _).andThen fun _ => .ite ?_ ?_
  · refine (yields_parameters h false ":").bind fun p hp => (keeps_mark _).andThen fun _ => ?_
    exact (h _).bind fun body hbody => .pure ⟨hp.2, hp.1, hbody⟩
  · refine (yields_disjunction h).bind fun value hvalue => (keeps_accept _).andThen fun _ =>
      .ite ?_ (.pure hvalue)
    refine (yields_disjunction h).bind fun test htest => (keeps_word _).andThen fun _ => ?_
    exact (h _).bind fun other hother => .pure ⟨htest, hvalue, hother, trivial⟩

theorem yields_layer (l : Level) : Yields Expr.Named (layer inner l) := by
  cases l with
  | expression => exact yields_wholeExpression h
  | disjunction => exact yields_disjunction h
  | operand => exact yields_operand h

end Inner

end Grammar

/-- **The names in an expression that is read are identifiers.** -/
theorem yields_expressionRule (fuel : Nat) (l : Level) :
    Rule.Yields Expr.Named (expressionRule fuel l) := by
  induction fuel generalizing l with
  | zero => exact .failure
  | succ fuel ih => exact Grammar.yields_layer ih l

end Deadwood.Source
