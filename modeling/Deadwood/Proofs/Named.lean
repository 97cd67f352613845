import Deadwood.Source.Module
import Deadwood.Proofs.Dotted

/-!
# The names in a syntax tree

The names in the tree of a module that can be read are names of one segment. That is decided where
the text is cut into tokens (`named_of_tokens`); the grammar only passes names on. `Rule.Yields`
says so of a rule, and is kept by the ways in which rules are put together, so that the lemma about
a rule follows its text.

* `Expr.Named`, `Stmt.Named`: the names in a tree are identifiers.
* `Rule.Yields Q r`: where the names of the tokens are identifiers, the results of the rule satisfy
  `Q`.
-/

namespace Deadwood.Source

/-! ## Names -/

/-- A name of one segment. -/
def Identifier (s : String) : Prop := s ≠ "" ∧ Dotted.Simple s

instance (s : String) : Decidable (Identifier s) := inferInstanceAs (Decidable (_ ∧ _))

namespace Expr

mutual

/-- The names in an expression are identifiers. -/
def Named : Expr → Prop
  | .name _ id _ => Identifier id
  | .member _ value field _ => value.Named ∧ Identifier field
  | .call _ function arguments keywords => function.Named ∧ AllNamed arguments ∧ AllNamed keywords
  | .subscript value index => value.Named ∧ index.Named
  | .text _ => True
  | .constant => True
  | .starred value => value.Named
  | .tuple items => AllNamed items
  | .list items => AllNamed items
  | .set items => AllNamed items
  | .lambda keywordDefaults defaults body =>
    AllNamed keywordDefaults ∧ AllNamed defaults ∧ body.Named
  | .compound _ parts => AllNamed parts

/-- The names in some expressions are identifiers. -/
def AllNamed : List Expr → Prop
  | [] => True
  | e :: rest => e.Named ∧ AllNamed rest

end

theorem allNamed_iff {es : List Expr} : AllNamed es ↔ ∀ e ∈ es, e.Named := by
  induction es with
  | nil => simp [AllNamed]
  | cons e rest ih => rw [AllNamed, ih, List.forall_mem_cons]

theorem allNamed_append {es es' : List Expr} :
    AllNamed (es ++ es') ↔ AllNamed es ∧ AllNamed es' := by
  simp only [allNamed_iff, List.forall_mem_append]

theorem allNamed_flatten {ess : List (List Expr)} :
    AllNamed ess.flatten ↔ ∀ es ∈ ess, AllNamed es := by
  simp only [allNamed_iff, List.forall_mem_flatten]

theorem allNamed_singleton {e : Expr} : AllNamed [e] ↔ e.Named := by
  simp [allNamed_iff]

end Expr

/-- The defaults that parameters are written with. -/
def Parameters.Named (p : Parameters) : Prop :=
  Expr.AllNamed p.defaults ∧ Expr.AllNamed p.keywordDefaults

mutual

/-- The names in a statement are identifiers, and those of its functions satisfy `F`. -/
def Stmt.Named (F : String → Prop) : Stmt → Prop
  | .function _ name parameters decorators body =>
    (Identifier name ∧ F name) ∧ parameters.Named ∧ Expr.AllNamed decorators ∧ Stmt.AllNamed F body
  | .classDef _ name bases keywords decorators body =>
    Identifier name ∧ Expr.AllNamed bases ∧ Expr.AllNamed keywords ∧ Expr.AllNamed decorators ∧
      Stmt.AllNamed F body
  | .importModules names => ∀ i ∈ names, ∀ s ∈ Dotted.segments i.name, s ≠ ""
  | .importFrom _ _ names => ∀ i ∈ names, i.name ≠ "*" → Identifier i.name
  | .assign targets value => Expr.AllNamed targets ∧ value.Named
  | .augment target value => target.Named ∧ value.Named
  | .declare target _ value => target.Named ∧ ∀ e ∈ value, e.Named
  | .evaluate value => value.Named
  | .simple parts => Expr.AllNamed parts
  | .block _ clauses => Clause.AllNamed F clauses

/-- The names in some statements are identifiers, and those of their functions satisfy `F`. -/
def Stmt.AllNamed (F : String → Prop) : List Stmt → Prop
  | [] => True
  | s :: rest => s.Named F ∧ Stmt.AllNamed F rest

/-- The names in some clauses are identifiers, and those of their functions satisfy `F`. -/
def Clause.AllNamed (F : String → Prop) : List Clause → Prop
  | [] => True
  | .mk header body :: rest =>
    (Expr.AllNamed header ∧ Stmt.AllNamed F body) ∧ Clause.AllNamed F rest

end

/-- No condition on the names of functions. -/
abbrev anyName : String → Prop := fun _ => True

theorem Stmt.allNamed_iff {F : String → Prop} {ss : List Stmt} :
    Stmt.AllNamed F ss ↔ ∀ s ∈ ss, s.Named F := by
  induction ss with
  | nil => simp [Stmt.AllNamed]
  | cons s rest ih => rw [Stmt.AllNamed, ih, List.forall_mem_cons]

theorem Stmt.allNamed_append {F : String → Prop} {ss ss' : List Stmt} :
    Stmt.AllNamed F (ss ++ ss') ↔ Stmt.AllNamed F ss ∧ Stmt.AllNamed F ss' := by
  simp only [Stmt.allNamed_iff, List.forall_mem_append]

theorem Stmt.allNamed_flatten {F : String → Prop} {sss : List (List Stmt)} :
    Stmt.AllNamed F sss.flatten ↔ ∀ ss ∈ sss, Stmt.AllNamed F ss := by
  simp only [Stmt.allNamed_iff, List.forall_mem_flatten]

theorem Clause.allNamed_append {F : String → Prop} {cs cs' : List Clause} :
    Clause.AllNamed F (cs ++ cs') ↔ Clause.AllNamed F cs ∧ Clause.AllNamed F cs' := by
  induction cs with
  | nil => simp [Clause.AllNamed]
  | cons c rest ih =>
    obtain ⟨header, body⟩ := c
    simp only [List.cons_append, Clause.AllNamed, ih, and_assoc]

/-- A clause whose names are identifiers. -/
def Clause.Named (F : String → Prop) (c : Clause) : Prop := Clause.AllNamed F [c]

theorem Clause.allNamed_iff {F : String → Prop} {cs : List Clause} :
    Clause.AllNamed F cs ↔ ∀ c ∈ cs, c.Named F := by
  induction cs with
  | nil => simp [Clause.AllNamed]
  | cons c rest ih =>
    rw [← List.singleton_append, Clause.allNamed_append, ih, List.forall_mem_append,
      List.forall_mem_singleton]
    rfl

/-! ## Tokens -/

/-- A token that is a name is an identifier. -/
def Token.Named (t : Token) : Prop := ∀ id, t.lexeme = .name id → Identifier id

/-- A lexeme that is a name is an identifier. -/
def Lexeme.Named (l : Option Lexeme) : Prop := ∀ id, l = some (.name id) → Identifier id

/-- What stands where a name begins is an identifier: no dot continues a name. -/
theorem identifier_of_isName {cs : List Char} (h : isName (cs.takeWhile continuesName) = true) :
    Identifier (.ofList (cs.takeWhile continuesName)) := by
  refine ⟨fun hempty => ?_, fun hdot => ?_⟩
  · rw [← String.ofList_nil, String.ofList_inj] at hempty
    rw [hempty] at h
    cases h
  · rw [String.toList_ofList] at hdot
    have hcontinues := List.all_eq_true.1 List.all_takeWhile _ hdot
    exact absurd hcontinues (by decide)

namespace Scanner

/-- The tokens read so far have identifiers as names. -/
def Named (s : Scanner) : Prop := ∀ t ∈ s.read, t.Named

variable {s s' : Scanner}

theorem Named.emit (h : s.Named) {lexeme : Lexeme} (hl : Lexeme.Named (some lexeme))
    (rest : List Char) :
    (s.emit lexeme rest).Named :=
  List.forall_mem_cons.2 ⟨fun id hid => hl id (congrArg some hid), h⟩

theorem Named.emitMark? (h : s.Named) {m : String} {rest : List Char}
    (hs : s.emitMark? m rest = some s') :
    s'.Named := by
  have hmark : (s.emit (.mark m) rest).Named := h.emit (by simp [Lexeme.Named]) rest
  unfold Scanner.emitMark? at hs
  split at hs
  · split_ifs at hs with hopen hroom hclose
    · cases hs
      exact hmark
    · split at hs
      · split_ifs at hs
        cases hs
        exact hmark
      · cases hs
    · cases hs
      exact hmark
  · cases hs
    exact hmark

theorem ne_name_of_relayout? {m : Margin} {blocks blocks' : List Margin} {layout : List Lexeme}
    (h : relayout? m blocks = some (layout, blocks')) : ∀ l ∈ layout, ∀ id, l ≠ .name id := by
  simp only [relayout?] at h
  split_ifs at h <;> cases h
  · simp
  · simp
  · intro l hl id
    rw [List.eq_of_mem_replicate hl]
    exact nofun

theorem Named.beginLine? (h : s.Named) (hs : s.beginLine? = some s') : s'.Named := by
  obtain ⟨⟨m, continued, rest⟩, -, hs⟩ := Option.bind_eq_some_iff.1 hs
  dsimp only at hs
  split at hs
  · split_ifs at hs
    · cases hs
      exact h
    · obtain ⟨⟨layout, blocks⟩, hlayout, hs⟩ := Option.bind_eq_some_iff.1 hs
      cases hs
      refine List.forall_mem_append.2 ⟨fun t ht id hid => ?_, h⟩
      obtain ⟨l, hl, rfl⟩ := List.mem_map.1 (List.mem_reverse.1 ht)
      exact absurd hid (ne_name_of_relayout? hlayout l hl id)
  · cases hs

/-- One step of the scanner reads identifiers as names. -/
theorem Named.step? (h : s.Named) (hs : s.step? = some s') : s'.Named := by
  unfold Scanner.step? at hs
  split at hs
  · exact h.beginLine? hs
  split at hs
  · cases hs
  · rename_i rest _
    split at hs
    · cases hs
      have hnewline : (s.emit .newline rest).Named := h.emit (by simp [Lexeme.Named]) rest
      exact hnewline
    · cases hs
      exact h
  · cases hs
    exact h
  · split at hs
    · cases hs
    · cases hs
      exact h
  · split at hs
    · cases hs
      exact h
    split at hs
    · rename_i form q after _
      obtain ⟨⟨body, rest⟩, -, hs⟩ := Option.bind_eq_some_iff.1 hs
      cases hs
      have hquote : (s.emit (.quote form body) rest).Named := h.emit (by simp [Lexeme.Named]) rest
      exact hquote
    split at hs
    · dsimp only at hs
      split at hs
      · rename_i hname
        cases hs
        refine h.emit (fun id hid => ?_) _
        split at hid
        · cases hid
        · cases hid
          exact identifier_of_isName hname
      · cases hs
    split at hs
    · obtain ⟨⟨imaginary, rest⟩, -, hs⟩ := Option.bind_eq_some_iff.1 hs
      cases hs
      exact h.emit (by simp [Lexeme.Named]) _
    · obtain ⟨⟨m, rest⟩, -, hs⟩ := Option.bind_eq_some_iff.1 hs
      exact h.emitMark? hs

theorem Named.finish? (h : s.Named) {fuel : Nat} {ts : List Token} (hs : finish? fuel s = some ts) :
    ∀ t ∈ ts, t.Named := by
  induction fuel generalizing s with
  | zero => cases hs
  | succ fuel ih =>
    rw [Scanner.finish?] at hs
    split_ifs at hs with hempty hfresh
    · cases hs
      refine List.forall_mem_append.2
        ⟨fun t ht => h t (List.mem_reverse.1 ht), fun t ht id hid => ?_⟩
      obtain ⟨b, -, rfl⟩ := List.mem_map.1 ht
      cases hid
    · obtain ⟨s', hstep, hs⟩ := Option.bind_eq_some_iff.1 hs
      exact ih (h.step? hstep) hs

end Scanner

/-- **The names among the tokens of a text are identifiers.** -/
theorem named_of_tokens {line : Nat} {chars : List Char} {ts : List Token}
    (h : tokens? line chars = some ts) :
    ∀ t ∈ ts, t.Named :=
  Scanner.Named.finish? (fun _ ht => by cases ht) h

/-! ## Rules -/

namespace Rule

variable {α β : Type} {P : α → Prop} {Q : β → Prop}

/-- Where the names of the tokens are identifiers, the results of the rule satisfy `P`, and so are
the names of the tokens that are left. -/
def Yields (P : α → Prop) (r : Rule α) : Prop :=
  ∀ ts, (∀ t ∈ ts, t.Named) → ∀ a rest, r.run ts = some (a, rest) → P a ∧ ∀ t ∈ rest, t.Named

/-- The rule leaves the names of tokens as they are. -/
abbrev Keeps (r : Rule α) : Prop := Yields (fun _ => True) r

namespace Yields

theorem pure {a : α} (h : P a) : Yields P (pure a) := by
  intro ts hts b rest hrun
  cases hrun
  exact ⟨h, hts⟩

theorem failure : Yields P failure := by
  intro ts hts b rest hrun
  cases hrun

theorem bind {x : Rule α} {f : α → Rule β} (hx : Yields P x) (hf : ∀ a, P a → Yields Q (f a)) :
    Yields Q (x >>= f) := by
  intro ts hts b rest hrun
  rw [StateT.run_bind] at hrun
  obtain ⟨⟨a, middle⟩, hfirst, hsecond⟩ := Option.bind_eq_some_iff.1 hrun
  obtain ⟨ha, hmiddle⟩ := hx ts hts a middle hfirst
  exact hf a ha middle hmiddle b rest hsecond

theorem andThen {x : Rule α} {f : α → Rule β} (hx : Keeps x) (hf : ∀ a, Yields Q (f a)) :
    Yields Q (x >>= f) :=
  hx.bind fun a _ => hf a

theorem map {x : Rule α} {f : α → β} (hx : Yields P x) (hf : ∀ a, P a → Q (f a)) :
    Yields Q (f <$> x) := by
  rw [map_eq_pure_bind]
  exact hx.bind fun a ha => .pure (hf a ha)

theorem weaken {P' : α → Prop} {x : Rule α} (hx : Yields P x) (h : ∀ a, P a → P' a) :
    Yields P' x := by
  intro ts hts a rest hrun
  exact (hx ts hts a rest hrun).imp_left (h a)

theorem keeps {x : Rule α} (hx : Yields P x) : Keeps x := hx.weaken fun _ _ => trivial

theorem discard {x : Rule α} (hx : Yields P x) : Keeps (discard x) := hx.map fun _ _ => trivial

theorem ite {c : Prop} [Decidable c] {x y : Rule α} (hx : Yields P x) (hy : Yields P y) :
    Yields P (if c then x else y) := by
  split
  · exact hx
  · exact hy

/-- One of two rules, and what follows it. -/
theorem branch {c : Prop} [Decidable c] {x y : Rule α} {f : α → Rule β} (hx : Yields P x)
    (hy : Yields P y) (hf : ∀ a, P a → Yields Q (f a)) :
    Yields Q (if c then x >>= f else y >>= f) :=
  .ite (hx.bind hf) (hy.bind hf)

theorem orElse {x y : Rule α} (hx : Yields P x) (hy : Yields P y) : Yields P (x <|> y) := by
  intro ts hts a rest hrun
  have hcases : (x <|> y).run ts = (x.run ts <|> y.run ts) := rfl
  rw [hcases] at hrun
  cases hfirst : x.run ts with
  | none =>
    rw [hfirst] at hrun
    exact hy ts hts a rest hrun
  | some ran =>
    rw [hfirst] at hrun
    cases hrun
    exact hx ts hts a rest hfirst

theorem option {a : Option α} (h : ∀ x ∈ a, P x) :
    Yields P (a.elim Alternative.failure Pure.pure : Rule α) := by
  cases a with
  | none => exact .failure
  | some x => exact .pure (h x rfl)

end Yields

/-! ### Single tokens -/

theorem yields_get : Yields (fun ts => ∀ t ∈ ts, t.Named) (get : Rule (List Token)) := by
  intro ts hts a rest hrun
  cases hrun
  exact ⟨hts, hts⟩

theorem named_head? {ts : List Token} (h : ∀ t ∈ ts, t.Named) :
    Lexeme.Named (ts.head?.map (·.lexeme)) := by
  intro id hid
  obtain ⟨t, ht, hlexeme⟩ := Option.map_eq_some_iff.1 hid
  exact h t (List.mem_of_mem_head? ht) id hlexeme

theorem yields_peek : Yields Lexeme.Named peek :=
  yields_get.bind fun _ hts => .pure (named_head? hts)

theorem yields_peekTwo : Yields (fun p => Lexeme.Named p.1 ∧ Lexeme.Named p.2) peekTwo :=
  yields_get.bind fun _ hts =>
    .pure ⟨named_head? hts, named_head? fun t ht => hts t (List.mem_of_mem_drop ht)⟩

theorem keeps_guard (c : Prop) [Decidable c] : Keeps (guard c : Rule Unit) := by
  unfold guard
  exact .ite (.pure trivial) .failure

theorem keeps_sees (l : Lexeme) : Keeps (sees l) := yields_peek.bind fun _ _ => .pure trivial

theorem keeps_line : Keeps line := yields_get.bind fun _ _ => .pure trivial

theorem keeps_skip : Keeps skip := by
  intro ts hts a rest hrun
  cases hrun
  exact ⟨trivial, fun t ht => hts t (List.mem_of_mem_drop ht)⟩

theorem keeps_accept (l : Lexeme) : Keeps (accept l) :=
  (keeps_sees l).andThen fun _ => .ite (keeps_skip.andThen fun _ => .pure trivial) (.pure trivial)

theorem keeps_expect (l : Lexeme) : Keeps (expect l) :=
  (keeps_accept l).andThen fun _ => keeps_guard _

theorem keeps_mark (m : String) : Keeps (mark m) := keeps_expect _

theorem keeps_word (w : String) : Keeps (word w) := keeps_expect _

theorem yields_name : Yields Identifier name := by
  refine yields_peek.bind fun l hl => ?_
  split
  · exact keeps_skip.andThen fun _ => .pure (hl _ rfl)
  · exact .failure

theorem keeps_acceptAny (ms : List String) : Keeps (acceptAny ms) := by
  refine yields_peek.bind fun l _ => ?_
  split
  · exact .ite (keeps_skip.andThen fun _ => .pure trivial) (.pure trivial)
  · exact .pure trivial

/-! ### Repetition -/

theorem yields_iterate {step : α → Rule (Option α)}
    (hstep : ∀ a, P a → Yields (fun o => ∀ b ∈ o, P b) (step a)) {a : α} (ha : P a) :
    Yields P (iterate step a) := by
  refine yields_get.bind fun ts _ => ?_
  generalize ts.length + 1 = n
  induction n generalizing a with
  | zero => exact .pure ha
  | succ n ih =>
    refine (hstep a ha).bind fun o ho => ?_
    cases o with
    | none => exact .pure ha
    | some b => exact ih (ho b rfl)

theorem yields_many {rule : Rule (Option α)} (h : Yields (fun o => ∀ a ∈ o, P a) rule) :
    Yields (fun found => ∀ a ∈ found, P a) (many rule) := by
  refine (yields_iterate (P := fun found => ∀ a ∈ found, P a) (fun found hfound => ?_)
    (by simp)).bind
    fun found hfound => .pure fun a ha => hfound a (List.mem_reverse.1 ha)
  refine h.bind fun o ho => .pure ?_
  cases o with
  | none => simp
  | some a =>
    rintro _ ⟨⟩
    exact List.forall_mem_cons.2 ⟨ho a rfl, hfound⟩

/-- A rule that is repeated as long as some token is there. -/
theorem yields_some_or_none {x : Rule Bool} {item : Rule α} (hx : Keeps x) (h : Yields P item) :
    Yields (fun o => ∀ a ∈ o, P a)
      (x >>= fun b => if b = true then some <$> item else Pure.pure none) :=
  hx.andThen fun _ => .ite (h.map fun a ha => by simpa using ha) (.pure (by simp))

theorem yields_commaSeparated {more : Lexeme → Bool} {item : Rule α} (h : Yields P item) {first : α}
    (hfirst : P first) :
    Yields (fun found => ∀ a ∈ found.1, P a) (commaSeparated more item first) := by
  refine (keeps_sees _).andThen fun comma => ?_
  refine (yields_many
    ((keeps_accept _).andThen fun b => .ite ?_ (.pure (by simp)))).bind fun rest hrest =>
    .pure (List.forall_mem_cons.2 ⟨hfirst, hrest⟩)
  refine yields_peek.bind fun l _ => ?_
  split
  · exact .ite (h.map fun a ha => by simpa using ha) (.pure (by simp))
  · exact .pure (by simp)

theorem yields_separated {item : Rule α} (h : Yields P item) :
    Yields (fun found => ∀ a ∈ found, P a) (separated item) :=
  h.bind fun _ hfirst => (yields_many (yields_some_or_none (keeps_accept _) h)).bind fun _ hrest =>
    .pure (List.forall_mem_cons.2 ⟨hfirst, hrest⟩)

end Rule

end Deadwood.Source
