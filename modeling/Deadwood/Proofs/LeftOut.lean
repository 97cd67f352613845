import Deadwood.Ignore.Reject
import Deadwood.Proofs.Roots

/-!
# Which findings are left out

Leaving findings out is a filter: a finding goes if a specification covers its symbol, or if it is
about the initializer of the fields of a class that is reported as unused. The classes are those of
the whole list, some of which the filter takes out, too; still nothing changes if it is applied
again.

* `Answered`: all specifications that are asked about a symbol answer; `answered_iff` is what the
  search for one that covers the symbol makes of it.
* `CoveredBy`, `OfUnusedClass`: the two reasons for which a finding is left out.
* `keepUnmatched_eq_ok_iff`: when there is a result, and which. `mem_reject_iff`: which findings are
  in it.
* `reject_filter`: the filter by the two reasons, applied once or twice, and what it depends on.
-/

namespace Deadwood.Ignore

variable {specs : List Spec} {metas : Table Symbol Meta} {s : Symbol} {info : Option Meta}

/-! ## Specifications and their answers -/

/-- No specification covers a symbol if and only if each of them answers that it does not. -/
theorem matchesAny_eq_false_iff :
    matchesAny specs s info = .ok false ↔ ∀ spec ∈ specs, spec.matches s info = .ok false := by
  induction specs with
  | nil => simp [matchesAny]
  | cons spec rest ih =>
    rw [matchesAny, List.forall_mem_cons, ← ih]
    cases spec.matches s info with
    | error e => simp [bind, Except.bind]
    | ok b => cases b <;> simp [bind, Except.bind, pure, Except.pure]

/-- One of the specifications covers the symbol. -/
def CoveredBy (specs : List Spec) (s : Symbol) (info : Option Meta) : Prop :=
  ∃ spec ∈ specs, spec.matches s info = .ok true

/-- Every specification that is asked answers; one is asked if none in front of it covers the
symbol. -/
def Answered (specs : List Spec) (s : Symbol) (info : Option Meta) : Prop :=
  ∀ before spec behind, specs = before ++ spec :: behind →
    (∀ b ∈ before, b.matches s info = .ok false) → ∃ answer, spec.matches s info = .ok answer

theorem answered_cons_iff {spec : Spec} {rest : List Spec} : Answered (spec :: rest) s info ↔
    spec.matches s info = .ok true ∨ spec.matches s info = .ok false ∧ Answered rest s info := by
  constructor
  · intro h
    obtain ⟨answer, hanswer⟩ := h [] spec rest rfl (List.forall_mem_nil _)
    cases answer with
    | true => exact .inl hanswer
    | false =>
      refine .inr ⟨hanswer, fun before spec' behind hrest hbefore => ?_⟩
      have hspecs : spec :: rest = spec :: before ++ spec' :: behind := by
        rw [hrest, List.cons_append]
      exact h (spec :: before) spec' behind hspecs (List.forall_mem_cons.2 ⟨hanswer, hbefore⟩)
  · rintro h before spec' behind hspecs hbefore
    cases before with
    | nil =>
      cases hspecs
      exact h.elim (fun h => ⟨true, h⟩) fun h => ⟨false, h.1⟩
    | cons b before =>
      cases hspecs
      obtain ⟨hb, hbefore⟩ := List.forall_mem_cons.1 hbefore
      rcases h with h | ⟨-, h⟩
      · rw [hb] at h
        cases h
      · exact h before spec' behind rfl hbefore

/-- The search for a specification that covers a symbol has a result if and only if all that are
asked answer. -/
theorem answered_iff : Answered specs s info ↔ ∃ b, matchesAny specs s info = .ok b := by
  induction specs with
  | nil => exact iff_of_true (fun before spec behind h => by simp at h) ⟨false, rfl⟩
  | cons spec rest ih =>
    rw [answered_cons_iff, ih, matchesAny]
    cases spec.matches s info with
    | error e => simp [bind, Except.bind]
    | ok b => cases b <;> simp [bind, Except.bind, pure, Except.pure]

/-- Where there is a result, no specification covers the symbol if and only if it is `false`. -/
theorem not_coveredBy_iff (h : Answered specs s info) :
    ¬ CoveredBy specs s info ↔ matchesAny specs s info = .ok false := by
  constructor
  · intro hnone
    induction specs with
    | nil => rfl
    | cons spec rest ih =>
      rcases answered_cons_iff.1 h with htrue | ⟨hfalse, hrest⟩
      · exact absurd ⟨spec, List.mem_cons_self, htrue⟩ hnone
      · rw [matchesAny, hfalse]
        refine ih hrest ?_
        rintro ⟨spec', hspec', h'⟩
        exact hnone ⟨spec', List.mem_cons_of_mem _ hspec', h'⟩
  · rintro hfalse ⟨spec, hspec, htrue⟩
    rw [matchesAny_eq_false_iff.1 hfalse spec hspec] at htrue
    cases htrue

/-! ## Unused classes -/

theorem mem_unusedClasses_iff {fs : List Finding} {S : String} :
    S ∈ unusedClasses fs ↔ ∃ f ∈ fs, f.kind = .unused ∧ f.symbol = .classOf S := by
  simp only [unusedClasses, List.mem_map, List.mem_filter, Bool.and_eq_true, decide_eq_true_eq]
  constructor
  · rintro ⟨f, ⟨hf, ⟨hkind, hname⟩, harity⟩, rfl⟩
    refine ⟨f, hf, hkind, ?_⟩
    rw [Symbol.classOf, ← hname, ← harity]
  · rintro ⟨f, hf, hkind, hsymbol⟩
    refine ⟨f, ⟨hf, ⟨hkind, ?_⟩, ?_⟩, ?_⟩ <;> rw [hsymbol] <;> rfl

theorem isFieldsOf_iff {classes : List String} {s : Symbol} :
    isFieldsOf classes s = true ↔ ∃ S ∈ classes, s = .fieldsOf S := by
  obtain ⟨scope, name, arity⟩ := s
  simp only [isFieldsOf, Bool.and_eq_true, decide_eq_true_eq, List.contains_iff_mem,
    Symbol.fieldsOf,
    Symbol.mk.injEq]
  constructor
  · rintro ⟨⟨rfl, rfl⟩, h⟩
    exact ⟨scope, h, rfl, rfl, rfl⟩
  · rintro ⟨S, h, rfl, rfl, rfl⟩
    exact ⟨⟨rfl, rfl⟩, h⟩

/-- The symbol is the initializer of the fields of a class that the findings report as unused. -/
def OfUnusedClass (fs : List Finding) (s : Symbol) : Prop :=
  ∃ S, s = .fieldsOf S ∧ ∃ f ∈ fs, f.kind = .unused ∧ f.symbol = .classOf S

theorem ofUnusedClass_iff {fs : List Finding} :
    isFieldsOf (unusedClasses fs) s = true ↔ OfUnusedClass fs s := by
  simp only [isFieldsOf_iff, mem_unusedClasses_iff, OfUnusedClass]
  exact exists_congr fun S => and_comm

theorem OfUnusedClass.mono {fs fs' : List Finding} (hsub : fs ⊆ fs') (h : OfUnusedClass fs s) :
    OfUnusedClass fs' s := by
  obtain ⟨S, hs, f, hf, hunused⟩ := h
  exact ⟨S, hs, f, hsub hf, hunused⟩

/-! ## Which findings are left -/

/-- Whether a finding is left, given the scopes of the unused classes and that the specifications
answer. -/
def isLeft (classes : List String) (specs : List Spec) (metas : Table Symbol Meta) (f : Finding) :
    Bool :=
  !isFieldsOf classes f.symbol && (matchesAny specs f.symbol (metas.find? f.symbol)).toOption ==
    some false

theorem isLeft_iff {classes : List String} {f : Finding} : isLeft classes specs metas f = true ↔
    isFieldsOf classes f.symbol = false ∧ matchesAny specs f.symbol (metas.find? f.symbol) =
      .ok false := by
  rw [isLeft, Bool.and_eq_true, Bool.not_eq_true', beq_iff_eq]
  cases matchesAny specs f.symbol (metas.find? f.symbol) <;> simp [Except.toOption]

theorem keepUnmatched_cons_of_fields {classes : List String} {f : Finding}
    (h : isFieldsOf classes f.symbol = true) (rest : List Finding) :
    keepUnmatched classes specs metas (f :: rest) = keepUnmatched classes specs metas rest := by
  rw [keepUnmatched, if_pos h]

theorem keepUnmatched_cons {classes : List String} {f : Finding}
    (h : ¬ isFieldsOf classes f.symbol = true) (rest : List Finding) :
    keepUnmatched classes specs metas (f :: rest) =
      (matchesAny specs f.symbol (metas.find? f.symbol)).bind fun covered =>
        if covered then keepUnmatched classes specs metas rest
        else (keepUnmatched classes specs metas rest).map (f :: ·) := by
  rw [keepUnmatched, if_neg h]
  cases matchesAny specs f.symbol (metas.find? f.symbol) with
  | error e => rfl
  | ok covered =>
    cases covered with
    | true => rfl
    | false => cases keepUnmatched classes specs metas rest <;> rfl

theorem keepUnmatched_of_answered {classes : List String} {fs : List Finding}
    (h : ∀ f ∈ fs, isFieldsOf classes f.symbol = true ∨
      Answered specs f.symbol (metas.find? f.symbol)) :
    keepUnmatched classes specs metas fs = .ok (fs.filter (isLeft classes specs metas)) := by
  induction fs with
  | nil => rfl
  | cons f rest ih =>
    obtain ⟨hf, hrest⟩ := List.forall_mem_cons.1 h
    by_cases hfields : isFieldsOf classes f.symbol = true
    · have hout : ¬ isLeft classes specs metas f = true := by simp [isLeft, hfields]
      rw [keepUnmatched_cons_of_fields hfields, ih hrest, List.filter_cons_of_neg hout]
    · obtain ⟨covered, hcovered⟩ := answered_iff.1 (hf.resolve_left hfields)
      rw [keepUnmatched_cons hfields, hcovered, ih hrest]
      cases covered with
      | true =>
        have hout : ¬ isLeft classes specs metas f = true := by simp [isLeft_iff, hcovered]
        rw [List.filter_cons_of_neg hout]
        rfl
      | false =>
        rw [List.filter_cons_of_pos (isLeft_iff.2 ⟨Bool.eq_false_iff.2 hfields, hcovered⟩)]
        rfl

theorem answered_of_keepUnmatched {classes : List String} {fs kept : List Finding}
    (h : keepUnmatched classes specs metas fs = .ok kept) :
    ∀ f ∈ fs, isFieldsOf classes f.symbol = true ∨
      Answered specs f.symbol (metas.find? f.symbol) := by
  induction fs generalizing kept with
  | nil => exact List.forall_mem_nil _
  | cons f rest ih =>
    rw [List.forall_mem_cons]
    by_cases hfields : isFieldsOf classes f.symbol = true
    · rw [keepUnmatched_cons_of_fields hfields] at h
      exact ⟨.inl hfields, ih h⟩
    · rw [keepUnmatched_cons hfields] at h
      cases hmatch : matchesAny specs f.symbol (metas.find? f.symbol) with
      | error e =>
        rw [hmatch] at h
        cases h
      | ok covered =>
        refine ⟨.inr (answered_iff.2 ⟨covered, hmatch⟩), ?_⟩
        cases hrest : keepUnmatched classes specs metas rest with
        | ok others => exact ih hrest
        | error e =>
          rw [hmatch, hrest] at h
          cases covered <;> cases h

/-- There is a result if and only if the specifications answer for every finding but those about
initializers of unused classes; it has the findings that are left, in order. -/
theorem keepUnmatched_eq_ok_iff {classes : List String} {fs kept : List Finding} :
    keepUnmatched classes specs metas fs = .ok kept ↔
      (∀ f ∈ fs, isFieldsOf classes f.symbol = true ∨
        Answered specs f.symbol (metas.find? f.symbol)) ∧
        kept = fs.filter (isLeft classes specs metas) := by
  constructor
  · intro h
    have hanswered := answered_of_keepUnmatched h
    exact ⟨hanswered, Except.ok.inj (h.symm.trans (keepUnmatched_of_answered hanswered))⟩
  · rintro ⟨hanswered, rfl⟩
    exact keepUnmatched_of_answered hanswered

theorem exists_keepUnmatched (h : ∀ spec ∈ specs, spec.Total) (classes : List String)
    (fs : List Finding) :
    ∃ kept, keepUnmatched classes specs metas fs = .ok kept :=
  ⟨_, keepUnmatched_of_answered fun _ _ => .inr (answered_iff.2 (exists_matchesAny h _ _))⟩

/-- **A finding is left** if and only if it is not about the initializer of a class that is reported
as unused, and no specification covers its symbol. -/
theorem mem_reject_iff {fs kept : List Finding} (h : reject fs specs metas = .ok kept)
    {f : Finding} :
    f ∈ kept ↔ f ∈ fs ∧ isFieldsOf (unusedClasses fs) f.symbol = false ∧
      matchesAny specs f.symbol (metas.find? f.symbol) = .ok false := by
  obtain ⟨-, rfl⟩ := keepUnmatched_eq_ok_iff.1 h
  rw [List.mem_filter, isLeft_iff]

theorem exists_reject_iff {fs : List Finding} : (∃ kept, reject fs specs metas = .ok kept) ↔
    ∀ f ∈ fs, OfUnusedClass fs f.symbol ∨ Answered specs f.symbol (metas.find? f.symbol) := by
  simp only [reject, keepUnmatched_eq_ok_iff, ofUnusedClass_iff]
  constructor
  · rintro ⟨kept, h, -⟩
    exact h
  · exact fun h => ⟨_, h, rfl⟩

/-! ## The filter -/

/-- The reasons for which a finding is left out. -/
def LeftOut (fs : List Finding) (specs : List Spec) (metas : Table Symbol Meta) (f : Finding) :
    Prop :=
  CoveredBy specs f.symbol (metas.find? f.symbol) ∨ OfUnusedClass fs f.symbol

theorem isLeft_iff_not_leftOut {fs : List Finding} {f : Finding}
    (h : OfUnusedClass fs f.symbol ∨ Answered specs f.symbol (metas.find? f.symbol)) :
    isLeft (unusedClasses fs) specs metas f = true ↔ ¬ LeftOut fs specs metas f := by
  rw [isLeft_iff, LeftOut, not_or, and_comm, ← ofUnusedClass_iff, Bool.not_eq_true]
  refine and_congr_left fun hfields => ?_
  rw [← ofUnusedClass_iff, hfields] at h
  rw [not_coveredBy_iff (h.resolve_left nofun)]

open scoped Classical in
/-- What is left are the findings that there is no reason to leave out, in order. -/
theorem eq_filter_of_reject {fs kept : List Finding} (h : reject fs specs metas = .ok kept) :
    kept = fs.filter fun f => ¬ LeftOut fs specs metas f := by
  have hanswered := exists_reject_iff.1 ⟨kept, h⟩
  obtain ⟨-, rfl⟩ := keepUnmatched_eq_ok_iff.1 h
  refine List.filter_congr fun f hf => ?_
  rw [Bool.eq_iff_iff, isLeft_iff_not_leftOut (hanswered f hf), decide_eq_true_iff]

/-- Nothing more is left out of what is left: its classes are among those that were reported
before. -/
theorem reject_of_reject {fs kept : List Finding} (h : reject fs specs metas = .ok kept) :
    reject kept specs metas = .ok kept := by
  have hsub : kept ⊆ fs := fun f hf => ((mem_reject_iff h).1 hf).1
  have hleft : ∀ f ∈ kept, isLeft (unusedClasses kept) specs metas f = true := by
    intro f hf
    obtain ⟨-, hfields, hmatch⟩ := (mem_reject_iff h).1 hf
    refine isLeft_iff.2 ⟨Bool.eq_false_iff.2 fun hkept => ?_, hmatch⟩
    rw [ofUnusedClass_iff.2 ((ofUnusedClass_iff.1 hkept).mono hsub)] at hfields
    cases hfields
  refine keepUnmatched_eq_ok_iff.2 ⟨fun f hf => .inr ?_, (List.filter_eq_self.2 hleft).symm⟩
  exact answered_iff.2 ⟨false, (isLeft_iff.1 (hleft f hf)).2⟩

/-- The specifications matter for what they cover alone. -/
theorem reject_congr {specs' : List Spec} {fs : List Finding} (h : ∀ spec ∈ specs, spec.Total)
    (h' : ∀ spec ∈ specs', spec.Total)
    (hcovered : ∀ f ∈ fs, CoveredBy specs f.symbol (metas.find? f.symbol) ↔
      CoveredBy specs' f.symbol (metas.find? f.symbol)) :
    ∃ kept, reject fs specs metas = .ok kept ∧ reject fs specs' metas = .ok kept := by
  obtain ⟨kept, hkept⟩ : ∃ kept, reject fs specs metas = .ok kept := exists_keepUnmatched h _ fs
  obtain ⟨kept', hkept'⟩ : ∃ kept, reject fs specs' metas = .ok kept := exists_keepUnmatched h' _ fs
  refine ⟨kept, hkept, hkept'.trans (congrArg Except.ok ?_)⟩
  rw [eq_filter_of_reject hkept, eq_filter_of_reject hkept']
  refine List.filter_congr fun f hf => ?_
  have hreasons : LeftOut fs specs' metas f ↔ LeftOut fs specs metas f :=
    or_congr_left (hcovered f hf).symm
  exact decide_eq_decide.2 (not_congr hreasons)

open scoped Classical in
/-- **Leaving findings out is a filter.** It has a result if and only if all specifications answer
that are asked; these are not asked about initializers of unused classes. The result has the
findings that there is no reason to leave out, in order, and leaving findings out of it again
changes nothing. Specifications that do not fail and cover the same symbols give the same result. -/
theorem reject_filter (fs : List Finding) (specs : List Spec) (metas : Table Symbol Meta) :
    ((∃ kept, reject fs specs metas = .ok kept) ↔
      ∀ f ∈ fs, OfUnusedClass fs f.symbol ∨ Answered specs f.symbol (metas.find? f.symbol)) ∧
    (∀ kept, reject fs specs metas = .ok kept → kept.Sublist fs ∧
      (kept = fs.filter fun f => ¬ LeftOut fs specs metas f) ∧ reject kept specs metas = .ok kept) ∧
    ∀ specs', (∀ spec ∈ specs, spec.Total) → (∀ spec ∈ specs', spec.Total) →
      (∀ f ∈ fs, CoveredBy specs f.symbol (metas.find? f.symbol) ↔
        CoveredBy specs' f.symbol (metas.find? f.symbol)) →
      ∃ kept, reject fs specs metas = .ok kept ∧ reject fs specs' metas = .ok kept := by
  refine ⟨exists_reject_iff, fun kept hkept => ?_, fun specs' h h' => reject_congr h h'⟩
  have hfilter := eq_filter_of_reject hkept
  refine ⟨?_, hfilter, reject_of_reject hkept⟩
  rw [hfilter]
  exact List.filter_sublist

/-- A class that is unused, with the initializer of its fields, and two functions. -/
def lostFindings : List Finding :=
  [⟨.fieldsOf "m.C", .recursiveOnly, ⟨"m.py", 1⟩, "", "hint"⟩,
    ⟨.classOf "m.C", .unused, ⟨"m.py", 1⟩, "", "hint"⟩,
    ⟨⟨"n", "g", 0⟩, .unused, ⟨"n.py", 1⟩, "", "hint"⟩,
      ⟨⟨"m", "f", 0⟩, .narrowable, ⟨"m.py", 5⟩, "", "hint"⟩]

/-- Every symbol of the module `n`. -/
def wide : Spec := .scope (.exact "n")

/-- A function of the module `n`. -/
def narrow : Spec := .symbol (.exact "n") (.exact "g") .any

theorem lostFindings_left : ∃ kept, reject lostFindings [wide] ∅ = .ok kept ∧
    reject lostFindings [wide, narrow] ∅ = .ok kept ∧ reject kept [wide] ∅ = .ok kept ∧
      kept.map (·.symbol) = [.classOf "m.C", ⟨"m", "f", 0⟩] := by
  obtain ⟨-, hleft, hsame⟩ := reject_filter lostFindings [wide] ∅
  have hwide : wide.Total := fun s info => ⟨_, rfl⟩
  have hnarrow : narrow.Total := fun s info => ⟨_, rfl⟩
  obtain ⟨kept, h, h'⟩ :=
    hsame [wide, narrow] (by simpa using hwide) (by simpa using ⟨hwide, hnarrow⟩) (by
    intro f _
    constructor
    · rintro ⟨spec, hspec, hcovers⟩
      exact ⟨spec, List.mem_cons.2 (.inl (List.mem_singleton.1 hspec)), hcovers⟩
    · rintro ⟨spec, hspec, hcovers⟩
      refine ⟨wide, List.mem_singleton_self _, ?_⟩
      rcases List.mem_pair.1 hspec with rfl | rfl
      · exact hcovers
      · simp only [narrow, wide, Spec.matches, TextField.holds, Except.ok.injEq, Bool.and_eq_true]
          at hcovers ⊢
        exact hcovers.1.1)
  refine ⟨kept, h, h', (hleft kept h).2.2, ?_⟩
  cases h
  rfl

end Deadwood.Ignore
