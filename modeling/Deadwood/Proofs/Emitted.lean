import Deadwood.Proofs.Layout
import Deadwood.Proofs.Link
import Deadwood.Proofs.Occurrences
import Deadwood.Proofs.Statement

/-!
# What a module tells

The facts of a module whose names are identifiers are well formed: definitions and callers can name
a definition, and what is called has a name of one segment. What a name stands for need not be an
identifier, but it ends in one, because it comes from an import, a definition or an attribute
(`Names.Sound`).

* `Told F events` says once what a walk can tell; what follows for all events is read off it.
* `told_walk`: a walk tells that, and keeps the names sound.
* `emitted_factsOf`: the facts of a module are well formed.
-/

namespace Deadwood.Collect

open Source

variable {F : String → Prop} {p : Place} {n : Names}

/-! ## What names stand for -/

/-- What the names stand for ends in a name. -/
structure Names.Sound (n : Names) : Prop where
  module : ∀ a ∈ n.module.entries, Dotted.last a.2 ≠ ""
  locals : ∀ t ∈ n.locals, ∀ a ∈ t.entries, Dotted.last a.2 ≠ ""

namespace Names.Sound

theorem empty : Sound {} := ⟨nofun, nofun⟩

theorem push (h : n.Sound) : n.push.Sound :=
  ⟨h.module, List.forall_mem_cons.2 ⟨nofun, h.locals⟩⟩

theorem bindTop (h : n.Sound) {name target : String} (ht : Dotted.last target ≠ "") :
    (n.bindTop name target).Sound := by
  refine ⟨fun a ha => ?_, h.locals⟩
  rcases Table.mem_of_mem_insert ha with rfl | ha
  · exact ht
  · exact h.module a ha

theorem bind (h : n.Sound) {isRelative : Bool} {name target : String}
    (ht : Dotted.last target ≠ "") :
    (n.bind isRelative name target).Sound := by
  have hlocals := h.locals
  unfold Names.bind
  cases hn : n.locals with
  | nil =>
    have htop : (n.bindTop name target).Sound := h.bindTop ht
    exact ⟨htop.module, htop.locals⟩
  | cons t rest =>
    rw [hn, List.forall_mem_cons] at hlocals
    refine ⟨h.module, List.forall_mem_cons.2 ⟨fun a ha => ?_, hlocals.2⟩⟩
    rcases Table.mem_of_mem_insert ha with rfl | ha
    · exact ht
    · exact hlocals.1 a ha

end Names.Sound

/-- What an import binds a name to ends in a name. -/
theorem last_of_mem_imports {s : Stmt} (hs : s.Named F) :
    ∀ b ∈ p.imports s, Dotted.last b.2 ≠ "" := by
  intro b hb
  cases s with
  | importModules names =>
    obtain ⟨i, hi, rfl⟩ := List.mem_map.1 hb
    have hsegments : ∀ part ∈ Dotted.segments i.name, part ≠ "" := hs i hi
    have hfirst := Dotted.first_mem_segments i.name
    cases i.rename with
    | some name => exact hsegments _ (Dotted.last_mem_segments i.name)
    | none =>
      rw [Dotted.last_of_simple (Dotted.simple_of_mem_segments hfirst)]
      exact hsegments _ hfirst
  | importFrom level module names =>
    obtain ⟨i, hi, rfl⟩ := List.mem_map.1 hb
    obtain ⟨hi, hstar⟩ := List.mem_filter.1 hi
    have hid : Identifier i.name := hs i hi (by simpa using hstar)
    have hlast : Dotted.last i.name ≠ "" := by
      rw [Dotted.last_of_simple hid.2]
      exact hid.1
    dsimp only
    split
    · exact hlast
    · rwa [Dotted.last_below]
  | _ => cases hb

theorem Names.Sound.register (h : n.Sound) {s : Stmt} (hs : s.Named F) : (n.register p s).Sound :=
  List.foldlRecOn _ _ h fun _ hm b hb => hm.bind (last_of_mem_imports hs b hb)

/-! ## Looking up -/

theorem eq_some_of_orElse {α : Type} {a b : Option α} {x : α} (h : (a <|> b) = some x) :
    a = some x ∨ b = some x := by
  cases a with
  | none => exact .inr h
  | some y => exact .inl h

theorem Names.Sound.last_findIn (h : n.Sound) {name target : String}
    (ht : findIn name n.locals = some target) :
    Dotted.last target ≠ "" := by
  obtain ⟨t, htable, hfind⟩ := List.exists_of_findSome?_eq_some ht
  exact h.locals t htable (name, target) (Table.mem_of_find? hfind)

/-- What a name stands for ends in a name, if the name itself does. -/
theorem Names.Sound.last_resolve? (h : n.Sound) {name target : String}
    (hname : Dotted.last name ≠ "") (ht : resolve? p n name = some target) :
    Dotted.last target ≠ "" := by
  have hbelow (scope : String) : Dotted.last (Dotted.below scope name) ≠ "" := by
    rwa [Dotted.last_below]
  rcases eq_some_of_orElse ht with ht | ht
  · exact h.last_findIn ht
  rcases eq_some_of_orElse ht with ht | ht
  · split at ht
    · obtain ⟨c, -, ht⟩ := Option.bind_eq_some_iff.1 ht
      split at ht
      · cases ht
        exact hbelow c.name
      · cases ht
    · cases ht
  rcases eq_some_of_orElse ht with ht | ht
  · split at ht
    · cases ht
      exact hbelow p.module
    · cases ht
  · exact h.module (name, target) (Table.mem_of_find? ht)

theorem Names.Sound.last_resolveDotted? (h : n.Sound) {dotted target : String}
    (hd : Dotted.last dotted ≠ "") (ht : resolveDotted? p n dotted = some target) :
    Dotted.last target ≠ "" := by
  unfold resolveDotted? at ht
  split at ht
  · exact h.last_resolve? hd ht
  · rename_i head rest hcut
    obtain ⟨t, -, rfl⟩ := Option.map_eq_some_iff.1 ht
    rwa [Dotted.last_below, ← Dotted.last_below head, ← Dotted.eq_below_of_cutFirst hcut]

theorem last_of_identifier {id : String} (h : Identifier id) : Dotted.last id ≠ "" := by
  rw [Dotted.last_of_simple h.2]
  exact h.1

theorem last_below_identifier {id : String} (h : Identifier id) (scope : String) :
    Dotted.last (Dotted.below scope id) ≠ "" := by
  rw [Dotted.last_below]
  exact last_of_identifier h

theorem last_reference? {e : Expr} (he : e.Named) {dotted : String}
    (hd : e.reference? = some dotted) :
    Dotted.last dotted ≠ "" := by
  cases e with
  | name line id use =>
    cases hd
    exact last_of_identifier he
  | member line value field use =>
    obtain ⟨d, -, rfl⟩ := Option.map_eq_some_iff.1 hd
    exact last_below_identifier he.2 d
  | _ => cases hd

theorem last_resolveAttribute? {value : Expr} {field target : String} (hfield : Identifier field)
    (ht : resolveAttribute? p n value field = some target) : Dotted.last target ≠ "" := by
  have hplain : (do
      let dotted ← value.reference?
      if isReceiver (Dotted.first dotted) then none
      else (resolveDotted? p n dotted).map (Dotted.below · field)) = some target →
        Dotted.last target ≠ "" := by
    intro ht
    obtain ⟨d, -, ht⟩ := Option.bind_eq_some_iff.1 ht
    split at ht
    · cases ht
    · obtain ⟨t, -, rfl⟩ := Option.map_eq_some_iff.1 ht
      exact last_below_identifier hfield t
  unfold resolveAttribute? at ht
  dsimp only at ht
  split at ht
  · split at ht
    · cases ht
      exact last_below_identifier hfield _
    · exact hplain ht
  · exact hplain ht

/-- The last segment of a name as the name of a symbol. -/
theorem identifier_last {dotted : String} (h : Dotted.last dotted ≠ "") :
    Identifier (Dotted.last dotted) :=
  ⟨h, Dotted.simple_last dotted⟩

/-- **What is called has a name of one segment.** -/
theorem Names.Sound.identifier_callee? (h : n.Sound) {function : Expr} (hf : function.Named)
    {argc : Nat} {s : Symbol} (hs : callee? p n function argc = some s) : Identifier s.name := by
  cases function with
  | name line id use =>
    simp only [callee?] at hs
    split at hs
    · rename_i target ht
      cases hs
      exact identifier_last (h.last_resolve? (last_of_identifier hf) ht)
    · split at hs
      · cases hs
        exact hf
      · cases hs
  | member line value field use =>
    simp only [callee?] at hs
    split at hs
    · cases hs
      exact hf.2
    · split at hs
      · rename_i target ht
        cases hs
        exact identifier_last (last_resolveAttribute? hf.2 ht)
      · cases hs
        exact hf.2
  | _ => cases hs

/-! ## Uses -/

theorem identifier_of_mem_callUse (h : n.Sound) {line argc : Nat} {function : Expr}
    (hf : function.Named) :
    ∀ u ∈ callUse p n line function argc, Identifier u.target.name := by
  intro u hu
  obtain ⟨s, hs, rfl⟩ := Option.map_eq_some_iff.1 (Option.mem_toList.1 hu)
  exact h.identifier_callee? hf hs

theorem identifier_of_mem_nameUse (h : n.Sound) {line : Nat} {id : String} {use : Use}
    (hid : Identifier id) :
    ∀ u ∈ nameUse p n line id use, Identifier u.target.name := by
  intro u hu
  cases use with
  | store => cases hu
  | load =>
    simp only [nameUse] at hu
    split at hu
    · cases hu
    · obtain ⟨t, ht, rfl⟩ := Option.map_eq_some_iff.1 (Option.mem_toList.1 hu)
      exact identifier_last (h.last_resolve? (last_of_identifier hid) ht)

theorem identifier_of_mem_attributeUse {line : Nat} {value : Expr} {field : String} {use : Use}
    (hfield : Identifier field) :
    ∀ u ∈ attributeUse p n line value field use, Identifier u.target.name := by
  intro u hu
  cases use with
  | store => cases hu
  | load =>
    obtain ⟨t, ht, rfl⟩ := Option.map_eq_some_iff.1 (Option.mem_toList.1 hu)
    exact identifier_last (last_resolveAttribute? hfield ht)

mutual

/-- The names in the parts of an expression are identifiers, too. -/
theorem named_of_mem_inner (e : Expr) (he : e.Named) : ∀ o ∈ e.inner, o.expr.Named := by
  cases e with
  | name line id use => exact List.forall_mem_nil _
  | member line value field use =>
    exact List.forall_mem_cons.2 ⟨he.1, named_of_mem_inner value he.1⟩
  | call line function arguments keywords =>
    simp only [Expr.inner, List.forall_mem_append, List.forall_mem_cons]
    exact ⟨⟨⟨he.1, named_of_mem_inner function he.1⟩, named_of_mem_withinAll arguments he.2.1⟩,
      named_of_mem_withinAll keywords he.2.2⟩
  | subscript value index =>
    simp only [Expr.inner, List.forall_mem_append, List.forall_mem_cons]
    exact ⟨⟨he.1, named_of_mem_inner value he.1⟩, he.2, named_of_mem_inner index he.2⟩
  | text value => exact List.forall_mem_nil _
  | constant => exact List.forall_mem_nil _
  | starred value => exact List.forall_mem_cons.2 ⟨he, named_of_mem_inner value he⟩
  | tuple items => exact named_of_mem_withinAll items he
  | list items => exact named_of_mem_withinAll items he
  | set items => exact named_of_mem_withinAll items he
  | lambda keywordDefaults defaults body =>
    simp only [Expr.inner, List.forall_mem_append, List.forall_mem_cons]
    exact ⟨⟨named_of_mem_withinAll keywordDefaults he.1, named_of_mem_withinAll defaults he.2.1⟩,
      he.2.2,
      named_of_mem_inner body he.2.2⟩
  | compound form parts => exact named_of_mem_withinAll parts he

theorem named_of_mem_withinAll (es : List Expr) (hes : Expr.AllNamed es) :
    ∀ o ∈ Expr.withinAll es, o.expr.Named := by
  cases es with
  | nil => exact List.forall_mem_nil _
  | cons e rest =>
    exact List.forall_mem_cons.2 ⟨hes.1, List.forall_mem_append.2 ⟨named_of_mem_inner e hes.1,
      named_of_mem_withinAll rest hes.2⟩⟩

end

theorem identifier_of_mem_ownUses (h : n.Sound) {o : Occurrence} (ho : o.expr.Named) :
    ∀ u ∈ ownUses p n o, Identifier u.target.name := by
  obtain ⟨e, called⟩ := o
  cases e with
  | name line id use =>
    cases called with
    | false => exact identifier_of_mem_nameUse h ho
    | true => exact List.forall_mem_nil _
  | member line value field use =>
    cases called with
    | false => exact identifier_of_mem_attributeUse ho.2
    | true => exact List.forall_mem_nil _
  | call line function arguments keywords => exact identifier_of_mem_callUse h ho.1
  | _ => exact List.forall_mem_nil _

/-- What expressions use has a name of one segment. -/
theorem identifier_of_mem_usesAll (h : n.Sound) (es : List Expr) (hes : Expr.AllNamed es) :
    ∀ u ∈ usesAll p n es, Identifier u.target.name := by
  intro u hu
  rw [usesAll_eq_within, List.mem_flatMap] at hu
  obtain ⟨o, ho, hu⟩ := hu
  exact identifier_of_mem_ownUses h (named_of_mem_withinAll es hes o ho) u hu

/-! ## What is told -/

/-- The definitions that own uses: a module's own code, a function whose name satisfies `F`, and a
class. -/
inductive Owner (F : String → Prop) : Symbol → Prop
  | body (module : String) : Owner F (.body module)
  | function (scope : String) {name : String} (arity : Nat) (hname : Identifier name)
    (hF : F name) :
      Owner F ⟨scope, name, arity⟩
  | classOf (scope : String) : Owner F (.classOf scope)

/-- What a walk can tell: uses by owners of what has a name, functions and classes, one after the
other. -/
inductive Told (F : String → Prop) : List Event → Prop
  | nil : Told F []
  | append {events events' : List Event} (h : Told F events) (h' : Told F events') :
    Told F (events ++ events')
  | use {caller callee : Symbol} (line : Nat) (hcaller : Owner F caller)
    (hcallee : Identifier callee.name) :
      Told F [.use caller callee line]
  | function (p : Place) (line : Nat) {name : String} (parameters : Parameters)
    (decorators : List Expr)
      (body : List Stmt) (hname : Identifier name) (hF : F name) :
      Told F [functionEvent p line name parameters decorators body]
  | classDef (p : Place) (c : Enclosure) (line : Nat) (name : String) (decorators : List Expr)
    (body : List Stmt) :
      Told F (classEvents p c line name decorators body)

theorem owner_functionSymbol {name : String} (hname : Identifier name) (hF : F name)
    (parameters : Parameters) (decorators : List Expr) :
    Owner F (functionSymbol p name parameters decorators) :=
  .function p.scope _ hname hF

theorem told_useEvents (hp : Owner F p.caller) (h : n.Sound) {es : List Expr}
    (hes : Expr.AllNamed es) :
    Told F (useEvents p n es) := by
  have huses := identifier_of_mem_usesAll (p := p) h es hes
  unfold useEvents
  generalize usesAll p n es = us at huses
  induction us with
  | nil => exact .nil
  | cons u rest ih =>
    rw [List.forall_mem_cons] at huses
    exact .append (.use u.line hp huses.1) (ih huses.2)

theorem Names.Sound.aliasAssigned (h : n.Sound) (targets : List Expr) {value : Expr}
    (hvalue : value.Named) :
    (aliasAssigned p n targets value).Sound := by
  unfold Collect.aliasAssigned
  split
  · split
    · rename_i target ht
      obtain ⟨d, hd, ht⟩ := Option.bind_eq_some_iff.1 ht
      have hlast := h.last_resolveDotted? (last_reference? hvalue hd) ht
      exact List.foldlRecOn _ _ h fun _ hm _ _ => hm.bindTop hlast
    · exact h
  · exact h

mutual

/-- **What a statement tells** is a use, a function or a class, and the names behind it are
sound. -/
theorem told_walk {p : Place} {n : Names} (hp : Owner F p.caller) (h : n.Sound) (s : Stmt)
    (hs : s.Named F) :
    Told F (walk p n s).1 ∧ (walk p n s).2.Sound := by
  cases s with
  | function line name parameters decorators body =>
    obtain ⟨⟨hname, hF⟩, hparameters, hdecorators, hbody⟩ := hs
    have houter :
        Told F (useEvents p n (decorators ++ parameters.defaults ++ parameters.keywordDefaults)) :=
      told_useEvents hp h
        (Expr.allNamed_append.2 ⟨Expr.allNamed_append.2 ⟨hdecorators, hparameters.1⟩,
        hparameters.2⟩)
    rw [walk]
    split
    · exact ⟨.append houter (told_walkAll hp h.push body hbody).1, h⟩
    · have hinside :
          Owner F (p.insideFunction (functionSymbol p name parameters decorators)).caller :=
        owner_functionSymbol hname hF parameters decorators
      have hfunction := Told.function p line parameters decorators body hname hF
      exact ⟨.append houter (.append hfunction (told_walkAll hinside h.push body hbody).1), h⟩
  | classDef line name bases keywords decorators body =>
    obtain ⟨-, hbases, hkeywords, hdecorators, hbody⟩ := hs
    have houter := told_useEvents hp h hdecorators
    have harguments := Expr.allNamed_append.2 ⟨hbases, hkeywords⟩
    rw [walk]
    split
    · obtain ⟨hall, hnames⟩ := told_walkAll hp h body hbody
      exact ⟨.append (.append houter (told_useEvents hp h harguments)) hall, hnames⟩
    · have hinside : Owner F (p.insideClass (enclosure p n name bases body)).caller := .classOf _
      obtain ⟨hall, hnames⟩ := told_walkAll hinside h body hbody
      exact ⟨.append (.append (.append houter (.classDef ..)) (told_useEvents hinside h harguments))
        hall, hnames⟩
  | importModules names => exact ⟨.nil, h.register hs⟩
  | importFrom level module names => exact ⟨.nil, h.register hs⟩
  | assign targets value =>
    have hnames := h.aliasAssigned (p := p) targets hs.2
    exact ⟨told_useEvents hp hnames (Expr.allNamed_append.2 ⟨hs.1, Expr.allNamed_singleton.2 hs.2⟩),
      hnames⟩
  | augment target value => exact ⟨told_useEvents hp h ⟨hs.1, hs.2, trivial⟩, h⟩
  | declare target hint value =>
    refine ⟨told_useEvents hp h ?_, h⟩
    have hvalue : Expr.AllNamed value.toList :=
      Expr.allNamed_iff.2 fun e he => hs.2 e (Option.mem_toList.1 he)
    unfold declaredParts
    split
    · exact hvalue
    · exact ⟨hs.1, hvalue⟩
  | evaluate value => exact ⟨told_useEvents hp h (Expr.allNamed_singleton.2 hs), h⟩
  | simple parts => exact ⟨told_useEvents hp h hs, h⟩
  | block form clauses => exact told_walkClauses hp h clauses hs

theorem told_walkAll {p : Place} {n : Names} (hp : Owner F p.caller) (h : n.Sound)
    (body : List Stmt) (hbody : Stmt.AllNamed F body) :
    Told F (walkAll p n body).1 ∧ (walkAll p n body).2.Sound := by
  cases body with
  | nil => exact ⟨.nil, h⟩
  | cons s rest =>
    obtain ⟨hfirst, hnames⟩ := told_walk hp h s hbody.1
    obtain ⟨hothers, hnames⟩ := told_walkAll hp hnames rest hbody.2
    exact ⟨.append hfirst hothers, hnames⟩

theorem told_walkClauses {p : Place} {n : Names} (hp : Owner F p.caller) (h : n.Sound)
    (clauses : List Clause) (hclauses : Clause.AllNamed F clauses) :
    Told F (walkClauses p n clauses).1 ∧ (walkClauses p n clauses).2.Sound := by
  match clauses with
  | [] => exact ⟨.nil, h⟩
  | .mk header body :: rest =>
    obtain ⟨⟨hheader, hbody⟩, hrest⟩ := hclauses
    obtain ⟨hfirst, hnames⟩ := told_walkAll hp h body hbody
    obtain ⟨hothers, hnames⟩ := told_walkClauses hp hnames rest hrest
    exact ⟨.append (.append (told_useEvents hp h hheader) hfirst) hothers, hnames⟩

end

/-! ## The outline -/

mutual

theorem named_of_mem_topStatement (s : Stmt) (hs : s.Named F) :
    ∀ t ∈ topStatement s, t.Named F := by
  cases s with
  | block form clauses =>
    refine List.forall_mem_cons.2 ⟨hs, ?_⟩
    split
    · exact nofun
    · exact named_of_mem_topClauses clauses hs
  | _ => exact fun t ht => List.mem_singleton.1 ht ▸ hs

theorem named_of_mem_topStatements (body : List Stmt) (hbody : Stmt.AllNamed F body) :
    ∀ t ∈ topStatements body, t.Named F := by
  cases body with
  | nil => exact nofun
  | cons s rest =>
    exact List.forall_mem_append.2
      ⟨named_of_mem_topStatement s hbody.1, named_of_mem_topStatements rest hbody.2⟩

theorem named_of_mem_topClauses (clauses : List Clause) (hclauses : Clause.AllNamed F clauses) :
    ∀ t ∈ topClauses clauses, t.Named F := by
  match clauses with
  | [] => exact nofun
  | .mk header body :: rest =>
    exact List.forall_mem_append.2
      ⟨named_of_mem_topStatements body hclauses.1.2, named_of_mem_topClauses rest hclauses.2⟩

end

theorem sound_outline {module : String} {isPackage : Bool} {body : List Stmt}
    (hbody : Stmt.AllNamed F body) :
    (outline module isPackage body).imports.Sound :=
  List.foldlRecOn _ _ .empty fun _ hn s hs =>
    hn.register (named_of_mem_topStatements body hbody s hs)

/-! ## Facts -/

/-- Every event tells a fact, and there are no others. -/
theorem facts_of_events {unit : String} {names : List String} {events : List Event}
    {facts : List Fact} (h : events.mapM (eventFact unit names) = .ok facts) :
    (∀ e ∈ events, ∃ f ∈ facts, eventFact unit names e = .ok f) ∧
      ∀ f ∈ facts, ∃ e ∈ events, eventFact unit names e = .ok f := by
  have hall := mapM_eq_ok_iff.1 h
  clear h
  induction hall with
  | nil => exact ⟨List.forall_mem_nil _, List.forall_mem_nil _⟩
  | cons he _ ih =>
    obtain ⟨htell, htold⟩ := ih
    simp only [List.forall_mem_cons, List.exists_mem_cons_iff]
    exact ⟨⟨.inl he, fun e' he' => .inr (htell e' he')⟩, .inl he, fun f hf => .inr (htold f hf)⟩

/-- What an event promises of the fact that it tells. -/
def Event.Emitted : Event → Prop
  | .define s info _ _ =>
    s.Valid ∧ (s.name = Symbol.bodyName → ∀ a ∈ info.aliases.entries, Dotted.last a.2 ≠ "")
  | .use caller callee _ => caller.Valid ∧ Identifier callee.name

theorem Event.Emitted.fact {unit : String} {names : List String} {e : Event} (he : e.Emitted)
    {f : Fact} (hf : eventFact unit names e = .ok f) : f.Emitted := by
  obtain ⟨s, info, doc, top, value, rfl, -, rfl⟩ | ⟨caller, callee, line, rfl, rfl⟩ :=
    eventFact_cases hf
  · exact he
  · exact he

theorem valid_body (module : String) : (Symbol.body module).Valid := by
  have hname : Symbol.bodyName ≠ "" := by decide
  exact ⟨hname, Int.le_refl 0⟩

theorem identifier_recordName : Identifier Symbol.recordName := by decide

theorem valid_classOf (scope : String) : (Symbol.classOf scope).Valid :=
  ⟨identifier_recordName.1, Int.le_refl 0⟩

theorem valid_fieldsOf (scope : String) : (Symbol.fieldsOf scope).Valid :=
  ⟨identifier_recordName.1, Int.one_nonneg⟩

theorem Owner.valid {s : Symbol} (h : Owner F s) : s.Valid := by
  cases h with
  | body module => exact valid_body module
  | function scope arity hname hF => exact ⟨hname.1, Int.natCast_nonneg arity⟩
  | classOf scope => exact valid_classOf scope

theorem Told.emitted {events : List Event} (h : Told F events) : ∀ e ∈ events, e.Emitted := by
  induction h with
  | nil => exact List.forall_mem_nil _
  | append h h' ih ih' => exact List.forall_mem_append.2 ⟨ih, ih'⟩
  | use line hcaller hcallee => exact List.forall_mem_singleton.2 ⟨hcaller.valid, hcallee⟩
  | function p line parameters decorators body hname hF =>
    exact List.forall_mem_singleton.2
      ⟨(owner_functionSymbol hname hF parameters decorators).valid, fun _ => List.forall_mem_nil _⟩
  | classDef p c line name decorators body =>
    refine List.forall_mem_cons.2 ⟨⟨valid_classOf c.name, fun _ => List.forall_mem_nil _⟩, ?_⟩
    split
    · refine List.forall_mem_cons.2
        ⟨⟨valid_fieldsOf c.name, fun _ => List.forall_mem_nil _⟩, List.forall_mem_singleton.2 ?_⟩
      exact ⟨valid_classOf c.name, identifier_recordName⟩
    · exact List.forall_mem_nil _

/-- The facts of a module are told by its own code and by what is walked over. -/
theorem exists_events {module unit : String} {isPackage : Bool} {body : List Stmt}
    (hbody : Stmt.AllNamed F body) {facts : List Fact}
    (h : factsOf module unit isPackage body = .ok facts) :
    ∃ (events : List Event) (names reexports : List String) (imports : Table String String),
      Told F events ∧
      (∀ a ∈ imports.entries, Dotted.last a.2 ≠ "") ∧
      (bodyEvent module body reexports imports :: events).mapM (eventFact unit names) =
        .ok facts := by
  have himports : (outline module isPackage body).imports.Sound := sound_outline hbody
  have hwalked :=
    told_walkAll (p := Place.top module isPackage (outline module isPackage body).defined)
    (.body module) himports body hbody
  exact ⟨_, _, _, _, hwalked.1, hwalked.2.module, h⟩

/-- **The facts of a module are well formed**, if its names are identifiers. -/
theorem emitted_factsOf {module unit : String} {isPackage : Bool} {body : List Stmt}
    (hbody : Stmt.AllNamed F body) {facts : List Fact}
    (h : factsOf module unit isPackage body = .ok facts) :
    ∀ f ∈ facts, f.Emitted := by
  obtain ⟨events, names, reexports, imports, htold, himports, hfacts⟩ := exists_events hbody h
  have hown : (bodyEvent module body reexports imports).Emitted :=
    ⟨valid_body module, fun _ a ha => himports a (List.mem_mergeSort.1 ha)⟩
  have hall : ∀ e ∈ bodyEvent module body reexports imports :: events, e.Emitted :=
    List.forall_mem_cons.2 ⟨hown, htold.emitted⟩
  intro f hf
  obtain ⟨e, he, hfact⟩ := (facts_of_events hfacts).2 f hf
  exact (hall e he).fact hfact

end Deadwood.Collect
