import Deadwood.Graph.Basic

/-!
# Building a call graph

A graph is built from records in any order. A record may be malformed: a part that should be a
symbol, a description or a place may be something else, and a symbol may be one that cannot name a
definition. Malformed records are left out and counted.

Of several definitions of a symbol the one at the earliest place is kept; each further definition at
another place than the one kept so far is counted as left out. Equal places of one edge are merged,
and the places of an edge are put in order.

The edges of a graph are kept in three ways, by the places of their calls, by caller and by callee.
`addEdge` writes all three when a caller first calls a callee.

How places compare is a parameter, in any monad: `Places.proper` compares proper places, for which
building cannot fail, and `Places.loose` compares places whose parts are values of any kind, for
which a comparison may find two parts without an order. `Object` is a record whose symbols may have
parts of any kind, too.
-/

namespace Deadwood

/-- A statement about the project as it came in. -/
inductive Record (M L : Type) where
  | definition (symbol : Option Symbol) (info : Option M)
  | call (caller callee : Option Symbol) (site : Option L)
  | unknown
deriving Repr

/-- How the builder compares the places of definitions and of calls. -/
structure Places (m : Type → Type) (M L : Type) where
  /-- Whether two definitions stand at the same place. -/
  sameDefinition : M → M → Bool
  /-- Whether the first definition stands before the second. -/
  definedBefore : M → M → m Bool
  /-- Whether two calls stand at the same place. -/
  sameSite : L → L → Bool
  /-- Whether the first call stands before the second. -/
  siteBefore : L → L → m Bool
  /-- The place of a call whose place is not known. -/
  nowhere : L

namespace Record

variable {M L : Type}

/-- A symbol that can name a definition. -/
def valid? (s : Option Symbol) : Option Symbol := s.filter fun s => decide s.Valid

/-- The definition that a well-formed record states. -/
def definition? : Record M L → Option (Symbol × M)
  | .definition s info => do pure (← valid? s, ← info)
  | _ => none

/-- The call that a well-formed record states; a place that is none becomes `nowhere`. -/
def call? (nowhere : L) : Record M L → Option ((Symbol × Symbol) × L)
  | .call caller callee site => do pure ((← valid? caller, ← valid? callee), site.getD nowhere)
  | _ => none

/-- Whether the record states nothing. -/
def isMalformed : Record M L → Bool
  | .definition s info => (valid? s).isNone || info.isNone
  | .call caller callee _ => (valid? caller).isNone || (valid? callee).isNone
  | .unknown => true

/-- A fact as a record. -/
def ofFact : Fact → Record Meta Location
  | .definition s m => .definition (some s) (some m)
  | .call caller callee site => .call (some caller) (some callee) (some site)

end Record

namespace CallGraph

variable {M L : Type} {m : Type → Type} [Monad m]

/-- Adds a definition to those kept so far, and counts it if it conflicts. -/
def keepEarliest (p : Places m M L) (kept : Table Symbol M × Nat) (d : Symbol × M) :
    m (Table Symbol M × Nat) :=
  match kept.1.find? d.1 with
  | none => pure (kept.1.insert d.1 d.2, kept.2)
  | some old =>
    if p.sameDefinition old d.2 then pure kept
    else do
      if ← p.definedBefore d.2 old then pure (kept.1.insert d.1 d.2, kept.2 + 1)
      else pure (kept.1, kept.2 + 1)

/-- Adds a call's place to its edge unless the edge has it. -/
def addSite (same : L → L → Bool) (sites : Table (Symbol × Symbol) (List L))
    (c : (Symbol × Symbol) × L) : Table (Symbol × Symbol) (List L) :=
  sites.update c.1 fun old =>
    let places := old.getD []
    if places.any (same · c.2) then places else places ++ [c.2]

section addSite

variable {same : L → L → Bool} {sites : Table (Symbol × Symbol) (List L)}
  {c : (Symbol × Symbol) × L} {e : Symbol × Symbol}

theorem mem_keys_addSite_of_mem (hc : c.1 ∈ sites.keys) :
    e ∈ (addSite same sites c).keys ↔ e ∈ sites.keys := by
  rw [addSite, Table.keys_update, if_pos hc]

theorem mem_keys_addSite_of_not_mem (hc : c.1 ∉ sites.keys) :
    e ∈ (addSite same sites c).keys ↔ e ∈ sites.keys ∨ e = c.1 := by
  rw [addSite, Table.keys_update, if_neg hc]
  simp

end addSite

/-- Adds a call. The first one from a caller to a callee links the two; a further one adds at most a
place. -/
def addEdge (same : L → L → Bool) (g : CallGraph M L) (c : (Symbol × Symbol) × L) :
    CallGraph M L :=
  if hc : c.1 ∈ g.edges then
    { g with
      sites := addSite same g.sites c
      mem_succ_iff := fun a b => (g.mem_succ_iff a b).trans (mem_keys_addSite_of_mem hc).symm
      mem_pred_iff := fun a b => (g.mem_pred_iff a b).trans (mem_keys_addSite_of_mem hc).symm }
  else
    { g with
      sites := addSite same g.sites c
      succ := g.succ.link c.1.1 c.1.2
      pred := g.pred.link c.1.2 c.1.1
      mem_succ_iff := fun a b => by
        rw [Links.mem_of_link, g.mem_succ_iff, mem_keys_addSite_of_not_mem hc]
      mem_pred_iff := fun a b => by
        rw [Links.mem_of_link, g.mem_pred_iff, mem_keys_addSite_of_not_mem hc]
        simp [Prod.ext_iff, and_comm] }

/-- Inserts a place into places that are in order, behind those not after it. -/
def insertPlace (before : L → L → m Bool) (x : L) : List L → m (List L)
  | [] => pure [x]
  | y :: rest => do
    if ← before x y then pure (x :: y :: rest)
    else do
      let tail ← insertPlace before x rest
      pure (y :: tail)

/-- Puts places in order. -/
def sortPlaces (before : L → L → m Bool) : List L → List L → m (List L)
  | done, [] => pure done
  | done, x :: rest => do sortPlaces before (← insertPlace before x done) rest

/-- Puts the places of every edge in order; the edges stay the same. -/
def sortSites (before : L → L → m Bool) : (entries : List ((Symbol × Symbol) × List L)) →
    m { sorted : List ((Symbol × Symbol) × List L) // sorted.map (·.1) = entries.map (·.1) }
  | [] => pure ⟨[], rfl⟩
  | (e, places) :: rest => do
    let sorted ← sortPlaces before [] places
    let others ← sortSites before rest
    pure ⟨(e, sorted) :: others.val, congrArg (e :: ·) others.property⟩

/-- The graph with the places of every edge in order. -/
def sortEdges (before : L → L → m Bool) (g : CallGraph M L) : m (CallGraph M L) := do
  let sorted ← sortSites before g.sites.entries
  have hkeys : (⟨sorted.val⟩ : Table (Symbol × Symbol) (List L)).keys = g.sites.keys :=
    sorted.property
  pure { g with
    sites := ⟨sorted.val⟩
    mem_succ_iff := fun a b => hkeys ▸ g.mem_succ_iff a b
    mem_pred_iff := fun a b => hkeys ▸ g.mem_pred_iff a b }

/-- The call graph of the records. -/
def ofRecords (p : Places m M L) (records : List (Record M L)) : m (CallGraph M L) := do
  let (kept, conflicts) ← (records.filterMap Record.definition?).foldlM (keepEarliest p) (∅, 0)
  let defined := ofNodes ⟨kept.entries.mergeSort fun a b => a.1.le b.1⟩
    (records.countP Record.isMalformed + conflicts)
  let calls := records.filterMap (Record.call? p.nowhere)
  sortEdges p.siteBefore (calls.foldl (addEdge p.sameSite) defined)

end CallGraph

/-! ## Proper places -/

/-- Proper places, ordered by file and line. -/
def Places.proper : Places Id Meta Location where
  sameDefinition a b := a.location = b.location
  definedBefore a b := pure (a.location.before b.location)
  sameSite a b := a = b
  siteBefore a b := pure (a.before b)
  nowhere := {}

/-- The call graph of a project's facts. -/
def ProjectGraph.ofFacts (facts : List Fact) : ProjectGraph :=
  Id.run (CallGraph.ofRecords .proper (facts.map Record.ofFact))

/-! ## Places of any kind -/

/-- A place whose file and line are values of any kind. -/
structure LooseLocation where
  file : Value
  line : Value
deriving Repr

/-- A description whose file and line are values of any kind; those of `info` do not count. -/
structure LooseMeta where
  info : Meta
  place : LooseLocation
deriving Repr

/-- Two values were compared that have no order. -/
inductive Incomparable where
  | incomparable
deriving Repr, DecidableEq

namespace LooseLocation

/-- Whether two places are the same, part by part. -/
def same (a b : LooseLocation) : Bool := a.file.same b.file && a.line.same b.line

/-- Whether `a` stands before `b`: the first unequal parts decide. -/
def before (a b : LooseLocation) : Except Incomparable Bool :=
  let decided (x y : Value) : Except Incomparable Bool :=
    match x.before? y with
    | some r => .ok r
    | none => .error .incomparable
  if a.file.same b.file then
    if a.line.same b.line then .ok false else decided a.line b.line
  else decided a.file b.file

end LooseLocation

/-- Places of any kind; comparing parts without an order fails. -/
def Places.loose : Places (Except Incomparable) LooseMeta LooseLocation where
  sameDefinition a b := a.place.same b.place
  definedBefore a b := a.place.before b.place
  sameSite a b := a.same b
  siteBefore a b := a.before b
  nowhere := ⟨.str "", .int 0⟩

/-! ## Objects of any kind -/

/-- A symbol whose parts are values of any kind. -/
structure LooseSymbol where
  scope : Value
  name : Value
  arity : Value
deriving Repr

/-- The symbol that it is, if scope and name are texts and the arity is an integer. -/
def LooseSymbol.symbol? : LooseSymbol → Option Symbol
  | ⟨.str scope, .str name, .int arity⟩ => some ⟨scope, name, arity⟩
  | _ => none

/-- An object that the builder is handed. What should be a symbol, a description or a place may be
something else. -/
inductive Object (M L : Type) where
  | definition (symbol : Option LooseSymbol) (info : Option M)
  | call (caller callee : Option LooseSymbol) (site : Option L)
  /-- Neither a definition nor a call. -/
  | other
deriving Repr

/-- What an object states. -/
def Object.record {M L : Type} : Object M L → Record M L
  | .definition symbol info => .definition (symbol.bind LooseSymbol.symbol?) info
  | .call caller callee site =>
    .call (caller.bind LooseSymbol.symbol?) (callee.bind LooseSymbol.symbol?) site
  | .other => .unknown

/-- The call graph of objects. -/
def CallGraph.ofObjects {m : Type → Type} {M L : Type} [Monad m] (p : Places m M L)
    (objects : List (Object M L)) : m (CallGraph M L) :=
  ofRecords p (objects.map Object.record)

end Deadwood
