import Deadwood.Fact

/-!
# Call graphs

The nodes of a call graph are the defined symbols, in order, each with what is known about it. Its
edges are pairs of caller and callee with the places of the calls; a caller or callee need not be
defined. The edges are also kept by caller and by callee, and the three always agree. The graph is
generic in the type `M` of what a node carries and the type `L` of places.

* `Links` lists symbols by symbol; `Links.link` adds one, `Links.ofPairs` adds many.
* `CallGraph` is the graph, `callees` and `callers` are the two ends of its edges.
-/

namespace Deadwood

/-! ## Links -/

/-- Symbols listed by symbol, each once. -/
abbrev Links := Table Symbol (List Symbol)

namespace Links

/-- The symbols listed for `s`. -/
def of (t : Links) (s : Symbol) : List Symbol := t.findD s []

/-- Lists `b` for `a`. -/
def link (t : Links) (a b : Symbol) : Links :=
  t.update a fun old =>
    let known := old.getD []
    if b ∈ known then known else known ++ [b]

/-- Lists the second part of every pair for the first. -/
def ofPairs (pairs : List (Symbol × Symbol)) : Links :=
  pairs.foldl (fun t p => link t p.1 p.2) ∅

theorem mem_of_link {t : Links} {a b s c : Symbol} :
    c ∈ of (link t a b) s ↔ c ∈ of t s ∨ (s, c) = (a, b) := by
  unfold of link Table.findD
  by_cases hs : s = a
  · subst hs
    rw [Table.find?_update_self, Option.getD_some]
    dsimp only
    split
    · rename_i hb
      exact ⟨.inl, fun h => h.elim id fun h => (Prod.mk.inj h).2 ▸ hb⟩
    · simp
  · rw [Table.find?_update_of_ne t hs]
    simp [hs]

theorem mem_of_empty {s c : Symbol} : c ∉ of ∅ s := nofun

theorem mem_of_ofPairs {pairs : List (Symbol × Symbol)} {a b : Symbol} :
    b ∈ of (ofPairs pairs) a ↔ (a, b) ∈ pairs := by
  have hadd : ∀ (pairs : List (Symbol × Symbol)) (t : Links),
      b ∈ of (pairs.foldl (fun t p => link t p.1 p.2) t) a ↔ b ∈ of t a ∨ (a, b) ∈ pairs := by
    intro pairs
    induction pairs with
    | nil => simp
    | cons p rest ih =>
      intro t
      rw [List.foldl_cons, ih, mem_of_link, List.mem_cons, or_assoc]
  exact (hadd pairs ∅).trans ⟨fun h => h.resolve_left mem_of_empty, .inr⟩

theorem mem_of_ofPairs_swap {pairs : List (Symbol × Symbol)} {a b : Symbol} :
    a ∈ of (ofPairs (pairs.map fun p => (p.2, p.1))) b ↔ (a, b) ∈ pairs := by
  rw [mem_of_ofPairs, List.mem_map]
  constructor
  · rintro ⟨p, hp, h⟩
    obtain ⟨hb, ha⟩ := Prod.mk.inj h
    exact ha ▸ hb ▸ hp
  · exact fun h => ⟨(a, b), h, rfl⟩

end Links

/-! ## Graphs -/

/-- A call graph whose nodes carry an `M` and whose calls are placed by an `L`. -/
structure CallGraph (M L : Type) where
  /-- The defined symbols, in order. -/
  nodes : Table Symbol M
  /-- The places of the calls from one symbol to another. -/
  sites : Table (Symbol × Symbol) (List L)
  /-- The number of records that were left out. -/
  dropped : Nat
  /-- What every symbol calls. -/
  succ : Links := .ofPairs sites.keys
  /-- What calls every symbol. -/
  pred : Links := .ofPairs (sites.keys.map fun e => (e.2, e.1))
  mem_succ_iff : ∀ a b, b ∈ succ.of a ↔ (a, b) ∈ sites.keys := by
    intro a b
    exact Links.mem_of_ofPairs
  mem_pred_iff : ∀ a b, a ∈ pred.of b ↔ (a, b) ∈ sites.keys := by
    intro a b
    exact Links.mem_of_ofPairs_swap
deriving Repr

namespace CallGraph

variable {M L : Type}

/-- The graph of nodes without edges. -/
def ofNodes (nodes : Table Symbol M) (dropped : Nat) : CallGraph M L :=
  { nodes, sites := ∅, dropped }

@[simp] theorem sites_ofNodes (nodes : Table Symbol M) (dropped : Nat) :
    (ofNodes nodes dropped : CallGraph M L).sites = ∅ := rfl

/-- Whether `s` is a node. -/
def isDefined (g : CallGraph M L) (s : Symbol) : Bool := g.nodes.contains s

/-- The nodes. -/
def definitions (g : CallGraph M L) : List Symbol := g.nodes.keys

/-- The pairs of caller and callee. -/
def edges (g : CallGraph M L) : List (Symbol × Symbol) := g.sites.keys

/-- The symbols that `s` calls. -/
def callees (g : CallGraph M L) (s : Symbol) : List Symbol := g.succ.of s

/-- The symbols that call `s`. -/
def callers (g : CallGraph M L) (s : Symbol) : List Symbol := g.pred.of s

/-- The defined symbols that `s` calls, in order. -/
def successors (g : CallGraph M L) (s : Symbol) : List Symbol :=
  Symbol.sort ((g.callees s).filter g.isDefined)

/-- The order of edges: by caller, then callee. -/
def edgeLe (a b : Symbol × Symbol) : Bool := ((a.1.cmp b.1).then (a.2.cmp b.2)).isLE

/-- The pairs of caller and callee, in order. -/
def sortedEdges (g : CallGraph M L) : List (Symbol × Symbol) := g.edges.mergeSort edgeLe

end CallGraph

/-- The call graph of a project. -/
abbrev ProjectGraph := CallGraph Meta Location

end Deadwood
