import Deadwood.Drawing
import Deadwood.Proofs.Dotted
import Deadwood.Proofs.Grouping
import Deadwood.Proofs.Json
import Deadwood.Proofs.Reach

/-!
# The drawing shows the defined part of the graph

Nodes, clusters and edges of a drawing come from three views of the call graph: its definitions, the
scopes of its module bodies and its edges. `Drawing.Shows` says that they fit together.

* The text of a symbol names its node. A name without dots can be read off the text again, behind
  the last dot and before the last slash (`Symbol.eq_of_text_eq`).
* `Fronts g scope p`: `p` is a module that begins the scope. `IsHome g scope c` is the longest of
  them, or the scope itself if there is none; this is the cluster of a symbol (`isHome_clusterOf`).
  The empty name does not count, although it may name a module (`nameless_module_left_out`).
* `drawing_shows`: the drawing shows the graph.
-/

namespace Deadwood

/-! ## The text of a symbol -/

/-- A list falls apart at the last occurrence of an item in one way. -/
theorem eq_of_append_cons_eq {α : Type} {a : α} {xs xs' ys ys' : List α} (hys : a ∉ ys)
    (hys' : a ∉ ys') (h : xs ++ a :: ys = xs' ++ a :: ys') : xs = xs' ∧ ys = ys' := by
  rcases List.append_eq_append_iff.1 h with ⟨mid, rfl, hmid⟩ | ⟨mid, rfl, hmid⟩
  · cases mid with
    | nil => exact ⟨(List.append_nil xs).symm, (List.cons.inj hmid).2⟩
    | cons b mid =>
      obtain ⟨-, rfl⟩ := List.cons.inj hmid
      exact absurd (List.mem_append_right mid List.mem_cons_self) hys
  · cases mid with
    | nil => exact ⟨List.append_nil xs', (List.cons.inj hmid).2.symm⟩
    | cons b mid =>
      obtain ⟨-, rfl⟩ := List.cons.inj hmid
      exact absurd (List.mem_append_right mid List.mem_cons_self) hys'

theorem slash_not_mem_toString (n : Int) : '/' ∉ (toString n).toList := by
  have hdigits := Value.not_mem_toDigits (c := '/') (by decide) n.natAbs
  rw [Value.toList_toString]
  split_ifs with h
  · exact hdigits
  · exact List.not_mem_cons_of_ne_of_not_mem (by decide) hdigits

theorem toString_injective : Function.Injective (toString : Int → String) := by
  intro m n h
  have hchars := congrArg String.toList h
  have hminus := Value.not_mem_toDigits (c := '-') (by decide)
  have hdigits : Nat.toDigits 10 m.natAbs = Nat.toDigits 10 n.natAbs → m.natAbs = n.natAbs := by
    intro h
    rw [← Value.digitsValue_toDigits m.natAbs, h, Value.digitsValue_toDigits]
  rw [Value.toList_toString, Value.toList_toString] at hchars
  split_ifs at hchars with hm hn hn
  · have := hdigits hchars
    omega
  · exact absurd (hchars ▸ List.mem_cons_self) (hminus m.natAbs)
  · exact absurd (hchars ▸ List.mem_cons_self) (hminus n.natAbs)
  · have := hdigits (List.cons.inj hchars).2
    omega

theorem Symbol.toList_text (s : Symbol) :
    s.text.toList = (s.scope.toList ++ '.' :: s.name.toList) ++ '/' ::
      (toString s.arity).toList := by
  simp [text, signature, String.toList_append]

/-- Symbols whose names have no dots have different texts. -/
theorem Symbol.eq_of_text_eq {s t : Symbol} (hs : Dotted.Simple s.name) (ht : Dotted.Simple t.name)
    (h : s.text = t.text) : s = t := by
  have hchars := congrArg String.toList h
  rw [toList_text, toList_text] at hchars
  obtain ⟨hpath, harity⟩ :=
    eq_of_append_cons_eq (slash_not_mem_toString s.arity) (slash_not_mem_toString t.arity) hchars
  obtain ⟨hscope, hname⟩ := eq_of_append_cons_eq hs ht hpath
  obtain ⟨scope, name, arity⟩ := s
  obtain rfl : scope = t.scope := String.toList_injective hscope
  obtain rfl : name = t.name := String.toList_injective hname
  obtain rfl : arity = t.arity := toString_injective (String.toList_injective harity)
  rfl

/-! ## Clusters -/

namespace Dotted

theorem length_join_take_lt {parts : List String} {a b : Nat} (ha : 0 < a) (hab : a < b)
    (hb : b ≤ parts.length) :
    (join (parts.take a)).length < (join (parts.take b)).length := by
  have hsplit : parts.take b = parts.take a ++ (parts.take b).drop a := by
    have hparts := (List.take_append_drop a (parts.take b)).symm
    rwa [List.take_take, min_eq_left hab.le] at hparts
  have hfront : parts.take a ≠ [] := by
    rw [← List.length_pos_iff, List.length_take]
    omega
  have hback : (parts.take b).drop a ≠ [] := by
    rw [← List.length_pos_iff, List.length_drop, List.length_take]
    omega
  rw [hsplit, join_append hfront hback, below, String.length_append, String.length_append]
  have : ".".length = 1 := rfl
  omega

/-- The beginnings of a name get shorter. -/
theorem pairwise_enclosing (s : String) :
    (enclosing s).Pairwise fun p q => q.length < p.length := by
  rw [enclosing, List.pairwise_map]
  refine List.pairwise_lt_range.imp_of_mem fun hi hj hij => ?_
  rw [List.mem_range] at hi hj
  exact length_join_take_lt (by omega) (by omega) (by omega)

end Dotted

/-- Whether the body of a module of this name is defined. -/
def HasModule (g : ProjectGraph) (m : String) : Prop :=
  ∃ s ∈ g.definitions, s.name = Symbol.bodyName ∧ s.scope = m

/-- A module, not the nameless one, that is the scope or a dotted beginning of it. -/
structure Fronts (g : ProjectGraph) (scope p : String) : Prop where
  named : p ≠ ""
  encloses : Dotted.Encloses p scope
  hasModule : HasModule g p

/-- The longest module in front of a scope, or else the scope itself. -/
def IsHome (g : ProjectGraph) (scope c : String) : Prop :=
  (Fronts g scope c ∧ ∀ p, Fronts g scope p → p.length ≤ c.length) ∨
    (∀ p, ¬ Fronts g scope p) ∧ c = scope

/-- The scopes of the bodies of modules. -/
def moduleScopes (g : ProjectGraph) : List String :=
  (g.definitions.filter (·.name = Symbol.bodyName)).map (·.scope)

theorem mem_moduleScopes_iff {g : ProjectGraph} {m : String} :
    m ∈ moduleScopes g ↔ HasModule g m := by
  simp only [moduleScopes, HasModule, List.mem_map, List.mem_filter, decide_eq_true_eq, and_assoc]

theorem mem_filter_enclosing_iff {g : ProjectGraph} {scope p : String} :
    (p ∈ (Dotted.enclosing scope).filter (· ≠ "") ∧ (moduleScopes g).contains p = true) ↔
      Fronts g scope p := by
  rw [List.mem_filter, Dotted.mem_enclosing_iff, List.contains_iff_mem, mem_moduleScopes_iff]
  constructor
  · rintro ⟨⟨hencloses, hnamed⟩, hmodule⟩
    exact ⟨by simpa using hnamed, hencloses, hmodule⟩
  · rintro ⟨hnamed, hencloses, hmodule⟩
    exact ⟨⟨hencloses, by simpa using hnamed⟩, hmodule⟩

theorem isHome_clusterOf (g : ProjectGraph) (scope : String) :
    IsHome g scope (clusterOf (moduleScopes g) scope) := by
  unfold clusterOf
  cases hfind : ((Dotted.enclosing scope).filter (· ≠ "")).find? (moduleScopes g).contains with
  | none =>
    refine .inr ⟨fun p hp => ?_, rfl⟩
    obtain ⟨hmem, hmodule⟩ := mem_filter_enclosing_iff.2 hp
    exact List.find?_eq_none.1 hfind p hmem hmodule
  | some c =>
    refine .inl ⟨mem_filter_enclosing_iff.1
      ⟨List.mem_of_find?_eq_some hfind, List.find?_some hfind⟩, fun p hp => ?_⟩
    obtain ⟨hmem, hmodule⟩ := mem_filter_enclosing_iff.2 hp
    obtain ⟨-, before, behind, hsplit, hbefore⟩ := List.find?_eq_some_iff_append.1 hfind
    have hpairwise := (Dotted.pairwise_enclosing scope).filter (· ≠ "")
    rw [hsplit] at hmem hpairwise
    -- What stands before `c` is no module, and what stands behind it is shorter.
    rcases List.mem_append.1 hmem with hp | hp
    · have := hbefore p hp
      rw [hmodule] at this
      cases this
    · rcases List.mem_cons.1 hp with rfl | hp
      · exact le_rfl
      · exact (List.rel_of_pairwise_cons (List.pairwise_append.1 hpairwise).2.1 hp).le

/-! ## The drawing -/

namespace Drawing

/-- The nodes of all clusters. -/
def nodes (d : Drawing) : List DrawnNode := (d.clusters.map (·.2)).flatten

/-- The names of the nodes. -/
def ids (d : Drawing) : List String := d.nodes.map (·.symbol.text)

/-- The drawing is the defined part of the graph. -/
structure Shows (d : Drawing) (g : ProjectGraph) : Prop where
  /-- Every definition is a node, and there are no other nodes. -/
  nodes_perm : (d.nodes.map (·.symbol)).Perm g.definitions
  /-- Different definitions are named differently. -/
  text_inj : ∀ s ∈ g.definitions, ∀ t ∈ g.definitions, s.text = t.text → s = t
  clusters_nodup : (d.clusters.map (·.1)).Nodup
  /-- Every definition stands in one cluster, its home. -/
  home : ∀ s ∈ g.definitions, ∃ c ∈ d.clusters, s ∈ c.2.map (·.symbol) ∧ IsHome g s.scope c.1 ∧
    ∀ c' ∈ d.clusters, s ∈ c'.2.map (·.symbol) → c' = c
  /-- The edges are those of the graph between definitions. -/
  edges_perm : (d.edges.map fun e => (e.caller, e.callee)).Perm
    (g.edges.filter fun e => e.1 ∈ g.definitions ∧ e.2 ∈ g.definitions)
  ends : ∀ e ∈ d.edges, e.caller.text ∈ d.ids ∧ e.callee.text ∈ d.ids

end Drawing

section

variable (g : ProjectGraph) (findings : List Finding) (live : List Symbol) (title : String)

/-- The node of a symbol. -/
def drawnNode (s : Symbol) : DrawnNode :=
  ⟨s, fillColor ((findings.filter (·.symbol = s)).map (·.kind)) (live.contains s)⟩

/-- The definitions by cluster. -/
def drawnGroups : Table String (List DrawnNode) :=
  .grouped (fun s => clusterOf (moduleScopes g) s.scope) (drawnNode findings live) g.definitions

theorem clusters_drawing : (drawing g findings live title).clusters =
    (drawnGroups g findings live).entries.mergeSort fun a b => a.1 ≤ b.1 := rfl

theorem map_symbol_drawnNode (xs : List Symbol) :
    (xs.map (drawnNode findings live)).map (·.symbol) = xs := by
  simp [Function.comp_def, drawnNode]

variable {g findings live title}

theorem mem_clusters_iff {c : String} {ns : List DrawnNode} :
    (c, ns) ∈ (drawing g findings live title).clusters ↔
    c ∈ g.definitions.map (fun s => clusterOf (moduleScopes g) s.scope) ∧
      ns = (g.definitions.filter fun s => clusterOf (moduleScopes g) s.scope = c).map
        (drawnNode findings live) := by
  rw [clusters_drawing, List.mem_mergeSort, drawnGroups, Table.mem_grouped_iff]

/-- A symbol stands in the cluster of its scope. -/
theorem mem_cluster_iff {c : String × List DrawnNode}
    (hc : c ∈ (drawing g findings live title).clusters) {s : Symbol} :
    s ∈ c.2.map (·.symbol) ↔ s ∈ g.definitions ∧ clusterOf (moduleScopes g) s.scope = c.1 := by
  obtain ⟨name, ns⟩ := c
  obtain ⟨-, rfl⟩ := mem_clusters_iff.1 hc
  rw [map_symbol_drawnNode, List.mem_filter, decide_eq_true_eq]

theorem nodes_drawing_perm :
    ((drawing g findings live title).nodes.map (·.symbol)).Perm g.definitions := by
  have hsorted : (drawing g findings live title).nodes.Perm
      (drawnGroups g findings live).values.flatten :=
    ((List.mergeSort_perm _ _).map _).flatten
  have hgroups : (drawnGroups g findings live).values.flatten.Perm
      (g.definitions.map (drawnNode findings live)) :=
    Table.flatten_grouped_perm _ _ _
  simpa only [map_symbol_drawnNode] using (hsorted.trans hgroups).map (·.symbol)

theorem edges_drawing_perm :
    ((drawing g findings live title).edges.map fun e => (e.caller, e.callee)).Perm
    (g.edges.filter fun e => e.1 ∈ g.definitions ∧ e.2 ∈ g.definitions) := by
  have hpairs : ((drawing g findings live title).edges.map fun e => (e.caller, e.callee)) =
      g.sortedEdges.filter fun e => g.isDefined e.1 && g.isDefined e.2 := by
    simp [drawing, Function.comp_def]
  have hdefined : (fun e : Symbol × Symbol => g.isDefined e.1 && g.isDefined e.2) =
      fun e => decide (e.1 ∈ g.definitions ∧ e.2 ∈ g.definitions) := by
    funext e
    rw [Bool.eq_iff_iff, Bool.and_eq_true, decide_eq_true_eq]
    exact and_congr CallGraph.isDefined_iff CallGraph.isDefined_iff
  rw [hpairs, hdefined]
  exact (List.mergeSort_perm _ _).filter _

theorem mem_ids_drawing {s : Symbol} (h : s ∈ g.definitions) :
    s.text ∈ (drawing g findings live title).ids := by
  obtain ⟨n, hn, rfl⟩ := List.mem_map.1 (nodes_drawing_perm.mem_iff.2 h)
  exact List.mem_map_of_mem hn

end

/-- Where no definition has a dot in its name, the drawing is the defined part of the graph,
whatever was found and whatever is reached. -/
theorem drawing_shows (g : ProjectGraph) (findings : List Finding) (live : List Symbol)
    (title : String) (h : ∀ s ∈ g.definitions, Dotted.Simple s.name) :
    (drawing g findings live title).Shows g where
  nodes_perm := nodes_drawing_perm
  text_inj s hs t ht htext := Symbol.eq_of_text_eq (h s hs) (h t ht) htext
  clusters_nodup := ((List.mergeSort_perm _ _).map _).nodup_iff.2 (Table.nodup_keys_grouped _ _ _)
  home s hs := by
    have hc : (clusterOf (moduleScopes g) s.scope, _) ∈ (drawing g findings live title).clusters :=
      mem_clusters_iff.2 ⟨List.mem_map_of_mem hs, rfl⟩
    refine ⟨_, hc, (mem_cluster_iff hc).2 ⟨hs, rfl⟩, isHome_clusterOf g s.scope,
      fun c' hc' hs' => ?_⟩
    obtain ⟨name, ns⟩ := c'
    obtain ⟨-, rfl⟩ := (mem_cluster_iff hc').1 hs'
    rw [(mem_clusters_iff.1 hc').2]
  edges_perm := edges_drawing_perm
  ends e he := by
    have hmem := edges_drawing_perm.mem_iff.1 (List.mem_map_of_mem he)
    obtain ⟨hcaller, hcallee⟩ := of_decide_eq_true (List.mem_filter.1 hmem).2
    exact ⟨mem_ids_drawing hcaller, mem_ids_drawing hcallee⟩

/-- A package with a module and a class in it, and a function whose module has no body; one call
leaves the project. -/
def packageGraph : ProjectGraph :=
  { nodes := ⟨[(.body "app", {}), (.body "app.models", {}), (⟨"app.models.User", "save", 1⟩, {}),
      (⟨"lib.text", "trim", 1⟩, {})]⟩
    sites := ⟨[((⟨"app.models.User", "save", 1⟩, ⟨"lib.text", "trim", 1⟩), []),
      ((.body "app", ⟨"os", "getcwd", 0⟩), [])]⟩
    dropped := 0 }

theorem packageGraph_shown : (∀ s ∈ packageGraph.definitions, Dotted.Simple s.name) ∧
    (drawing packageGraph [] [.body "app"] "").Shows packageGraph := by
  have hsimple : ∀ s ∈ packageGraph.definitions, Dotted.Simple s.name := by decide +kernel
  exact ⟨hsimple, drawing_shows packageGraph [] [.body "app"] "" hsimple⟩

/-- The body of a module without a name, and a method of a class in it. -/
def namelessGraph : ProjectGraph := .ofNodes ⟨[(.body "", {}), (⟨".C", "m", 0⟩, {})]⟩ 0

/-- The module without a name begins the scope of its class and is the longest module that does, but
the method does not stand in its cluster. -/
theorem nameless_module_left_out : (∀ s ∈ namelessGraph.definitions, Dotted.Simple s.name) ∧
    HasModule namelessGraph "" ∧ Dotted.Encloses "" ".C" ∧
      (∀ p, HasModule namelessGraph p → p = "") ∧
    ∀ c ∈ (drawing namelessGraph [] [] "").clusters, c.1 = "" →
      ⟨".C", "m", 0⟩ ∉ c.2.map (·.symbol) := by
  have hmodules : moduleScopes namelessGraph = [""] := by decide +kernel
  refine ⟨by decide +kernel, mem_moduleScopes_iff.1 (by simp [hmodules]),
    .inr ⟨"C", by decide +kernel⟩, ?_, ?_⟩
  · intro p hp
    simpa [hmodules] using mem_moduleScopes_iff.2 hp
  · intro c hc hempty hs
    have hcluster := ((mem_cluster_iff hc).1 hs).2
    rw [hempty, hmodules] at hcluster
    revert hcluster
    decide +kernel

end Deadwood
