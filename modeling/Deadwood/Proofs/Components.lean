import Mathlib.Data.List.Nodup
import Deadwood.Graph.Components
import Deadwood.Proofs.Order
import Deadwood.Proofs.Reach

/-!
# The components of a call graph

`CallGraph.components` makes a depth-first walk, and what it lists rests on an invariant of that
walk.

* `Layers`: the waiting symbols form layers, one for each symbol under way. A layer is a symbol
  under way with what was left since it was entered, and all of it reaches that symbol and is
  reached from it.
* `Found`: what was found is complete. Every component found so far comes with all that it reaches.
* `Invariant`: both, and that every symbol met is waiting or found. `Invariant.step` is one step of
  a walk and `Invariant.run` a whole walk.
* `components_exact`: the components are the classes of mutual reachability, callees first.
-/

namespace Deadwood.CallGraph

variable {M L : Type} {g : CallGraph M L} {s : Symbol}

theorem mem_sort {xs : List Symbol} : s ∈ Symbol.sort xs ↔ s ∈ xs := List.mem_mergeSort

theorem mem_successors_iff {c : Symbol} :
    c ∈ g.successors s ↔ c ∈ g.callees s ∧ g.isDefined c = true := by
  rw [successors, mem_sort, List.mem_filter]

theorem Reaches.of_successor {c : Symbol} (hs : g.isDefined s = true) (hc : c ∈ g.successors s) :
    g.Reaches s c :=
  (Reaches.refl hs).step (mem_successors_iff.1 hc).1 (mem_successors_iff.1 hc).2

namespace Walk

variable {met waiting : List Symbol} {outer : List Frame}

/-! ## Layers of waiting symbols -/

/-- The numbers of waiting symbols descend. -/
theorem pairwise_number (hn : met.Nodup) (h : waiting.Sublist met.reverse) :
    waiting.Pairwise fun a b => met.idxOf b < met.idxOf a := by
  refine List.Pairwise.sublist h (List.pairwise_reverse.2 ?_)
  rw [List.pairwise_iff_getElem]
  intro i j hi hj hij
  rwa [hn.idxOf_getElem i hi, hn.idxOf_getElem j hj]

/-- The symbol `f.symbol` is under way, the symbols `above` were left since it was entered, and the
symbols `below` wait longer. -/
structure Layer (g : CallGraph M L) (met : List Symbol) (f : Frame) (above below : List Symbol) :
    Prop where
  defined : g.isDefined f.symbol = true
  rest : ∀ c ∈ f.rest, c ∈ g.successors f.symbol
  /-- The layer belongs to one component. -/
  together : ∀ s ∈ above, g.Reaches f.symbol s ∧ g.Reaches s f.symbol
  /-- The low number is that of a waiting symbol that is reached. -/
  reached : ∃ t ∈ f.symbol :: below, met.idxOf t = f.low ∧ g.Reaches f.symbol t
  /-- A callee of the layer is still to be looked at, or it was met and the low number takes it into
  account. -/
  looked : ∀ s ∈ f.symbol :: above, ∀ c ∈ g.successors s,
    s = f.symbol ∧ c ∈ f.rest ∨ c ∈ met ∧ (c ∈ below → f.low ≤ met.idxOf c)

/-- The waiting symbols consist of the layers of the symbols under way, each of which is called by
the next one outside. -/
inductive Layers (g : CallGraph M L) (met : List Symbol) : List Frame → List Symbol → Prop where
  | nil : Layers g met [] []
  | cons {f : Frame} {outer : List Frame} {above below : List Symbol}
    (layer : Layer g met f above below)
      (called : ∀ p ∈ outer.head?, f.symbol ∈ g.callees p.symbol)
        (rest : Layers g met outer below) :
      Layers g met (f :: outer) (above ++ f.symbol :: below)

namespace Layer

variable {f : Frame} {above below : List Symbol}

/-- The low number is at most that of the symbol under way. -/
theorem low_le (h : Layer g met f above below)
    (hdesc : (f.symbol :: below).Pairwise fun a b => met.idxOf b < met.idxOf a) :
    f.low ≤ met.idxOf f.symbol := by
  obtain ⟨t, ht, hlow, -⟩ := h.reached
  rw [← hlow]
  rcases List.mem_cons.1 ht with rfl | ht
  · exact le_rfl
  · exact (List.pairwise_cons.1 hdesc |>.1 t ht).le

/-- The low number may go down to that of a waiting symbol that is reached: above the symbol under
way no waiting symbol has a smaller number. -/
theorem reached_min (h : Layer g met f above below)
    (hdesc : (above ++ f.symbol :: below).Pairwise fun a b => met.idxOf b < met.idxOf a)
    {t : Symbol} (ht : t ∈ above ++ f.symbol :: below) (hr : g.Reaches f.symbol t) :
    ∃ u ∈ f.symbol :: below, met.idxOf u = min f.low (met.idxOf t) ∧ g.Reaches f.symbol u := by
  obtain ⟨-, hdesc', hnewer⟩ := List.pairwise_append.1 hdesc
  have hlow := h.low_le hdesc'
  rcases Nat.le_total f.low (met.idxOf t) with hle | hle
  · rw [Nat.min_eq_left hle]
    exact h.reached
  · rw [Nat.min_eq_right hle]
    refine ⟨t, ?_, rfl, hr⟩
    rcases List.mem_append.1 ht with ht | ht
    · have hlt := hnewer t ht f.symbol List.mem_cons_self
      omega
    · exact ht

/-- A layer stays one when a further symbol is met. -/
theorem meet (h : Layer g met f above below) (hmet : ∀ s ∈ f.symbol :: below, s ∈ met)
    (c : Symbol) :
    Layer g (met ++ [c]) f above below where
  defined := h.defined
  rest := h.rest
  together := h.together
  reached := by
    obtain ⟨t, ht, hlow, hr⟩ := h.reached
    exact ⟨t, ht, by rwa [List.idxOf_append_of_mem (hmet t ht)], hr⟩
  looked s hs d hd := by
    refine (h.looked s hs d hd).imp_right fun ⟨hmem, hlow⟩ =>
      ⟨List.mem_append_left _ hmem, fun hbelow => ?_⟩
    rw [List.idxOf_append_of_mem hmem]
    exact hlow hbelow

/-- A callee that was met has been looked at; the low number may go down for it. -/
theorem look {v c : Symbol} {low low' : Nat} {rest : List Symbol}
    (h : Layer g met ⟨v, low, c :: rest⟩ above below) (hmet : c ∈ met) (hle : low' ≤ low)
    (hc : c ∈ below → low' ≤ met.idxOf c)
    (hreached : ∃ t ∈ v :: below, met.idxOf t = low' ∧ g.Reaches v t) :
    Layer g met ⟨v, low', rest⟩ above below where
  defined := h.defined
  rest d hd := h.rest d (List.mem_cons_of_mem _ hd)
  together := h.together
  reached := hreached
  looked s hs d hd := by
    rcases h.looked s hs d hd with ⟨rfl, hrest⟩ | ⟨hmem, hlow⟩
    · rcases List.mem_cons.1 hrest with rfl | hrest
      · exact .inr ⟨hmet, hc⟩
      · exact .inl ⟨rfl, hrest⟩
    · exact .inr ⟨hmem, fun hbelow => hle.trans (hlow hbelow)⟩

/-- A layer joins the one below: an older symbol `t` waits there, is reached from `v` and reaches
`p.symbol`. -/
theorem join {p : Frame} {v t : Symbol} {low : Nat} {above above' below' : List Symbol}
    (h : Layer g met ⟨v, low, []⟩ above (above' ++ p.symbol :: below'))
    (h' : Layer g met p above' below') (hcalled : v ∈ g.callees p.symbol)
    (hdesc : (above' ++ p.symbol :: below').Pairwise fun a b => met.idxOf b < met.idxOf a)
    (ht : t ∈ above' ++ p.symbol :: below') (hnumber : met.idxOf t = low) (hvt : g.Reaches v t)
    (htp : g.Reaches t p.symbol) :
    Layer g met { p with low := min p.low low } (above ++ v :: above') below' := by
  have hpv : g.Reaches p.symbol v := (Reaches.refl h'.defined).step hcalled h.defined
  have hvp : g.Reaches v p.symbol := hvt.trans htp
  constructor
  · exact h'.defined
  · exact h'.rest
  · intro a ha
    rcases List.mem_append.1 ha with ha | ha
    · exact ⟨hpv.trans (h.together a ha).1, (h.together a ha).2.trans hvp⟩
    · rcases List.mem_cons.1 ha with rfl | ha
      · exact ⟨hpv, hvp⟩
      · exact h'.together a ha
  · rw [← hnumber]
    exact h'.reached_min hdesc ht (hpv.trans hvt)
  · intro a ha c hc
    have hupper : a ∈ v :: above → c ∈ met ∧ (c ∈ below' → min p.low low ≤ met.idxOf c) := by
      intro ha
      rcases h.looked a ha c hc with ⟨-, hnone⟩ | ⟨hmet, hle⟩
      · cases hnone
      · refine ⟨hmet, fun hb => (Nat.min_le_right _ _).trans (hle ?_)⟩
        exact List.mem_append_right _ (List.mem_cons_of_mem _ hb)
    have hlower : a ∈ p.symbol :: above' →
        a = p.symbol ∧ c ∈ p.rest ∨ c ∈ met ∧ (c ∈ below' → min p.low low ≤ met.idxOf c) := by
      intro ha
      refine (h'.looked a ha c hc).imp_right fun ⟨hmet, hle⟩ => ⟨hmet, fun hb => ?_⟩
      exact (Nat.min_le_left _ _).trans (hle hb)
    rcases List.mem_cons.1 ha with rfl | ha
    · exact hlower List.mem_cons_self
    · rcases List.mem_append.1 ha with ha | ha
      · exact .inr (hupper (List.mem_cons_of_mem _ ha))
      · rcases List.mem_cons.1 ha with rfl | ha
        · exact .inr (hupper List.mem_cons_self)
        · exact hlower (List.mem_cons_of_mem _ ha)

end Layer

namespace Layers

/-- The innermost layer and those outside. -/
theorem exists_layer {f : Frame} (h : Layers g met (f :: outer) waiting) :
    ∃ above below, waiting = above ++ f.symbol :: below ∧ Layer g met f above below ∧
      (∀ p ∈ outer.head?, f.symbol ∈ g.callees p.symbol) ∧ Layers g met outer below := by
  cases h with
  | cons layer called rest => exact ⟨_, _, rfl, layer, called, rest⟩

theorem meet {frames : List Frame} (h : Layers g met frames waiting) (hmet : ∀ s ∈ waiting, s ∈ met)
    (c : Symbol) :
    Layers g (met ++ [c]) frames waiting := by
  induction h with
  | nil => exact .nil
  | cons layer called _ ih =>
    have hbelow := fun s hs => hmet s (List.mem_append_right _ hs)
    exact .cons (layer.meet hbelow c) called (ih fun s hs => hbelow s (List.mem_cons_of_mem _ hs))

/-- Every waiting symbol reaches the innermost symbol under way. -/
theorem reaches_top {f : Frame} (h : Layers g met (f :: outer) waiting) :
    ∀ t ∈ waiting, g.Reaches t f.symbol := by
  generalize hframes : f :: outer = frames at h
  induction h generalizing f outer with
  | nil => cases hframes
  | cons layer called rest ih =>
    cases hframes
    intro t ht
    rcases List.mem_append.1 ht with ht | ht
    · exact (layer.together t ht).2
    · rcases List.mem_cons.1 ht with rfl | ht
      · exact .refl layer.defined
      · cases rest with
        | nil => cases ht
        | @cons p outer _ _ _ _ _ => exact (ih rfl t ht).step (called p rfl) layer.defined

/-- A new symbol is a layer of its own. -/
theorem enter {frames : List Frame} (h : Layers g (met ++ [s]) frames waiting)
    (hs : g.isDefined s = true) (hnew : s ∉ met)
    (hcalled : ∀ p ∈ frames.head?, s ∈ g.callees p.symbol) :
    Layers g (met ++ [s]) (⟨s, met.length, g.successors s⟩ :: frames) (s :: waiting) := by
  have hnumber : (met ++ [s]).idxOf s = met.length := by simp [List.idxOf_append_of_notMem hnew]
  refine @Layers.cons M L g (met ++ [s]) ⟨s, met.length, g.successors s⟩
    frames [] waiting ?_ hcalled h
  constructor
  · exact hs
  · exact fun c hc => hc
  · exact List.forall_mem_nil _
  · exact ⟨s, List.mem_cons_self, hnumber, .refl hs⟩
  · intro a ha c hc
    obtain rfl := List.mem_singleton.1 ha
    exact .inl ⟨rfl, hc⟩

/-- The innermost symbol is left, but it is not the oldest of its component: its layer joins the
next one. -/
theorem join {v : Symbol} {low : Nat} {above below : List Symbol}
    (layer : Layer g met ⟨v, low, []⟩ above below)
    (called : ∀ p ∈ outer.head?, v ∈ g.callees p.symbol) (rest : Layers g met outer below)
    (hdesc : (above ++ v :: below).Pairwise fun a b => met.idxOf b < met.idxOf a)
    (hlow : low ≠ met.idxOf v) :
    Layers g met (lowerTop low outer) (above ++ v :: below) := by
  obtain ⟨t, ht, (hnumber : met.idxOf t = low), hvt⟩ := layer.reached
  have htbelow : t ∈ below := by
    rcases List.mem_cons.1 ht with rfl | ht
    · exact absurd hnumber.symm hlow
    · exact ht
  cases rest with
  | nil => cases htbelow
  | @cons p outer above' below' layer' called' rest' =>
    have htp := reaches_top (.cons layer' called' rest') t htbelow
    have hdesc' := (List.pairwise_cons.1 (List.pairwise_append.1 hdesc).2.1).2
    have hjoined := layer.join layer' (called p rfl) hdesc' htbelow hnumber hvt htp
    have hlayers := Layers.cons hjoined called' rest'
    rwa [List.append_assoc, List.cons_append] at hlayers

/-- A low number that is not smaller changes nothing. -/
theorem lowerTop_of_newer {n : Nat} (h : Layers g met outer waiting)
    (hdesc : waiting.Pairwise fun a b => met.idxOf b < met.idxOf a)
    (hn : ∀ s ∈ waiting, met.idxOf s ≤ n) :
    lowerTop n outer = outer := by
  cases h with
  | nil => rfl
  | @cons p outer above below layer called rest =>
    have hle := layer.low_le (List.pairwise_append.1 hdesc).2.1
    have hn := hn p.symbol (List.mem_append_right _ List.mem_cons_self)
    rw [lowerTop, Nat.min_eq_left (hle.trans hn)]

end Layers

/-! ## What was found -/

/-- The components found so far are complete, and each comes after those that it calls. -/
structure Found (g : CallGraph M L) (found : List (List Symbol)) : Prop where
  ascending : ∀ members ∈ found, Ascending Symbol.cmp members
  component : ∀ members ∈ found, ∃ a ∈ members, ∀ s, s ∈ members ↔ g.Reaches a s ∧ g.Reaches s a
  closed : ∀ a ∈ found.flatten, ∀ c ∈ g.successors a, c ∈ found.flatten
  calleesFirst : found.Pairwise fun earlier later => ∀ a ∈ earlier, ∀ b ∈ later, b ∉ g.successors a

theorem Found.empty : Found g [] where
  ascending := List.forall_mem_nil _
  component := List.forall_mem_nil _
  closed := List.forall_mem_nil _
  calleesFirst := .nil

/-- New symbols that reach one of them and are reached from it are a component, if all that they
call is among them or was found. -/
theorem Found.append {found : List (List Symbol)} (h : Found g found) {members : List Symbol}
    {v : Symbol} (hv : v ∈ members) (hnodup : members.Nodup)
    (hnew : ∀ s ∈ members, s ∉ found.flatten)
    (htogether : ∀ s ∈ members, g.Reaches v s ∧ g.Reaches s v)
    (hclosed : ∀ a ∈ members, ∀ c ∈ g.successors a, c ∈ members ∨ c ∈ found.flatten) :
    Found g (found ++ [Symbol.sort members]) := by
  have hflatten : ∀ a, a ∈ (found ++ [Symbol.sort members]).flatten ↔ a ∈ found.flatten ∨
      a ∈ members := by
    intro a
    simp only [List.flatten_append, List.mem_append, List.flatten_singleton, mem_sort]
  constructor
  · refine List.forall_mem_append.2 ⟨h.ascending, List.forall_mem_singleton.2 ?_⟩
    refine .of_sorted ?_ ((List.mergeSort_perm _ _).nodup_iff.2 hnodup)
    exact List.pairwise_mergeSort Symbol.le_trans Symbol.le_total members
  · refine List.forall_mem_append.2
      ⟨h.component, List.forall_mem_singleton.2 ⟨v, mem_sort.2 hv, fun s => ?_⟩⟩
    rw [mem_sort]
    refine ⟨htogether s, fun ⟨hvs, hsv⟩ => ?_⟩
    -- what a member reaches is a member or was found, and what was found does not reach `v`
    have hs : s ∈ {s | s ∈ members ∨ s ∈ found.flatten} := by
      refine hvs.mem_of_closed (fun a ha c hc hd => ?_) (.inl hv)
      have hc := mem_successors_iff.2 ⟨hc, hd⟩
      exact ha.elim (fun ha => hclosed a ha c hc) fun ha => .inr (h.closed a ha c hc)
    refine hs.resolve_right fun hs => hnew v hv ?_
    exact hsv.mem_of_closed (S := {s | s ∈ found.flatten})
      (fun a ha c hc hd => h.closed a ha c (mem_successors_iff.2 ⟨hc, hd⟩)) hs
  · intro a ha c hc
    rw [hflatten] at ha ⊢
    exact ha.elim (fun ha => .inl (h.closed a ha c hc)) fun ha => (hclosed a ha c hc).symm
  · refine List.pairwise_append.2 ⟨h.calleesFirst, List.pairwise_singleton _ _, ?_⟩
    intro earlier hearlier later hlater a ha b hb hcall
    obtain rfl := List.mem_singleton.1 hlater
    exact hnew b (mem_sort.1 hb) (h.closed a (List.mem_flatten_of_mem hearlier ha) b hcall)

/-! ## The walk -/

/-- What holds of a walk at every step. -/
structure Invariant (g : CallGraph M L) (w : Walk) : Prop where
  defined : ∀ s ∈ w.met, g.isDefined s = true
  nodup : w.met.Nodup
  ordered : w.waiting.Sublist w.met.reverse
  /-- Every symbol that was met is waiting or found. -/
  placed : (w.found.flatten ++ w.waiting).Perm w.met
  layers : Layers g w.met w.frames w.waiting
  found : Found g w.found

namespace Invariant

variable {w w' : Walk}

theorem empty : Invariant g {} where
  defined _ hs := by cases hs
  nodup := List.nodup_nil
  ordered := List.Sublist.refl _
  placed := List.Perm.refl _
  layers := .nil
  found := .empty

theorem met_of_waiting (h : Invariant g w) : ∀ s ∈ w.waiting, s ∈ w.met :=
  fun _ hs => h.placed.mem_iff.1 (List.mem_append_right _ hs)

theorem enter {frames : List Frame} (h : Invariant g w) (hs : g.isDefined s = true)
    (hnew : s ∉ w.met) (hlayers : Layers g (w.met ++ [s]) frames w.waiting)
    (hcalled : ∀ p ∈ frames.head?, s ∈ g.callees p.symbol) :
    Invariant g (Walk.enter g { w with frames := frames } s) where
  defined := List.forall_mem_append.2 ⟨h.defined, List.forall_mem_singleton.2 hs⟩
  nodup := List.nodup_append.2 ⟨h.nodup, List.nodup_singleton s, by grind⟩
  ordered := by
    rw [Walk.enter, List.reverse_append]
    exact h.ordered.cons_cons s
  placed :=
    List.perm_middle.trans ((h.placed.cons s).trans (List.perm_append_singleton s w.met).symm)
  layers := hlayers.enter hs hnew hcalled
  found := h.found

/-- Only the frames change, and the layers are as before. -/
theorem withFrames {frames : List Frame} (h : Invariant g w)
    (hlayers : Layers g w.met frames w.waiting) :
    Invariant g { w with frames := frames } :=
  { h with layers := hlayers }

/-- A symbol and what waits above it are cut off together. -/
theorem cut_waiting {v : Symbol} {above : List Symbol} (hv : v ∉ above) (below : List Symbol) :
    (above ++ v :: below).take ((above ++ v :: below).idxOf v + 1) = above ++ [v] ∧
      (above ++ v :: below).drop ((above ++ v :: below).idxOf v + 1) = below := by
  have hplace : (above ++ v :: below).idxOf v = above.length := by
    simp [List.idxOf_append_of_notMem hv]
  rw [hplace]
  constructor
  · rw [List.take_length_add_append, List.take_succ_cons, List.take_zero]
  · rw [List.drop_length_add_append, List.drop_succ_cons, List.drop_zero]

/-- Where nothing older than `v` is reached, `v` and what waits above it are a component: what they
call is among them or was found before. -/
theorem emit {found : List (List Symbol)} {frames : List Frame} {v : Symbol}
    {above below : List Symbol} (h : Invariant g ⟨met, above ++ v :: below, frames, found⟩)
    (layer : Layer g met ⟨v, met.idxOf v, []⟩ above below) (others : Layers g met outer below) :
    Invariant g ⟨met, below, outer, found ++ [Symbol.sort (above ++ [v])]⟩ := by
  have hdesc := pairwise_number h.nodup h.ordered
  have hparts : (found.flatten ++ (above ++ v :: below)).Nodup := h.placed.nodup_iff.2 h.nodup
  have hsplit : above ++ v :: below = (above ++ [v]) ++ below := by simp
  obtain ⟨-, hwaiting, hnew⟩ := List.nodup_append.1 hparts
  have hmembers : ∀ s ∈ above ++ [v], s ∈ above ++ v :: below := by
    rw [hsplit]
    exact fun s hs => List.mem_append_left _ hs
  constructor
  · exact h.defined
  · exact h.nodup
  · exact ((List.sublist_cons_self v below).trans (List.sublist_append_right above _)).trans
      h.ordered
  · refine .trans ?_ h.placed
    rw [List.flatten_append, List.flatten_singleton, List.append_assoc, hsplit]
    exact ((List.mergeSort_perm _ _).append_right below).append_left found.flatten
  · exact others
  · refine h.found.append (v := v) (by simp) ?_ ?_ ?_ ?_
    · rw [hsplit] at hwaiting
      exact (List.nodup_append.1 hwaiting).1
    · exact fun s hs hf => hnew s hf s (hmembers s hs) rfl
    · intro s hs
      rcases List.mem_append.1 hs with hs | hs
      · exact layer.together s hs
      · obtain rfl := List.mem_singleton.1 hs
        exact ⟨.refl layer.defined, .refl layer.defined⟩
    · intro a ha c hc
      obtain ⟨hmet, hbelow⟩ :=
        (layer.looked a (by simpa [or_comm] using ha) c hc).resolve_left (by simp)
      rcases List.mem_append.1 (h.placed.mem_iff.2 hmet) with hf | hw
      · exact .inr hf
      · rw [hsplit] at hw
        refine .inl ((List.mem_append.1 hw).resolve_right fun hb => ?_)
        have holder := (List.pairwise_cons.1 (List.pairwise_append.1 hdesc).2.1).1 c hb
        exact absurd (hbelow hb) (Nat.not_le.2 holder)

theorem look {v callee : Symbol} {low : Nat} {rest : List Symbol} (h : Invariant g w)
    (hframes : w.frames = ⟨v, low, callee :: rest⟩ :: outer) :
    Invariant g (w.look g ⟨v, low, rest⟩ callee outer) := by
  obtain ⟨met, waiting, frames, found⟩ := w
  obtain rfl : frames = _ := hframes
  have hdesc := pairwise_number h.nodup h.ordered
  obtain ⟨above, below, hwaiting, layer, called, others⟩ := h.layers.exists_layer
  obtain rfl : waiting = above ++ v :: below := hwaiting
  have hsuccessor := layer.rest callee List.mem_cons_self
  have hcallee := mem_successors_iff.1 hsuccessor
  have hbelow : ∀ s ∈ v :: below, s ∈ met :=
    fun s hs => h.met_of_waiting s (List.mem_append_right _ hs)
  unfold Walk.look
  split
  · rename_i hnew
    have hnotbelow : callee ∉ below := fun hb => hnew.2 (hbelow callee (List.mem_cons_of_mem _ hb))
    have hlayer := layer.meet hbelow callee
    have hothers := others.meet (fun s hs => hbelow s (List.mem_cons_of_mem _ hs)) callee
    refine h.enter hcallee.2 hnew.2 (.cons ?_ called hothers) ?_
    · exact hlayer.look (by simp) le_rfl (fun hb => absurd hb hnotbelow) hlayer.reached
    · rintro p hp
      cases hp
      exact hcallee.1
  · rename_i hold
    have hmet : callee ∈ met := by
      by_contra hnew
      exact hold ⟨isDefined_iff.1 hcallee.2, hnew⟩
    split
    · rename_i hwaits
      have hreached := layer.reached_min hdesc hwaits (.of_successor layer.defined hsuccessor)
      have hlayer := layer.look hmet (Nat.min_le_left _ _) (fun _ => Nat.min_le_right _ _) hreached
      exact h.withFrames (.cons hlayer called others)
    · rename_i hplaced
      have hnotbelow : callee ∉ below :=
        fun hb => hplaced (List.mem_append_right _ (List.mem_cons_of_mem _ hb))
      have hlayer := layer.look hmet le_rfl (fun hb => absurd hb hnotbelow) layer.reached
      exact h.withFrames (.cons hlayer called others)

theorem leave {v : Symbol} {low : Nat} (h : Invariant g w)
    (hframes : w.frames = ⟨v, low, []⟩ :: outer) :
    Invariant g (w.leave ⟨v, low, []⟩ outer) := by
  obtain ⟨met, waiting, frames, found⟩ := w
  obtain rfl : frames = _ := hframes
  have hdesc := pairwise_number h.nodup h.ordered
  obtain ⟨above, below, hwaiting, layer, called, others⟩ := h.layers.exists_layer
  obtain rfl : waiting = above ++ v :: below := hwaiting
  unfold Walk.leave
  split
  · rename_i hlow
    obtain rfl : low = met.idxOf v := hlow
    obtain ⟨-, hdescv, hnewer⟩ := List.pairwise_append.1 hdesc
    obtain ⟨holder, hdescbelow⟩ := List.pairwise_cons.1 hdescv
    have hv : v ∉ above := fun hv => (hnewer v hv v List.mem_cons_self).false
    obtain ⟨htake, hdrop⟩ := cut_waiting hv below
    have hframes : lowerTop (met.idxOf v) outer = outer :=
      others.lowerTop_of_newer hdescbelow fun s hs => (holder s hs).le
    simp only [htake, hdrop, hframes]
    exact h.emit layer others
  · rename_i hlow
    exact h.withFrames (others.join layer called hdesc hlow)

/-- **A step keeps the invariant.** -/
theorem step (h : Invariant g w) (hstep : w.step g = some w') : Invariant g w' := by
  obtain ⟨met, waiting, frames, found⟩ := w
  rcases frames with _ | ⟨⟨v, low, _ | ⟨callee, rest⟩⟩, outer⟩
  · cases hstep
  · cases hstep
    exact h.leave rfl
  · cases hstep
    exact h.look rfl

/-- What was met stays met. -/
theorem met_of_step (hstep : w.step g = some w') : ∀ s ∈ w.met, s ∈ w'.met := by
  obtain ⟨met, waiting, frames, found⟩ := w
  intro s hs
  rcases frames with _ | ⟨⟨v, low, _ | ⟨callee, rest⟩⟩, outer⟩
  · cases hstep
  · cases hstep
    unfold Walk.leave
    split <;> exact hs
  · cases hstep
    unfold Walk.look
    split
    · exact List.mem_append_left _ hs
    · split <;> exact hs

theorem frames_of_step_none (h : w.step g = none) : w.frames = [] := by
  obtain ⟨met, waiting, frames, found⟩ := w
  rcases frames with _ | ⟨⟨v, low, _ | ⟨callee, rest⟩⟩, outer⟩
  · rfl
  · cases h
  · cases h

/-- **A walk keeps the invariant**, and in the end no symbol is under way. -/
theorem run (h : Invariant g w) :
    Invariant g (w.run g) ∧ (w.run g).frames = [] ∧ ∀ s ∈ w.met, s ∈ (w.run g).met := by
  fun_induction Walk.run g w with
  | case1 w hnone => exact ⟨h, frames_of_step_none hnone, fun s hs => hs⟩
  | case2 w w' hstep ih =>
    obtain ⟨hinv, hframes, hmet⟩ := ih (h.step hstep)
    exact ⟨hinv, hframes, fun s hs => hmet s (met_of_step hstep s hs)⟩

/-- Where no symbol is under way, none waits. -/
theorem waiting_eq_nil (h : Invariant g w) (hframes : w.frames = []) : w.waiting = [] := by
  have hlayers := h.layers
  rw [hframes] at hlayers
  generalize w.waiting = waiting at hlayers ⊢
  cases hlayers
  rfl

theorem visit (h : Invariant g w) (hframes : w.frames = []) (hs : g.isDefined s = true) :
    Invariant g (w.visit g s) ∧ (w.visit g s).frames = [] ∧ ∀ t, t ∈ w.met ∨ t = s →
      t ∈ (w.visit g s).met := by
  unfold Walk.visit
  split
  · rename_i hmet
    exact ⟨h, hframes, fun t ht => ht.elim id fun ht => ht ▸ hmet⟩
  · rename_i hnew
    have henter : Invariant g (w.enter g s) := by
      have hlayers : Layers g (w.met ++ [s]) [] w.waiting := by
        rw [h.waiting_eq_nil hframes]
        exact .nil
      have hentered := h.enter hs hnew hlayers fun p hp => by cases hp
      rwa [← hframes] at hentered
    obtain ⟨hinv, hdone, hmet⟩ := henter.run
    exact ⟨hinv, hdone, fun t ht => hmet t (List.mem_append.2 (ht.imp_right List.mem_singleton.2))⟩

theorem foldl_visit (h : Invariant g w) (hframes : w.frames = []) (xs : List Symbol)
    (hxs : ∀ s ∈ xs, g.isDefined s = true) :
    Invariant g (xs.foldl (Walk.visit g) w) ∧ (xs.foldl (Walk.visit g) w).frames = [] ∧
      ∀ t, t ∈ w.met ∨ t ∈ xs → t ∈ (xs.foldl (Walk.visit g) w).met := by
  induction xs generalizing w with
  | nil => exact ⟨h, hframes, fun t ht => ht.elim id fun ht => by cases ht⟩
  | cons s rest ih =>
    obtain ⟨hs, hrest⟩ := List.forall_mem_cons.1 hxs
    obtain ⟨hinv, hdone, hmet⟩ := h.visit hframes hs
    obtain ⟨hinv, hdone, hall⟩ := ih hinv hdone hrest
    refine ⟨hinv, hdone, fun t ht => hall t ?_⟩
    rw [List.mem_cons, ← or_assoc] at ht
    exact ht.imp_left (hmet t)

end Invariant

end Walk

/-! ## The components -/

open Walk in
/-- What the walk over all definitions finds. -/
theorem found_components (g : CallGraph M L) :
    Found g g.components ∧ g.components.flatten.Nodup ∧
      ∀ s, s ∈ g.components.flatten ↔ g.isDefined s = true := by
  obtain ⟨hinv, hframes, hmet⟩ :=
    (Invariant.empty (g := g)).foldl_visit rfl g.definitions fun s hs => isDefined_iff.2 hs
  have hplaced := hinv.placed
  rw [hinv.waiting_eq_nil hframes, List.append_nil] at hplaced
  refine ⟨hinv.found, hplaced.nodup_iff.2 hinv.nodup, fun s => hplaced.mem_iff.trans ?_⟩
  exact ⟨hinv.defined s, fun hs => hmet s (.inr (isDefined_iff.1 hs))⟩

section Members

variable {members : List Symbol} {a b : Symbol}

theorem component_nodup (h : members ∈ g.components) : members.Nodup :=
  (List.nodup_flatten.1 (found_components g).2.1).1 members h

/-- Two members of a component reach each other. -/
theorem reaches_of_mem_component (h : members ∈ g.components) (ha : a ∈ members)
    (hb : b ∈ members) :
    g.Reaches a b := by
  obtain ⟨c, -, hc⟩ := (found_components g).1.component members h
  exact ((hc a).1 ha).2.trans ((hc b).1 hb).1

/-- What a member reaches and is reached from is a member. -/
theorem mem_component_of_reaches (h : members ∈ g.components) (ha : a ∈ members)
    (hab : g.Reaches a b) (hba : g.Reaches b a) : b ∈ members := by
  obtain ⟨c, -, hc⟩ := (found_components g).1.component members h
  have hca := (hc a).1 ha
  exact (hc b).2 ⟨hca.1.trans hab, hba.trans hca.2⟩

theorem component_ne_nil (h : members ∈ g.components) : ∃ a, a ∈ members := by
  obtain ⟨a, ha, -⟩ := (found_components g).1.component members h
  exact ⟨a, ha⟩

/-- **Every definition is a member of a component.** -/
theorem exists_component (h : g.isDefined s = true) : ∃ members ∈ g.components, s ∈ members :=
  List.mem_flatten.1 (((found_components g).2.2 s).2 h)

/-- **No symbol is a member of two components.** -/
theorem components_disjoint (g : CallGraph M L) : g.components.Pairwise List.Disjoint :=
  (List.nodup_flatten.1 (found_components g).2.1).2

end Members

/-- **The components of a call graph.** Every definition is a member of exactly one of them and
nothing else is. The members of each are in order. Two symbols are members of one component if and
only if each reaches the other through definitions. Callees come first: if a member of one component
calls a member of another, then that other one is listed before it. -/
theorem components_exact (g : CallGraph M L) :
    (∀ s, s ∈ g.components.flatten ↔ g.isDefined s = true) ∧ g.components.flatten.Nodup ∧
    (∀ members ∈ g.components, members ≠ [] ∧ Ascending Symbol.cmp members) ∧
    (∀ a b, (∃ members ∈ g.components, a ∈ members ∧ b ∈ members) ↔ g.Reaches a b ∧ g.Reaches b a) ∧
    ∀ (i j : Nat) (hi : i < g.components.length) (hj : j < g.components.length), i ≠ j →
      ∀ a ∈ g.components[i], ∀ b ∈ g.components[j], b ∈ g.callees a → j < i := by
  obtain ⟨hfound, hnodup, hdefined⟩ := found_components g
  refine ⟨hdefined, hnodup, fun members hm => ⟨?_, hfound.ascending members hm⟩,
    fun a b => ⟨?_, ?_⟩, ?_⟩
  · obtain ⟨a, ha⟩ := component_ne_nil hm
    exact List.ne_nil_of_mem ha
  · rintro ⟨members, hm, ha, hb⟩
    exact ⟨reaches_of_mem_component hm ha hb, reaches_of_mem_component hm hb ha⟩
  · rintro ⟨hab, hba⟩
    obtain ⟨members, hm, ha⟩ := exists_component hab.left
    exact ⟨members, hm, ha, mem_component_of_reaches hm ha hab hba⟩
  · intro i j hi hj hij a ha b hb hcall
    by_contra hlt
    have hb' : b ∈ g.components.flatten := List.mem_flatten_of_mem (List.getElem_mem hj) hb
    have hsuccessor : b ∈ g.successors a := mem_successors_iff.2 ⟨hcall, (hdefined b).1 hb'⟩
    exact List.pairwise_iff_getElem.1 hfound.calleesFirst i j hi hj (by omega) a ha b hb hsuccessor

end Deadwood.CallGraph
