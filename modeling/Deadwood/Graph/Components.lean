import Deadwood.Graph.Reach

/-!
# Strongly connected components

Two defined symbols belong to one component when each reaches the other. `CallGraph.components`
lists the components so that callees come first, in one depth-first walk over the definitions.

The walk numbers the symbols as it meets them. A symbol waits until its component is known, and for
each symbol under way the walk keeps the least number of a waiting symbol that it is known to reach.
If that is still its own number when the symbol is left, then the symbol and all that came to wait
after it are a component.
-/

namespace Deadwood.CallGraph

variable {M L : Type}

/-- A symbol that a walk has entered and not left. -/
structure Frame where
  symbol : Symbol
  /-- The least number of a waiting symbol that `symbol` is known to reach. -/
  low : Nat
  /-- The callees that were not looked at yet. -/
  rest : List Symbol
deriving Repr, DecidableEq

/-- How far a depth-first walk has come. -/
structure Walk where
  /-- The symbols met so far, in order; the number of a symbol is its place here. -/
  met : List Symbol := []
  /-- The symbols that wait for their component, the newest first. -/
  waiting : List Symbol := []
  /-- The symbols under way, the innermost first. -/
  frames : List Frame := []
  /-- The components found so far. -/
  found : List (List Symbol) := []
deriving Repr, DecidableEq

namespace Walk

/-- The number of a symbol that was met. -/
def number (w : Walk) (s : Symbol) : Nat := w.met.idxOf s

/-- Meets a symbol and goes into it. -/
def enter (g : CallGraph M L) (w : Walk) (s : Symbol) : Walk :=
  { w with
    met := w.met ++ [s]
    waiting := s :: w.waiting
    frames := ⟨s, w.met.length, g.successors s⟩ :: w.frames }

/-- Lets the innermost symbol reach the number `n`. -/
def lowerTop (n : Nat) : List Frame → List Frame
  | [] => []
  | f :: outer => { f with low := min f.low n } :: outer

/-- Looks at a callee of the innermost symbol: a new one is entered, and the number of a waiting one
is reached. -/
def look (g : CallGraph M L) (w : Walk) (f : Frame) (callee : Symbol) (outer : List Frame) : Walk :=
  if callee ∈ g.definitions ∧ callee ∉ w.met then enter g { w with frames := f :: outer } callee
  else if callee ∈ w.waiting then { w with frames := lowerTop (w.number callee) (f :: outer) }
  else { w with frames := f :: outer }

/-- Leaves the innermost symbol, with its component if it is the oldest member. -/
def leave (w : Walk) (f : Frame) (outer : List Frame) : Walk :=
  let left : Walk := { w with frames := lowerTop f.low outer }
  if f.low = w.number f.symbol then
    let size := w.waiting.idxOf f.symbol + 1
    { left with
      waiting := w.waiting.drop size
      found := w.found ++ [Symbol.sort (w.waiting.take size)] }
  else left

/-- The next step of a walk, if a symbol is under way. -/
def step (g : CallGraph M L) (w : Walk) : Option Walk :=
  match w.frames with
  | [] => none
  | ⟨s, low, []⟩ :: outer => some (w.leave ⟨s, low, []⟩ outer)
  | ⟨s, low, callee :: rest⟩ :: outer => some (w.look g ⟨s, low, rest⟩ callee outer)

/-- What is still to do for the symbols under way. -/
def pending (w : Walk) : Nat := w.frames.foldr (fun f left => f.rest.length + 1 + left) 0

theorem unseen_met_lt {g : CallGraph M L} {met : List Symbol} {s : Symbol} (hs : s ∈ g.definitions)
    (hnew : s ∉ met) : Search.unseen g.definitions (met ++ [s]) <
      Search.unseen g.definitions met := by
  have hsame : Search.unseen g.definitions (met ++ [s]) =
      Search.unseen g.definitions (s :: met) := by
    unfold Search.unseen
    congr 1
    funext x
    simp [or_comm]
  rw [hsame]
  exact Search.unseen_cons_lt hs hnew

theorem pending_lowerTop (n : Nat) (frames : List Frame) :
    (lowerTop n frames).foldr (fun f left => f.rest.length + 1 + left) 0 =
      frames.foldr (fun f left => f.rest.length + 1 + left) 0 := by
  cases frames <;> rfl

/-- A step meets a definition, or it meets nothing and leaves less to do. -/
theorem step_lt {g : CallGraph M L} {w w' : Walk} (h : w.step g = some w') :
    Search.unseen g.definitions w'.met < Search.unseen g.definitions w.met ∨
      w'.met = w.met ∧ w'.pending < w.pending := by
  obtain ⟨met, waiting, frames, found⟩ := w
  rcases frames with _ | ⟨⟨s, low, _ | ⟨callee, rest⟩⟩, outer⟩
  · cases h
  · cases h
    refine .inr ?_
    unfold leave pending
    split <;> simp [pending_lowerTop]
  · cases h
    unfold look
    split
    · rename_i hnew
      exact .inl (unseen_met_lt hnew.1 hnew.2)
    · refine .inr ?_
      unfold pending
      split <;> simp [lowerTop]

/-- Walks on until no symbol is under way. -/
def run (g : CallGraph M L) (w : Walk) : Walk :=
  match _h : w.step g with
  | none => w
  | some w' => run g w'
termination_by (Search.unseen g.definitions w.met, w.pending)
decreasing_by
  rcases step_lt _h with hmet | ⟨hmet, hpending⟩
  · exact Prod.Lex.left _ _ hmet
  · rw [hmet]
    exact Prod.Lex.right _ hpending

/-- Walks from a symbol unless it was met before. -/
def visit (g : CallGraph M L) (w : Walk) (s : Symbol) : Walk :=
  if s ∈ w.met then w else run g (w.enter g s)

end Walk

/-- The components, callees first, each in order. -/
def components (g : CallGraph M L) : List (List Symbol) :=
  (g.definitions.foldl (Walk.visit g) {}).found

end Deadwood.CallGraph
