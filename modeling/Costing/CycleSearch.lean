/-! # Searching for cycles

A directed graph is given by the list of its edges.  The search follows edges depth first from a
vertex and stops as soon as it meets a vertex of its own path again: the path from there on is a
cycle.

A search that visits each item of a list at most once ends because every visit leaves fewer
items to be visited; `remaining` counts them for this search and for others. -/

namespace Costing

/-! ## What a search has still to visit -/

section Remaining

variable {α : Type} [DecidableEq α]

/-- The items of a list that have not been visited. -/
def remaining (items visited : List α) : List α := items.filter fun a => !visited.contains a

/-- A visit to an item that had to be visited leaves fewer of them. -/
theorem length_remaining_lt {items visited visited' : List α} {a : α} (ha : a ∈ items)
    (hv : a ∉ visited) (hv' : ∀ b, b ∈ visited' ↔ b = a ∨ b ∈ visited) :
    (remaining items visited').length < (remaining items visited).length := by
  have split : remaining items visited' = (remaining items visited).filter fun b => !(b == a) := by
    simp only [remaining, List.filter_filter]
    congr 1
    funext b
    rw [Bool.eq_iff_iff]
    simp [hv']
  rw [split]
  refine List.length_filter_lt_length_iff_exists.mpr ⟨a, ?_, by simp⟩
  simpa [remaining, ha] using hv

end Remaining

/-! ## The search -/

variable {V : Type}

def edgeTargets (edges : List (V × V)) : List V := edges.map Prod.snd

/-- The vertices that edges lead to from a vertex, in the order of the edges. -/
def successors [DecidableEq V] (edges : List (V × V)) (v : V) :
    List { w // w ∈ edgeTargets edges } :=
  (edges.attach.filter fun e => e.val.1 = v).map fun e =>
    ⟨e.val.2, List.mem_map_of_mem e.property⟩

theorem mem_successors [DecidableEq V] {edges : List (V × V)} {v : V}
    {w : { w // w ∈ edgeTargets edges }} :
    w ∈ successors edges v ↔ (v, w.val) ∈ edges := by
  simp only [successors, List.mem_map, List.mem_filter, decide_eq_true_eq]
  constructor
  · rintro ⟨e, ⟨_, rfl⟩, rfl⟩
    exact e.property
  · intro h
    exact ⟨⟨(v, w.val), h⟩, ⟨List.mem_attach _ _, rfl⟩, rfl⟩

/-- A vertex on the path of a search, and the successors that are still to be tried. -/
structure SearchFrame (edges : List (V × V)) where
  vertex : V
  untried : List { w // w ∈ edgeTargets edges }

namespace SearchFrame

variable {edges : List (V × V)}

/-- The frame of a vertex that has just been reached. -/
def entering [DecidableEq V] (v : V) : SearchFrame edges := ⟨v, successors edges v⟩

/-- How often a successor is still to be tried or a vertex to be left. -/
def pending : List (SearchFrame edges) → Nat
  | [] => 0
  | f :: below => f.untried.length + 1 + pending below

theorem pending_leave (v : V) (below : List (SearchFrame edges)) :
    pending below < pending (⟨v, []⟩ :: below) := by
  simp only [pending]
  omega

theorem pending_try (v : V) (w : { w // w ∈ edgeTargets edges })
    (untried : List { w // w ∈ edgeTargets edges }) (below : List (SearchFrame edges)) :
    pending (⟨v, untried⟩ :: below) < pending (⟨v, w :: untried⟩ :: below) := by
  simp only [pending, List.length_cons]
  omega

end SearchFrame

/-- The vertices of a path from one of them on, and that one again.  The path is given with its
end first. -/
def cycleAlong [DecidableEq V] (path : List V) (v : V) : List V :=
  v :: (path.takeWhile (· ≠ v)).reverse ++ [v]

/-- Continues a search whose path is given by frames, the end first.  The answer is the cycle
that is met first. -/
def searchCycle [DecidableEq V] (edges : List (V × V)) (visited : List V)
    (frames : List (SearchFrame edges)) : Option (List V) :=
  match frames with
  | [] => none
  | ⟨_, []⟩ :: below => searchCycle edges visited below
  | ⟨v, w :: untried⟩ :: below =>
    let path := v :: below.map (·.vertex)
    if w.val ∈ path then some (cycleAlong path w.val)
    else if _h : w.val ∈ visited then searchCycle edges visited (⟨v, untried⟩ :: below)
    else searchCycle edges (w.val :: visited) (.entering w.val :: ⟨v, untried⟩ :: below)
termination_by ((remaining (edgeTargets edges) visited).length, SearchFrame.pending frames)
decreasing_by
  · exact Prod.Lex.right _ (SearchFrame.pending_leave _ below)
  · exact Prod.Lex.right _ (SearchFrame.pending_try v w untried below)
  · exact Prod.Lex.left _ _ (length_remaining_lt w.property _h fun _ => List.mem_cons)

/-- The first cycle that a search from a vertex meets. -/
def cycleFrom? [DecidableEq V] (edges : List (V × V)) (v : V) : Option (List V) :=
  searchCycle edges [v] [.entering v]

end Costing
