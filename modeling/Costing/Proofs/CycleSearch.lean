import Costing.CycleSearch
import Mathlib.Data.List.Chain
import Mathlib.Logic.Relation

/-! # The search for cycles is exact

A search goes on by moves: a vertex without further successors is left, a known successor is
passed over, a fresh one is entered.  There is no endless run of moves (`wellFounded_searchMove`),
and the answer is read off the end of the run (`run_of_searchCycle`), so whatever every move keeps
holds where the search ends.

* `Progress` makes the search complete.  A vertex is *left* once it has been visited and is off the
  path again.  Edges from left vertices lead to left vertices and none of them is on a cycle, and a
  successor which the path has tried has been left, or is the next vertex of the path.  So where a
  search finds no cycle, none can be reached (`acyclic_of_cycleFrom?`).
* `Traced` makes it sound: the path is a walk from the start, and what is to be tried from a vertex
  are successors of it.  So what is found is a closed walk (`traced_of_cycleFrom?`). -/

namespace Costing

open Relation (ReflTransGen TransGen)

variable {V : Type}

def Adjacent (edges : List (V × V)) (u v : V) : Prop := (u, v) ∈ edges

def Acyclic (edges : List (V × V)) : Prop := ∀ v, ¬TransGen (Adjacent edges) v v

/-- Nothing leads around where every step leads to a lower rank. -/
theorem not_transGen_of_rank {R : V → V → Prop} {rank : V → Nat}
    (falls : ∀ u v, R u v → rank v < rank u) (v : V) : ¬TransGen R v v := by
  have below {u w : V} (path : TransGen R u w) : rank w < rank u := by
    induction path with
    | single step => exact falls _ _ step
    | tail _ step ih => exact (falls _ _ step).trans ih
  exact fun around => Nat.lt_irrefl _ (below around)

section
variable (edges : List (V × V))

def SearchFrame.path {edges : List (V × V)} (frames : List (SearchFrame edges)) : List V :=
  frames.map (·.vertex)

/-- Vertices that edges do not leave and that are on no cycle. -/
structure Exhausted (inside : V → Prop) : Prop where
  closed : ∀ {u v}, inside u → Adjacent edges u v → inside v
  acyclic : ∀ {u}, inside u → ¬TransGen (Adjacent edges) u u

/-- Each successor of a vertex on the path is still to be tried, or left, or the next vertex. -/
inductive Tried {edges : List (V × V)} (left : V → Prop) :
    Option V → List (SearchFrame edges) → Prop where
  | start {next : Option V} : Tried left next []
  | frame {next : Option V} {f : SearchFrame edges} {below : List (SearchFrame edges)}
      (each : ∀ v, Adjacent edges f.vertex v →
        v ∈ f.untried.map Subtype.val ∨ left v ∨ next = some v)
      (rest : Tried left (some f.vertex) below) : Tried left next (f :: below)

/-- The vertices that have been visited and are off the path. -/
def Left (visited path : List V) (v : V) : Prop := v ∈ visited ∧ v ∉ path

/-- The invariant of the search. -/
structure Progress (visited : List V) (frames : List (SearchFrame edges)) : Prop where
  onPath : SearchFrame.path frames ⊆ visited
  simple : (SearchFrame.path frames).Nodup
  exhausted : Exhausted edges (Left visited (SearchFrame.path frames))
  tried : Tried (Left visited (SearchFrame.path frames)) none frames

end

variable {edges : List (V × V)}

theorem Exhausted.reached {inside : V → Prop} (exhausted : Exhausted edges inside) {u v : V}
    (here : inside u) (path : ReflTransGen (Adjacent edges) u v) : inside v := by
  induction path with
  | refl => exact here
  | tail _ edge ih => exact exhausted.closed ih edge

/-- A vertex all of whose successors are inside may be added. -/
theorem Exhausted.add {inside : V → Prop} (exhausted : Exhausted edges inside) {v : V}
    (outside : ¬inside v) (onward : ∀ u, Adjacent edges v u → inside u) :
    Exhausted edges fun u => u = v ∨ inside u where
  closed here edge := by
    obtain rfl | old := here
    · exact .inr (onward _ edge)
    · exact .inr (exhausted.closed old edge)
  acyclic here around := by
    obtain rfl | old := here
    · -- the cycle would lead back from inside
      obtain ⟨next, edge, back⟩ := TransGen.head'_iff.mp around
      exact outside (exhausted.reached (onward next edge) back)
    · exact exhausted.acyclic old around

theorem Tried.mono {left left' : V → Prop} (wider : ∀ v, left v → left' v) {next : Option V}
    {frames : List (SearchFrame edges)} (tried : Tried left next frames) :
    Tried left' next frames := by
  induction tried with
  | start => exact .start
  | frame each _ ih =>
    exact .frame (fun v edge => (each v edge).imp_right (.imp_left (wider v))) ih

/-- The path goes on without the vertex at its end once that one has been left. -/
theorem Tried.leave {left left' : V → Prop} (wider : ∀ v, left v → left' v) {last : V}
    {below : List (SearchFrame edges)} (done : left' last) (tried : Tried left (some last) below) :
    Tried left' none below := by
  cases tried with
  | start => exact .start
  | frame each rest =>
    refine .frame (fun v edge => ?_) (rest.mono wider)
    obtain waiting | gone | next := each v edge
    · exact .inl waiting
    · exact .inr (.inl (wider v gone))
    · cases next
      exact .inr (.inl done)

section
variable [DecidableEq V] {visited : List V} {v : V} {below : List (SearchFrame edges)}

theorem SearchFrame.tried_entering {left : V → Prop} {next : Option V}
    (rest : Tried left (some v) below) : Tried left next (.entering v :: below) := by
  refine .frame (fun u edge => .inl ?_) rest
  exact List.mem_map.mpr ⟨⟨u, List.mem_map_of_mem edge⟩, mem_successors.mpr edge, rfl⟩

theorem Progress.start : Progress edges [v] [.entering v] where
  onPath := List.Subset.refl _
  simple := by simp [SearchFrame.path]
  exhausted := ⟨fun here => absurd here.1 here.2, fun here => absurd here.1 here.2⟩
  tried := SearchFrame.tried_entering .start

theorem Progress.leave (progress : Progress edges visited (⟨v, []⟩ :: below)) :
    Progress edges visited below := by
  have simple := List.nodup_cons.mp progress.simple
  have atEnd : v ∈ visited := progress.onPath (.head _)
  have left_iff : ∀ u, Left visited (SearchFrame.path below) u ↔
      u = v ∨ Left visited (SearchFrame.path (⟨v, []⟩ :: below)) u := by
    intro u
    by_cases same : u = v
    · subst same
      exact ⟨fun _ => .inl rfl, fun _ => ⟨atEnd, simple.1⟩⟩
    · simp [Left, SearchFrame.path, same]
  have wider u (gone : Left visited (SearchFrame.path (⟨v, []⟩ :: below)) u) :=
    (left_iff u).mpr (.inr gone)
  cases progress.tried with
  | frame each rest =>
    refine ⟨fun u member => progress.onPath (.tail _ member), simple.2, ?_,
      rest.leave wider ⟨atEnd, simple.1⟩⟩
    have onward : ∀ u, Adjacent edges v u →
        Left visited (SearchFrame.path (⟨v, []⟩ :: below)) u := fun u edge => by
      simpa using each u edge
    have outside : ¬Left visited (SearchFrame.path (⟨v, []⟩ :: below)) v :=
      fun gone => gone.2 (.head _)
    rw [funext fun u => propext (left_iff u)]
    exact progress.exhausted.add outside onward

variable {w : { u // u ∈ edgeTargets edges }} {untried : List { u // u ∈ edgeTargets edges }}

omit [DecidableEq V] in
theorem Progress.skip (progress : Progress edges visited (⟨v, w :: untried⟩ :: below))
    (off : w.val ∉ SearchFrame.path (⟨v, w :: untried⟩ :: below)) (known : w.val ∈ visited) :
    Progress edges visited (⟨v, untried⟩ :: below) := by
  refine ⟨progress.onPath, progress.simple, progress.exhausted, ?_⟩
  cases progress.tried with
  | frame each rest =>
    refine .frame (fun u edge => ?_) rest
    obtain waiting | done := each u edge
    · obtain rfl | later := List.mem_cons.mp waiting
      · exact .inr (.inl ⟨known, off⟩)
      · exact .inl later
    · exact .inr done

theorem Progress.enter (progress : Progress edges visited (⟨v, w :: untried⟩ :: below))
    (fresh : w.val ∉ visited) :
    Progress edges (w.val :: visited) (.entering w.val :: ⟨v, untried⟩ :: below) := by
  have left_iff : Left (w.val :: visited)
        (SearchFrame.path (.entering w.val :: ⟨v, untried⟩ :: below)) =
      Left visited (SearchFrame.path (⟨v, w :: untried⟩ :: below)) := by
    funext u
    -- the new vertex is visited and on the path, so it is not left
    by_cases same : u = w.val
    · simp [Left, SearchFrame.path, SearchFrame.entering, same, fresh]
    · simp [Left, SearchFrame.path, SearchFrame.entering, same]
  refine ⟨List.cons_subset_cons _ progress.onPath,
    List.nodup_cons.mpr ⟨fun member => fresh (progress.onPath member), progress.simple⟩,
    left_iff ▸ progress.exhausted, ?_⟩
  rw [left_iff]
  cases progress.tried with
  | frame each rest =>
    refine SearchFrame.tried_entering (.frame (fun u edge => ?_) rest)
    obtain waiting | gone | impossible := each u edge
    · obtain rfl | later := List.mem_cons.mp waiting
      · exact .inr (.inr rfl)
      · exact .inl later
    · exact .inr (.inl gone)
    · cases impossible

end

/-! ## Runs of the search -/

/-- What a search has visited, and its path. -/
structure SearchState (edges : List (V × V)) where
  visited : List V
  frames : List (SearchFrame edges)

section
variable [DecidableEq V]

/-- A search of which only the start has been reached. -/
def SearchState.start (v : V) : SearchState edges := ⟨[v], [.entering v]⟩

/-- One move of a search that has neither ended nor met its path. -/
inductive SearchMove : SearchState edges → SearchState edges → Prop where
  | leave {visited : List V} {v : V} {below : List (SearchFrame edges)} :
      SearchMove ⟨visited, ⟨v, []⟩ :: below⟩ ⟨visited, below⟩
  | skip {visited : List V} {v : V} {w : { u // u ∈ edgeTargets edges }}
      {untried : List { u // u ∈ edgeTargets edges }} {below : List (SearchFrame edges)}
      (off : w.val ∉ SearchFrame.path (⟨v, w :: untried⟩ :: below)) (known : w.val ∈ visited) :
      SearchMove ⟨visited, ⟨v, w :: untried⟩ :: below⟩ ⟨visited, ⟨v, untried⟩ :: below⟩
  | enter {visited : List V} {v : V} {w : { u // u ∈ edgeTargets edges }}
      {untried : List { u // u ∈ edgeTargets edges }} {below : List (SearchFrame edges)}
      (off : w.val ∉ SearchFrame.path (⟨v, w :: untried⟩ :: below)) (fresh : w.val ∉ visited) :
      SearchMove ⟨visited, ⟨v, w :: untried⟩ :: below⟩
        ⟨w.val :: visited, .entering w.val :: ⟨v, untried⟩ :: below⟩

/-- The answer of a search that makes no further move. -/
inductive SearchEnds : SearchState edges → Option (List V) → Prop where
  | exhausted {visited : List V} : SearchEnds ⟨visited, []⟩ none
  | met {visited : List V} {v : V} {w : { u // u ∈ edgeTargets edges }}
      {untried : List { u // u ∈ edgeTargets edges }} {below : List (SearchFrame edges)}
      (onPath : w.val ∈ SearchFrame.path (⟨v, w :: untried⟩ :: below)) :
      SearchEnds ⟨visited, ⟨v, w :: untried⟩ :: below⟩
        (some (cycleAlong (SearchFrame.path (⟨v, w :: untried⟩ :: below)) w.val))

/-- No search goes on for ever, whatever the graph and wherever it stands. -/
theorem wellFounded_searchMove :
    WellFounded fun later earlier : SearchState edges => SearchMove earlier later := by
  -- fewer vertices are to be visited, or as many and there is less to be tried or left
  let left (s : SearchState edges) : Nat × Nat :=
    ((remaining (edgeTargets edges) s.visited).length, SearchFrame.pending s.frames)
  refine Subrelation.wf (fun {later earlier} move => ?_)
    (InvImage.wf left (Prod.lex Nat.lt_wfRel Nat.lt_wfRel).wf)
  cases move with
  | leave => exact Prod.Lex.right _ (SearchFrame.pending_leave _ _)
  | skip => exact Prod.Lex.right _ (SearchFrame.pending_try _ _ _ _)
  | @enter visited v w untried below off fresh =>
    exact Prod.Lex.left _ _ (length_remaining_lt w.property fresh fun _ => List.mem_cons)

/-- The search makes moves until it ends, and answers with what it ends in. -/
theorem run_of_searchCycle (s : SearchState edges) :
    ∃ last, ReflTransGen SearchMove s last ∧
      SearchEnds last (searchCycle edges s.visited s.frames) := by
  apply wellFounded_searchMove.induction s
  rintro ⟨visited, frames⟩ ih
  -- a state that can move leads to the end of the run from the next one
  have further {next : SearchState edges} (move : SearchMove ⟨visited, frames⟩ next) :
      ∃ last, ReflTransGen SearchMove ⟨visited, frames⟩ last ∧
        SearchEnds last (searchCycle edges next.visited next.frames) := by
    obtain ⟨last, run, ends⟩ := ih next move
    exact ⟨last, .head move run, ends⟩
  match frames with
  | [] =>
    rw [searchCycle]
    exact ⟨_, .refl, .exhausted⟩
  | ⟨v, []⟩ :: below =>
    rw [searchCycle]
    exact further .leave
  | ⟨v, w :: untried⟩ :: below =>
    rw [searchCycle]
    by_cases onPath : w.val ∈ v :: below.map (·.vertex)
    · rw [if_pos onPath]
      exact ⟨_, .refl, .met onPath⟩
    · rw [if_neg onPath]
      by_cases known : w.val ∈ visited
      · rw [dif_pos known]
        exact further (.skip onPath known)
      · rw [dif_neg known]
        exact further (.enter onPath known)

theorem run_of_cycleFrom? (edges : List (V × V)) (v : V) :
    ∃ last : SearchState edges, ReflTransGen SearchMove (.start v) last ∧
      SearchEnds last (cycleFrom? edges v) :=
  run_of_searchCycle (.start v)

/-! ## No cycle is missed -/

theorem Progress.move {s s' : SearchState edges} (progress : Progress edges s.visited s.frames)
    (move : SearchMove s s') : Progress edges s'.visited s'.frames := by
  cases move with
  | leave => exact progress.leave
  | skip off known => exact progress.skip off known
  | enter _ fresh => exact progress.enter fresh

theorem SearchMove.visited_subset {s s' : SearchState edges} (move : SearchMove s s') :
    s.visited ⊆ s'.visited := by
  cases move with
  | leave => exact List.Subset.refl _
  | skip => exact List.Subset.refl _
  | enter => exact List.subset_cons_self _ _

/-- Where no cycle is found, none can be reached. -/
theorem acyclic_of_cycleFrom? {v : V} (none : cycleFrom? edges v = none) {u : V}
    (reached : ReflTransGen (Adjacent edges) v u) : ¬TransGen (Adjacent edges) u u := by
  obtain ⟨last, run, ends⟩ := run_of_cycleFrom? edges v
  obtain ⟨progress, visited⟩ : Progress edges last.visited last.frames ∧ v ∈ last.visited := by
    clear ends
    induction run with
    | refl => exact ⟨.start, .head _⟩
    | tail _ move ih => exact ⟨ih.1.move move, move.visited_subset ih.2⟩
  rw [none] at ends
  cases ends with
  | exhausted =>
    -- the path is empty, so everything that was visited has been left
    have left := progress.exhausted.reached ⟨visited, List.not_mem_nil⟩ reached
    exact progress.exhausted.acyclic left

/-! ## What is found is a cycle -/

/-- The path is a walk from the start, given with its end first, and what is to be tried from each
vertex of it are its successors. -/
structure Traced (v : V) (frames : List (SearchFrame edges)) : Prop where
  successors : ∀ f ∈ frames, ∀ w ∈ f.untried, Adjacent edges f.vertex w.val
  walk : (SearchFrame.path frames).IsChain fun later earlier => Adjacent edges earlier later
  reached : ∀ u ∈ SearchFrame.path frames, ReflTransGen (Adjacent edges) v u

theorem Traced.start {v : V} : Traced v ([.entering v] : List (SearchFrame edges)) where
  successors f member w untried := by
    obtain rfl := List.mem_singleton.mp member
    exact mem_successors.mp untried
  walk := .singleton v
  reached u member := by
    obtain rfl : u = v := List.mem_singleton.mp member
    exact .refl

theorem Traced.move {v : V} {s s' : SearchState edges} (traced : Traced v s.frames)
    (move : SearchMove s s') : Traced v s'.frames := by
  cases move with
  | leave =>
    exact ⟨fun f member => traced.successors f (.tail _ member), traced.walk.tail,
      fun u member => traced.reached u (.tail _ member)⟩
  | skip =>
    refine ⟨fun f member w untried => ?_, traced.walk, traced.reached⟩
    obtain rfl | below := List.mem_cons.mp member
    · exact traced.successors _ (.head _) w (.tail _ untried)
    · exact traced.successors f (.tail _ below) w untried
  | @enter visited u w untried below off fresh =>
    have edge : Adjacent edges u w.val := traced.successors _ (.head _) w (.head _)
    refine ⟨fun f member x tried => ?_, List.isChain_cons_cons.mpr ⟨edge, traced.walk⟩,
      fun x member => ?_⟩
    · obtain rfl | rfl | later : f = .entering w.val ∨ f = ⟨u, untried⟩ ∨ f ∈ below := by
        simpa using member
      · exact mem_successors.mp tried
      · exact traced.successors _ (.head _) x (.tail _ tried)
      · exact traced.successors f (.tail _ later) x tried
    · obtain rfl | onPath := List.mem_cons.mp member
      · exact (traced.reached u (.head _)).tail edge
      · exact traced.reached x onPath

/-- A walk that comes to a vertex of its path has gone around since. -/
theorem isChain_cycleAlong {path : List V} {w : V} (onPath : w ∈ path)
    (walk : (w :: path).IsChain fun later earlier => Adjacent edges earlier later) :
    (cycleAlong path w).IsChain (Adjacent edges) := by
  obtain ⟨since, before, rfl, fresh⟩ := List.eq_append_cons_of_mem onPath
  have taken : (since ++ w :: before).takeWhile (· ≠ w) = since := by
    rw [List.takeWhile_append_of_pos fun u member => by
      simpa using fun same : u = w => fresh (same ▸ member)]
    simp
  have backwards : cycleAlong (since ++ w :: before) w = (w :: (since ++ [w])).reverse := by
    rw [cycleAlong, taken]
    simp
  rw [backwards, List.isChain_reverse]
  exact walk.prefix ⟨before, by simp⟩

/-- A cycle that is found is a walk back to a vertex that can be reached. -/
theorem traced_of_cycleFrom? {v : V} {cycle : List V} (found : cycleFrom? edges v = some cycle) :
    ∃ w between, cycle = w :: between ++ [w] ∧ ReflTransGen (Adjacent edges) v w ∧
      cycle.IsChain (Adjacent edges) := by
  obtain ⟨last, run, ends⟩ := run_of_cycleFrom? edges v
  have traced : Traced v last.frames := by
    clear ends
    induction run with
    | refl => exact .start
    | tail _ move ih => exact ih.move move
  rw [found] at ends
  cases ends with
  | @met visited u w untried below onPath =>
    have edge : Adjacent edges u w.val := traced.successors _ (.head _) w (.head _)
    exact ⟨w.val, _, rfl, traced.reached _ onPath,
      isChain_cycleAlong onPath (List.isChain_cons_cons.mpr ⟨edge, traced.walk⟩)⟩

end

/-- A walk back to where it began goes around. -/
theorem transGen_of_isChain {R : V → V → Prop} {w : V} {between : List V}
    (walk : (w :: between ++ [w]).IsChain R) : TransGen R w w := by
  cases between with
  | nil => exact .single (List.isChain_pair.mp walk)
  | cons next between =>
    obtain ⟨edge, onward⟩ := List.isChain_cons_cons.mp walk
    exact .head' edge (List.relationReflTransGen_of_exists_isChain_cons _ onward (by simp))

/-- The search finds a cycle exactly if one can be reached from its start. -/
theorem cycleFrom?_eq_none_iff [DecidableEq V] {v : V} :
    cycleFrom? edges v = none ↔
      ∀ u, ReflTransGen (Adjacent edges) v u → ¬TransGen (Adjacent edges) u u := by
  refine ⟨fun none u reached => acyclic_of_cycleFrom? none reached, fun acyclic => ?_⟩
  cases found : cycleFrom? edges v with
  | none => rfl
  | some cycle =>
    obtain ⟨w, between, rfl, reached, walk⟩ := traced_of_cycleFrom? found
    exact absurd (transGen_of_isChain walk) (acyclic w reached)

end Costing
