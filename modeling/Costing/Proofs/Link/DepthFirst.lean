import Costing.Proofs.Link.Cycle
import Mathlib.Data.List.Dedup
import Mathlib.Data.List.Perm.Subperm

/-! # A resolution, moment by moment

Resolving a place is a recursive function, and what it keeps to at every moment is not to be seen
from its result.  Here its runs are spelled out: a `Moment` has the places whose bodies wait for one
another, what they have still to ask for, and what is known; `Move` goes from one moment to the
next.  The moves are those of `Workspace.resolve` (`comes_of_resolve`), and there is no endless run
of them, whatever the links (`wellFounded_move`).

`Orderly` is the invariant.  The places on the walk are distinct and have not settled, since a body
is only begun for a place that is neither known nor waiting, and a place settles when its body ends
and leaves the walk.  A place whose body has begun is taken from then on (`taken_of_move`), so no
body begins twice. -/

namespace Costing

open Relation (ReflTransGen TransGen)

namespace Workspace

/-- The places that the body of a place asks for. -/
def asks (w : Workspace) (p : Place) : List Place :=
  match w.source p with
  | .linked link _ => [link]
  | .computed _ m o => (m.dependencies o.name.text).map (Place.mk p.instanceId)
  | _ => []

/-- The end of the body of a place, once there are answers to what it has asked for. -/
def conclude (w : Workspace) (book : Pricebook) (p : Place) (answers : List FieldInput)
    (s : Resolution) : Except Formula.Crash (FieldInput × Resolution) :=
  match w.source p with
  | .stored own => .ok (s.settle p (.given own))
  | .severed reason link own => .ok (s.settleBroken p link reason own)
  | .nowhere => .ok (s.settle p (.broken .missingTarget .blank))
  -- the body of a linked field has asked once
  | .linked link own => .ok (s.settleLinked p link own (answers.headD (.given .blank)))
  | .computed i m o =>
    let inputs := i.storedInputs.insertAll ((m.dependencies o.name.text).zip answers)
    (m.computeOutputs book inputs).map fun results =>
      s.settleOutput p ((outputValues results).get? o.key)

/-- The fields and outputs of all instances, each of them once. -/
def places (w : Workspace) : List Place :=
  (w.instanceTable.values.flatMap fun i =>
    let outputs := match w.moduleTable.get? i.moduleId with
      | some m => m.outputs.map (·.key)
      | none => []
    (w.fieldNames i ++ outputs).map (Place.mk i.id)).dedup

end Workspace

/-- A place whose body waits for an answer or is at work.  Where it was asked for, there are places
that are asked for next, and the answers to those before it. -/
structure Begun where
  place : Place
  asks : List Place
  answers : List FieldInput

/-- A moment of a resolution: what the innermost body asks for next, the answers that it has, and
the bodies that have begun, the innermost first. -/
structure Moment where
  asks : List Place
  answers : List FieldInput
  begun : List Begun
  known : Resolution

namespace Moment

/-- The places that wait for one another. -/
def walk (m : Moment) : List Place := m.begun.map (·.place)

/-- The fields of instances, one instance after the other. -/
def fieldsOf (w : Workspace) (instances : List Instance) : List Place :=
  instances.flatMap fun i => (w.fieldNames i).map (Place.mk i.id)

/-- A whole resolution asks for all fields of all instances. -/
def start (w : Workspace) : Moment where
  asks := fieldsOf w w.instanceTable.values
  answers := []
  begun := []
  known := .start

section
variable (w : Workspace) (book : Pricebook)

/-- From one moment of a resolution to the next. -/
inductive Move : Moment → Moment → Prop where
  | reuse {p : Place} {asks : List Place} {answers : List FieldInput} {begun : List Begun}
      {s : Resolution} {value : FieldInput} (settled : s.settled.get? p = some value) :
      Move ⟨p :: asks, answers, begun, s⟩ ⟨asks, answers ++ [value], begun, s⟩
  | meet {p : Place} {asks : List Place} {answers : List FieldInput} {begun : List Begun}
      {s : Resolution} (fresh : s.settled.get? p = none) (waits : p ∈ begun.map (·.place)) :
      Move ⟨p :: asks, answers, begun, s⟩
        ⟨asks, answers ++ [.broken .cycle .blank], begun, (s.meet (begun.map (·.place)) p).2⟩
  | enter {p : Place} {asks : List Place} {answers : List FieldInput} {begun : List Begun}
      {s : Resolution} (fresh : s.settled.get? p = none) (off : p ∉ begun.map (·.place)) :
      Move ⟨p :: asks, answers, begun, s⟩ ⟨w.asks p, [], ⟨p, asks, answers⟩ :: begun, s⟩
  | leave {p : Place} {asks : List Place} {answers before : List FieldInput}
      {begun : List Begun} {s s' : Resolution} {value : FieldInput}
      (concluded : w.conclude book p answers s = .ok (value, s')) :
      Move ⟨[], answers, ⟨p, asks, before⟩ :: begun, s⟩ ⟨asks, before ++ [value], begun, s'⟩

abbrev Runs : Moment → Moment → Prop := ReflTransGen (Move w book)

/-- The body at work ends in a crash. -/
inductive Crashes (crash : Formula.Crash) : Moment → Prop where
  | leave {p : Place} {asks : List Place} {answers before : List FieldInput}
      {begun : List Begun} {s : Resolution}
      (concluded : w.conclude book p answers s = .error crash) :
      Crashes crash ⟨[], answers, ⟨p, asks, before⟩ :: begun, s⟩

end

/-- In this moment the body of a place begins: the place is asked for and is neither known nor
waiting. -/
structure Begins (m : Moment) (p : Place) : Prop where
  asked : m.asks.head? = some p
  fresh : m.known.settled.get? p = none
  off : p ∉ m.walk

/-! ## Moves -/

variable {w : Workspace} {book : Pricebook} {m n o : Moment}

theorem settles_settleLinked (s : Resolution) (p link : Place) (own : FieldValue)
    (value : FieldInput) : Resolution.Settles s p (s.settleLinked p link own value).1
      (s.settleLinked p link own value).2 := by
  unfold Resolution.settleLinked
  split
  · exact settles_settle ..
  · exact settles_settleBroken ..

theorem settles_settleOutput (s : Resolution) (p : Place) (value : Option Float) :
    Resolution.Settles s p (s.settleOutput p value).1 (s.settleOutput p value).2 := by
  cases value with
  | none => exact settles_settle ..
  | some x => exact settles_settle ..

/-- A body ends by settling its place. -/
theorem settles_conclude {p : Place} {answers : List FieldInput} {s s' : Resolution}
    {value : FieldInput} (concluded : w.conclude book p answers s = .ok (value, s')) :
    Resolution.Settles s p value s' := by
  unfold Workspace.conclude at concluded
  split at concluded
  · cases concluded
    exact settles_settle ..
  · cases concluded
    exact settles_settleBroken ..
  · cases concluded
    exact settles_settle ..
  · obtain ⟨rfl, rfl⟩ := Prod.ext_iff.mp (Except.ok.inj concluded)
    exact settles_settleLinked ..
  · obtain ⟨results, -, concluded⟩ := map_eq_ok_iff.mp concluded
    obtain ⟨rfl, rfl⟩ := Prod.ext_iff.mp concluded
    exact settles_settleOutput ..

/-- A moment has at most one next one. -/
theorem move_unique (first : Move w book m n) (second : Move w book m o) : n = o := by
  cases first <;> cases second <;> simp_all

/-- A run that has ended has passed through every moment that is reached at all. -/
theorem runs_of_ended (run : Runs w book m o) (ended : ∀ next, ¬Move w book o next)
    (reached : Runs w book m n) : Runs w book n o := by
  have unique : Relator.RightUnique (Move w book) := fun _ _ _ => move_unique
  obtain rest | beyond := ReflTransGen.total_of_right_unique unique reached run
  · exact rest
  · obtain rfl | ⟨next, move, -⟩ := beyond.cases_head
    · exact .refl
    · exact absurd move (ended next)

/-! ## Termination -/

/-- The places whose bodies have begun, those that have ended among them. -/
def taken (m : Moment) : List Place := m.walk ++ m.known.settled.keys

theorem not_mem_taken {p : Place} : p ∉ m.taken ↔ p ∉ m.walk ∧ m.known.settled.get? p = none := by
  rw [taken, List.mem_append, not_or, ← Table.contains_iff, Table.contains]
  simp

/-- What is taken stays so. -/
theorem taken_of_move (move : Move w book m n) : m.taken ⊆ n.taken := by
  intro p member
  cases move with
  | reuse | meet => exact member
  | enter => exact List.mem_cons_of_mem _ member
  | @leave q asks answers before begun s s' value concluded =>
    by_contra untaken
    obtain ⟨off, fresh⟩ := not_mem_taken.mp untaken
    have settles := settles_conclude concluded
    -- the place that has left the walk has settled
    have other : q ≠ p := by
      rintro rfl
      rw [settles.get?_self] at fresh
      cases fresh
    rw [settles.get?_other other] at fresh
    refine not_mem_taken.mpr ⟨?_, fresh⟩ member
    simpa [walk, other.symm] using off

/-- What is still to be asked for, and to be ended. -/
def work (m : Moment) : Nat :=
  2 * (m.asks ++ m.begun.flatMap (·.asks)).length + m.begun.length

theorem length_remaining_le {items visited visited' : List Place} (more : visited ⊆ visited') :
    (remaining items visited').length ≤ (remaining items visited).length := by
  simp only [remaining, ← List.countP_eq_length_filter]
  refine List.countP_mono_left fun p _ fresh => ?_
  simp only [Bool.not_eq_true', List.contains_eq_mem, decide_eq_false_iff_not] at fresh ⊢
  exact fun known => fresh (more known)

/-- A place that asks for others is one of those that may wait. -/
theorem mem_waitingPlaces_of_asks {p : Place} (asks : w.asks p ≠ []) : p ∈ w.waitingPlaces := by
  apply Workspace.mem_waitingPlaces
  unfold Workspace.asks at asks
  cases source : w.source p <;> simp_all [Source.isImmediate]

/-- Fewer places are left that may wait, or as many and there is less to be done. -/
theorem fewer_of_move (move : Move w book m n) :
    Prod.Lex (· < ·) (· < ·) ((remaining w.waitingPlaces n.taken).length, n.work)
      ((remaining w.waitingPlaces m.taken).length, m.work) := by
  have fewer : (remaining w.waitingPlaces n.taken).length ≤
      (remaining w.waitingPlaces m.taken).length := length_remaining_le (taken_of_move move)
  cases move with
  | reuse => exact .right' _ fewer (by simp [work])
  | meet => exact .right' _ fewer (by simp [work])
  | leave => exact .right' _ fewer (by simp [work])
  | @enter p asks answers begun s fresh off =>
    by_cases asks : w.asks p = []
    · exact .right' _ fewer (by simp [work, asks]; omega)
    · refine .left _ _ (length_remaining_lt (mem_waitingPlaces_of_asks asks)
        (not_mem_taken.mpr ⟨off, fresh⟩) fun q => ?_)
      simp [taken, walk]

/-- No resolution goes on for ever, whatever the links and whatever is known. -/
theorem wellFounded_move (w : Workspace) (book : Pricebook) :
    WellFounded fun later earlier : Moment => Move w book earlier later :=
  Subrelation.wf fewer_of_move
    (InvImage.wf (fun m : Moment => ((remaining w.waitingPlaces m.taken).length, m.work))
      (Prod.lex Nat.lt_wfRel Nat.lt_wfRel).wf)

/-! ## What every moment keeps to -/

/-- The places on the walk are distinct, have not settled and are places of the workspace, as are
all that are asked for. -/
structure Orderly (w : Workspace) (m : Moment) : Prop where
  simple : m.walk.Nodup
  apart : ∀ p ∈ m.walk, m.known.settled.get? p = none
  inside : m.walk ⊆ w.places
  asks : m.asks ⊆ w.places
  waiting : ∀ b ∈ m.begun, b.asks ⊆ w.places

/-- A name that the module of an instance declares is that of a place. -/
theorem mem_places_of_target {id name : String} {i : Instance} {m : Module} {t : LinkTarget}
    (placed : w.instanceTable.get? id = some i) (used : w.moduleTable.get? i.moduleId = some m)
    (declared : m.Targets name t) : ⟨id, name⟩ ∈ w.places := by
  obtain ⟨-, rfl⟩ := Table.mem_of_get?_indexBy placed
  refine List.mem_dedup.mpr (List.mem_flatMap.mpr
    ⟨i, List.mem_map_of_mem (Entries.mem_of_get? placed), List.mem_map_of_mem ?_⟩)
  rw [List.mem_append, Workspace.mem_fieldNames, used]
  cases declared with
  | @field f member =>
    exact .inl ⟨.inr (.inr ⟨m, rfl, f, member, rfl⟩), hasOutputPrefix_of_plain f.name.plain⟩
  | @output o member => exact .inr (List.mem_map_of_mem member)

/-- A link that is followed leads to a declared field or output. -/
theorem mem_places_of_linkSource {link target : Place} {own fallback : FieldValue}
    (linked : w.linkSource link own = .linked target fallback) : target ∈ w.places := by
  unfold Workspace.linkSource at linked
  split at linked
  · cases linked
  · next i placed =>
    split at linked
    · cases linked
    · next t found =>
      cases linked
      obtain ⟨m, used, declared⟩ := Option.bind_eq_some_iff.mp found
      exact mem_places_of_target placed used (Module.target?_eq_some_iff.mp declared)

theorem not_computed_of_field (i j : Instance) (name : String) (m : Module) (o : Output) :
    w.fieldSource i name ≠ .computed j m o := by
  unfold Workspace.fieldSource Workspace.linkSource
  dsimp only
  split
  · nofun
  · split
    · nofun
    · split <;> nofun

theorem exists_linkSource {p target : Place} {fallback : FieldValue}
    (linked : w.source p = .linked target fallback) :
    ∃ link own, w.linkSource link own = .linked target fallback := by
  unfold Workspace.source at linked
  split at linked
  · cases linked
  · split at linked
    · unfold Workspace.outputSource at linked
      split at linked
      · cases linked
      · split at linked <;> cases linked
    · unfold Workspace.fieldSource at linked
      dsimp only at linked
      split at linked
      · cases linked
      · exact ⟨_, _, linked⟩

theorem output_of_computed {p : Place} {i : Instance} {m : Module} {o : Output}
    (computed : w.source p = .computed i m o) :
    w.instanceTable.get? p.instanceId = some i ∧ w.moduleTable.get? i.moduleId = some m ∧
      o ∈ m.outputs := by
  unfold Workspace.source at computed
  split at computed
  · cases computed
  · next j placed =>
    split at computed
    · unfold Workspace.outputSource at computed
      split at computed
      · cases computed
      · next used =>
        split at computed
        · cases computed
        · next named =>
          cases computed
          exact ⟨placed, used, List.mem_of_find?_eq_some named⟩
    · exact (not_computed_of_field j i p.name m o computed).elim

/-- A place asks for declared fields and outputs only. -/
theorem asks_subset_places (p : Place) : w.asks p ⊆ w.places := by
  intro q member
  unfold Workspace.asks at member
  split at member
  · next link own linked =>
    obtain rfl := List.mem_singleton.mp member
    obtain ⟨_, _, followed⟩ := exists_linkSource linked
    exact mem_places_of_linkSource followed
  · next i m o computed =>
    obtain ⟨field, needed, rfl⟩ := List.mem_map.mp member
    obtain ⟨placed, used, declared⟩ := output_of_computed computed
    obtain ⟨f, declared, rfl⟩ := Module.exists_field_of_dependency declared needed
    exact mem_places_of_target placed used (.field declared)
  · cases member

theorem Orderly.start : Orderly w (start w) := by
  refine ⟨.nil, nofun, nofun, fun p member => ?_, nofun⟩
  obtain ⟨i, shown, member⟩ := List.mem_flatMap.mp member
  refine List.mem_dedup.mpr (List.mem_flatMap.mpr ⟨i, shown, ?_⟩)
  rw [List.map_append]
  exact List.mem_append_left _ member

theorem Orderly.move (orderly : Orderly w m) (move : Move w book m n) : Orderly w n := by
  obtain ⟨simple, apart, inside, asks, waiting⟩ := orderly
  cases move with
  | reuse | meet =>
    exact ⟨simple, apart, inside, (List.cons_subset.mp asks).2, waiting⟩
  | @enter p _ _ _ _ fresh off =>
    exact ⟨List.nodup_cons.mpr ⟨off, simple⟩, List.forall_mem_cons.mpr ⟨fresh, apart⟩,
      List.cons_subset.mpr ⟨asks (.head _), inside⟩, asks_subset_places p,
      List.forall_mem_cons.mpr ⟨(List.cons_subset.mp asks).2, waiting⟩⟩
  | @leave p _ _ _ _ _ _ _ concluded =>
    obtain ⟨off, simple⟩ := List.nodup_cons.mp simple
    obtain ⟨own, waiting⟩ := List.forall_mem_cons.mp waiting
    refine ⟨simple, fun q member => ?_, (List.cons_subset.mp inside).2, own, waiting⟩
    -- the place that settles is not among those that still wait
    have other : p ≠ q := fun same => off (same ▸ member)
    rw [(settles_conclude concluded).get?_other other]
    exact apart q (.tail _ member)

theorem Orderly.runs (orderly : Orderly w m) (run : Runs w book m n) : Orderly w n := by
  induction run with
  | refl => exact orderly
  | tail _ move ih => exact ih.move move

theorem Orderly.length_walk_le (orderly : Orderly w m) : m.walk.length ≤ w.places.length :=
  (List.subperm_of_subset orderly.simple orderly.inside).length_le

/-- What has settled keeps its value. -/
theorem settled_of_move (orderly : Orderly w m) (move : Move w book m n) {p : Place}
    {value : FieldInput} (settled : m.known.settled.get? p = some value) :
    n.known.settled.get? p = some value := by
  cases move with
  | reuse | meet | enter => exact settled
  | @leave q _ _ _ _ _ _ _ concluded =>
    have fresh := orderly.apart q (.head _)
    exact ((settles_conclude concluded).grows fresh).settled settled

theorem settled_of_runs (orderly : Orderly w m) (run : Runs w book m n) {p : Place}
    {value : FieldInput} (settled : m.known.settled.get? p = some value) :
    n.known.settled.get? p = some value := by
  induction run with
  | refl => exact settled
  | tail run move ih => exact settled_of_move (orderly.runs run) move ih

/-! ## Bodies begin once -/

variable (w book) in
/-- Where a body begins, it is entered. -/
theorem Begins.exists_move {p : Place} (begins : m.Begins p) :
    ∃ n, Move w book m n ∧ n.asks = w.asks p ∧ n.walk = p :: m.walk ∧ n.known = m.known := by
  obtain ⟨_ | ⟨q, asks⟩, answers, begun, s⟩ := m
  · cases begins.asked
  · cases begins.asked
    exact ⟨_, .enter begins.fresh begins.off, rfl, rfl, rfl⟩

theorem Begins.taken {p : Place} (begins : m.Begins p) (move : Move w book m n) :
    p ∈ n.taken := by
  obtain ⟨next, enter, -, walk, -⟩ := begins.exists_move w book
  rw [move_unique move enter, Moment.taken, walk]
  exact .head _

theorem not_begins_of_taken {p : Place} (taken : p ∈ m.taken) : ¬m.Begins p :=
  fun begins => not_mem_taken.mpr ⟨begins.off, begins.fresh⟩ taken

theorem taken_of_runs {p : Place} (taken : p ∈ m.taken) (run : Runs w book m n) : p ∈ n.taken := by
  induction run with
  | refl => exact taken
  | tail _ move ih => exact taken_of_move move ih

/-- A body that has begun does not begin again. -/
theorem not_begins_again {p : Place} (begins : m.Begins p)
    (later : TransGen (Move w book) m n) : ¬n.Begins p := by
  obtain ⟨next, move, run⟩ := TransGen.head'_iff.mp later
  exact not_begins_of_taken (taken_of_runs (begins.taken move) run)

/-! ## The moves are those of the resolution -/

variable (w book) in
/-- From the moment in which a place is asked for, a resolution comes to a result: it goes on with
the answer, or ends in a crash. -/
inductive Comes (p : Place) (asks : List Place) (answers : List FieldInput) (begun : List Begun)
    (s : Resolution) : Except Formula.Crash (FieldInput × Resolution) → Prop where
  | answer {value : FieldInput} {s' : Resolution}
      (run : Runs w book ⟨p :: asks, answers, begun, s⟩ ⟨asks, answers ++ [value], begun, s'⟩) :
      Comes p asks answers begun s (.ok (value, s'))
  | crash {crash : Formula.Crash} {m : Moment}
      (run : Runs w book ⟨p :: asks, answers, begun, s⟩ m) (crashes : Crashes w book crash m) :
      Comes p asks answers begun s (.error crash)

variable (w book) in
/-- The same for names that are asked for one after the other, whose values go to a table. -/
inductive ComesAll (place : String → Place) (names : List String) (values : Table String FieldInput)
    (asks : List Place) (answers : List FieldInput) (begun : List Begun) (s : Resolution) :
    Except Formula.Crash (Table String FieldInput × Resolution) → Prop where
  | answers {found : List FieldInput} {s' : Resolution}
      (run : Runs w book ⟨names.map place ++ asks, answers, begun, s⟩
        ⟨asks, answers ++ found, begun, s'⟩) :
      ComesAll place names values asks answers begun s
        (.ok (values.insertAll (names.zip found), s'))
  | crash {crash : Formula.Crash} {m : Moment}
      (run : Runs w book ⟨names.map place ++ asks, answers, begun, s⟩ m)
      (crashes : Crashes w book crash m) :
      ComesAll place names values asks answers begun s (.error crash)

section
variable {p : Place} {asks : List Place} {answers : List FieldInput} {begun : List Begun}
  {s : Resolution}

theorem runs_enter (fresh : s.settled.get? p = none) (off : p ∉ begun.map (·.place))
    {inner : List Place} (own : w.asks p = inner) :
    Runs w book ⟨p :: asks, answers, begun, s⟩ ⟨inner, [], ⟨p, asks, answers⟩ :: begun, s⟩ :=
  .single (own ▸ .enter fresh off)

/-- A body whose questions are answered comes to its end. -/
theorem comes_of_answered {found : List FieldInput} {s' : Resolution}
    {result : Except Formula.Crash (FieldInput × Resolution)}
    (run : Runs w book ⟨p :: asks, answers, begun, s⟩
      ⟨[], found, ⟨p, asks, answers⟩ :: begun, s'⟩)
    (concluded : w.conclude book p found s' = result) :
    Comes w book p asks answers begun s result := by
  cases result with
  | ok result => exact .answer (run.tail (.leave concluded))
  | error crash => exact .crash run (.leave concluded)

theorem comes_of_gather {place : String → Place} {names : List String}
    {resolve : String → Resolution → Except Formula.Crash (FieldInput × Resolution)}
    (each : ∀ name ∈ names, ∀ s asks answers,
      Comes w book (place name) asks answers begun s (resolve name s))
    (values : Table String FieldInput) (s : Resolution) (asks : List Place)
    (answers : List FieldInput) :
    ComesAll w book place names values asks answers begun s (gather resolve names values s) := by
  induction names generalizing values s answers with
  | nil =>
    have run : Runs w book ⟨asks, answers, begun, s⟩ ⟨asks, answers ++ [], begun, s⟩ := by
      rw [List.append_nil]
    exact .answers run
  | cons name names ih =>
    obtain ⟨first, others⟩ := List.forall_mem_cons.mp each
    have comes := first s (names.map place ++ asks) answers
    rw [gather]
    generalize resolve name s = result at comes ⊢
    cases comes with
    | crash run crashes => exact .crash run crashes
    | @answer value s' run =>
      have rest := ih others (values.insert name value) s' (answers ++ [value])
      show ComesAll _ _ _ _ _ _ _ _ _ (gather resolve names (values.insert name value) s')
      generalize gather resolve names (values.insert name value) s' = result at rest ⊢
      cases rest with
      | crash further crashes => exact .crash (run.trans further) crashes
      | @answers found s'' further =>
        rw [List.append_assoc, List.singleton_append] at further
        have whole : Runs w book ⟨(name :: names).map place ++ asks, answers, begun, s⟩
            ⟨asks, answers ++ value :: found, begun, s''⟩ := run.trans further
        exact .answers whole

theorem comes_of_resolve (w : Workspace) (book : Pricebook) (walk : List Place) (p : Place)
    (s : Resolution) : ∀ asks answers begun, begun.map Begun.place = walk →
      Comes w book p asks answers begun s (w.resolve book walk p s) := by
  -- the walk of the recursion is that of the moment, whatever the bodies on it wait for
  fun_induction Workspace.resolve w book walk p s with
  | case1 walk p s known settled =>
    rintro asks answers begun rfl
    exact .answer (.single (.reuse settled))
  | case2 walk p s unsettled waiting =>
    rintro asks answers begun rfl
    exact .answer (.single (.meet unsettled waiting))
  | case3 walk p s unsettled fresh own found =>
    rintro asks answers begun rfl
    exact comes_of_answered (runs_enter unsettled fresh (by rw [Workspace.asks, found]))
      (by rw [Workspace.conclude, found])
  | case4 walk p s unsettled fresh reason link own found =>
    rintro asks answers begun rfl
    exact comes_of_answered (runs_enter unsettled fresh (by rw [Workspace.asks, found]))
      (by rw [Workspace.conclude, found])
  | case5 walk p s unsettled fresh found =>
    rintro asks answers begun rfl
    exact comes_of_answered (runs_enter unsettled fresh (by rw [Workspace.asks, found]))
      (by rw [Workspace.conclude, found])
  | case6 walk p s unsettled fresh link own found ih =>
    rintro asks answers begun rfl
    have enter : Runs w book ⟨p :: asks, answers, begun, s⟩
        ⟨[link], [], ⟨p, asks, answers⟩ :: begun, s⟩ :=
      runs_enter unsettled fresh (by rw [Workspace.asks, found])
    have inner := ih [] [] (⟨p, asks, answers⟩ :: begun) rfl
    generalize w.resolve book (p :: begun.map Begun.place) link s = result at inner ⊢
    cases inner with
    | crash run crashes => exact .crash (enter.trans run) crashes
    | answer run =>
      exact comes_of_answered (enter.trans run) (by rw [Workspace.conclude, found]; rfl)
  | case7 walk p s unsettled fresh i m o found ih =>
    rintro asks answers begun rfl
    let names := m.dependencies o.name.text
    have enter : Runs w book ⟨p :: asks, answers, begun, s⟩
        ⟨names.map (Place.mk p.instanceId) ++ [], [], ⟨p, asks, answers⟩ :: begun, s⟩ :=
      runs_enter unsettled fresh (by rw [Workspace.asks, found, List.append_nil])
    have inner : ComesAll w book (Place.mk p.instanceId) names i.storedInputs [] []
        (⟨p, asks, answers⟩ :: begun) s
        (gather (fun field s => w.resolve book (p :: begun.map Begun.place)
          ⟨p.instanceId, field⟩ s) names i.storedInputs s) :=
      comes_of_gather (fun field _ s inner drawn =>
        ih field s inner drawn (⟨p, asks, answers⟩ :: begun) rfl) i.storedInputs s [] []
    show Comes w book p asks answers begun s (gather _ names i.storedInputs s >>= _)
    generalize gather (fun field s => w.resolve book (p :: begun.map Begun.place)
      ⟨p.instanceId, field⟩ s) names i.storedInputs s = result at inner ⊢
    cases inner with
    | crash run crashes => exact .crash (enter.trans run) crashes
    | @answers drawn s' run =>
      refine comes_of_answered (enter.trans run) ?_
      rw [Workspace.conclude, found]
      show (m.computeOutputs book (i.storedInputs.insertAll (names.zip drawn))).map _ =
        m.computeOutputs book (i.storedInputs.insertAll (names.zip drawn)) >>= _
      cases m.computeOutputs book (i.storedInputs.insertAll (names.zip drawn)) <;> rfl

end

variable (w book) in
/-- How a resolution ends that is asked for places only: there is nothing left to be done, or it
crashes. -/
inductive Ends (m : Moment) : Except Formula.Crash Resolution → Moment → Prop where
  | done {answers : List FieldInput} {s : Resolution} (run : Runs w book m ⟨[], answers, [], s⟩) :
      Ends m (.ok s) ⟨[], answers, [], s⟩
  | crash {crash : Formula.Crash} {last : Moment} (run : Runs w book m last)
      (crashes : Crashes w book crash last) : Ends m (.error crash) last

theorem Ends.after {result : Except Formula.Crash Resolution} {last : Moment}
    (run : Runs w book m n) (ends : Ends w book n result last) : Ends w book m result last := by
  cases ends with
  | done further => exact .done (run.trans further)
  | crash further crashes => exact .crash (run.trans further) crashes

theorem exists_ends {instances : List Instance} (values : Workspace.FieldInputs)
    (answers : List FieldInput) (s : Resolution) :
    ∃ last, Ends w book ⟨fieldsOf w instances, answers, [], s⟩
      ((w.resolveInstances book instances values s).map (·.2)) last := by
  induction instances generalizing values answers s with
  | nil => exact ⟨_, .done .refl⟩
  | cons i instances ih =>
    have fields : ComesAll w book (Place.mk i.id) (w.fieldNames i) .empty (fieldsOf w instances)
        answers [] s (gather (fun field s => w.resolve book [] ⟨i.id, field⟩ s) (w.fieldNames i)
          .empty s) :=
      comes_of_gather (fun field _ s asks answers =>
        comes_of_resolve w book [] ⟨i.id, field⟩ s asks answers [] rfl) .empty s _ _
    rw [Workspace.resolveInstances]
    generalize gather (fun field s => w.resolve book [] ⟨i.id, field⟩ s) (w.fieldNames i)
      .empty s = result at fields ⊢
    cases fields with
    | crash run crashes => exact ⟨_, .crash run crashes⟩
    | @answers found s' run =>
      obtain ⟨last, ends⟩ := ih (values.insert i.id _) (answers ++ found) s'
      exact ⟨last, ends.after run⟩

theorem distinct_instanceTable (w : Workspace) :
    (w.instanceTable.values.map (·.id)).Nodup := by
  have ids : w.instanceTable.values.map (·.id) = w.instanceTable.keys := by
    rw [Table.values, Table.keys, List.map_map]
    refine List.map_congr_left fun e member => ?_
    exact (Table.mem_of_get?_indexBy (Table.get?_of_mem member)).2
  rw [ids]
  exact w.instanceTable.distinct

/-- A resolution shows values that have settled. -/
theorem settled_of_value? {r : Workspace.Resolved} {s : Resolution}
    (run : w.resolveInstances book w.instanceTable.values .empty .start = .ok (r.values, s))
    {p : Place} {value : FieldInput} (shown : r.value? p = some value) :
    s.settled.get? p = some value := by
  obtain ⟨-, -, kept, absent⟩ :=
    settled_of_resolveInstances (distinct_instanceTable w) .start run
  obtain ⟨fields, found, here⟩ := Option.bind_eq_some_iff.mp shown
  by_cases present : p.instanceId ∈ w.instanceTable.values.map (·.id)
  · obtain ⟨i, member, same⟩ := List.mem_map.mp present
    obtain ⟨_, found', settled, outside⟩ := kept i member
    rw [same, found] at found'
    cases found'
    by_cases named : p.name ∈ w.fieldNames i
    · obtain ⟨value', here', settled⟩ := settled p.name named
      cases here.symm.trans here'
      rwa [same] at settled
    · rw [outside p.name named] at here
      cases here
  · rw [absent p.instanceId present] at found
    cases found

/-- Nothing follows on the end. -/
theorem not_move_of_ends {result : Except Formula.Crash Resolution} {last : Moment}
    (ends : Ends w book m result last) (next : Moment) : ¬Move w book last next := by
  intro move
  cases ends with
  | done => cases move
  | crash _ crashes =>
    cases crashes with
    | leave concluded =>
      cases move with
      | leave other =>
        rw [concluded] at other
        cases other

theorem runs_of_ends {result : Except Formula.Crash Resolution} {last : Moment}
    (ends : Ends w book m result last) : Runs w book m last := by
  cases ends with
  | done run => exact run
  | crash run _ => exact run

end Moment

open Moment

/-- The moves of a resolution cannot go on for ever, whatever the links and outputs of the
workspace.  From the start they come to the end that `Workspace.resolveAll` reports, where the
values and the broken links that it shows are known, and every moment that is reached lies on the
way there.  In each of them the places that wait for one another are distinct, none of them has
settled, and there are at most as many of them as there are fields and outputs of instances; what
has settled keeps its value; and no body begins a second time. -/
theorem resolution_visits_places_once (w : Workspace) (book : Pricebook) :
    (WellFounded fun later earlier : Moment => Move w book earlier later) ∧ w.places.Nodup ∧
    ∃ last, (match w.resolveAll book with
        | .ok r => last.asks = [] ∧ last.begun = [] ∧ r.broken = last.known.broken ∧
            ∀ p value, r.value? p = some value → last.known.settled.get? p = some value
        | .error crash => Crashes w book crash last) ∧
      ∀ m, Runs w book (start w) m →
        Runs w book m last ∧ m.walk.Nodup ∧ (∀ p ∈ m.walk, m.known.settled.get? p = none) ∧
        m.walk.length ≤ w.places.length ∧
        (∀ n, Runs w book m n → ∀ p value, m.known.settled.get? p = some value →
          n.known.settled.get? p = some value) ∧
        ∀ n, TransGen (Move w book) m n → ∀ p, m.Begins p → ¬n.Begins p := by
  obtain ⟨last, ends⟩ : ∃ last, Ends w book (start w)
      ((w.resolveInstances book w.instanceTable.values .empty .start).map (·.2)) last :=
    exists_ends .empty [] .start
  refine ⟨wellFounded_move w book, List.nodup_dedup _, last, ?_, fun m run => ?_⟩
  · rw [Workspace.resolveAll]
    cases resolved : w.resolveInstances book w.instanceTable.values .empty .start with
    | error crash =>
      rw [resolved] at ends
      cases ends with
      | crash _ crashes => exact crashes
    | ok result =>
      rw [resolved] at ends
      cases ends with
      | done => exact ⟨rfl, rfl, rfl, fun _ _ => settled_of_value? resolved⟩
  · have orderly := Orderly.start.runs run
    exact ⟨runs_of_ended (runs_of_ends ends) (not_move_of_ends ends) run, orderly.simple,
      orderly.apart, orderly.length_walk_le,
      fun n further p value => settled_of_runs orderly further,
      fun n later p begins => not_begins_again begins later⟩

/-- Two cycles through one output.  When the first of them is about to be met, the link from
outside, the output and a field wait for one another, and the body of the link does not begin
again. -/
theorem resolution_visits_places_once_woven :
    ∃ m, Runs Workspace.woven (.ofLists [] [] []) (start Workspace.woven) m ∧
      m.walk = [⟨"a", "u"⟩, ⟨"a", "out.both"⟩, ⟨"z", "u"⟩] ∧ m.walk.Nodup ∧
      m.walk.length ≤ Workspace.woven.places.length ∧
      ∀ n, TransGen (Move Workspace.woven (.ofLists [] [] [])) (start Workspace.woven) n →
        ¬n.Begins ⟨"z", "u"⟩ := by
  let book : Pricebook := .ofLists [] [] []
  have fromStart : (start Workspace.woven).Begins ⟨"z", "u"⟩ := ⟨by decide +kernel, rfl, nofun⟩
  obtain ⟨m₁, enter₁, asks₁, walk₁, known₁⟩ := fromStart.exists_move Workspace.woven book
  have linked : Workspace.woven.asks ⟨"z", "u"⟩ = [⟨"a", "out.both"⟩] := rfl
  have output : m₁.Begins ⟨"a", "out.both"⟩ :=
    ⟨by rw [asks₁, linked]; rfl, by rw [known₁]; rfl, by rw [walk₁]; decide +kernel⟩
  obtain ⟨m₂, enter₂, asks₂, walk₂, known₂⟩ := output.exists_move Workspace.woven book
  have reads : Workspace.woven.asks ⟨"a", "out.both"⟩ = [⟨"a", "u"⟩, ⟨"a", "v"⟩] := by
    obtain ⟨i, computed⟩ := Workspace.source_woven_both
    simp only [Workspace.asks, computed, Workspace.dependencies_doubleModule, List.map_cons,
      List.map_nil]
  have field : m₂.Begins ⟨"a", "u"⟩ :=
    ⟨by rw [asks₂, reads]; rfl, by rw [known₂, known₁]; rfl, by rw [walk₂, walk₁]; decide +kernel⟩
  obtain ⟨m₃, enter₃, asks₃, walk₃, known₃⟩ := field.exists_move Workspace.woven book
  obtain ⟨-, -, last, -, moments⟩ := resolution_visits_places_once Workspace.woven book
  have run : Runs Workspace.woven book (start Workspace.woven) m₃ :=
    .tail (.tail (.single enter₁) enter₂) enter₃
  obtain ⟨-, simple, -, short, -, -⟩ := moments m₃ run
  obtain ⟨-, -, -, -, -, once⟩ := moments _ .refl
  refine ⟨m₃, run, ?_, simple, short, fun n later => once n later _ fromStart⟩
  rw [walk₃, walk₂, walk₁]
  rfl

end Costing
