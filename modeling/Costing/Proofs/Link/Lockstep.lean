import Costing.Proofs.Link.Coherence
import Costing.Proofs.Link.Source

/-! # Two searches in lock step

Let two workspaces have sources of the same kind everywhere, and the same sources in some instances
that no link leads out of (`Parallel`).  Then a search of the one and a search of the other visit
the same places in the same order, find the same places on cycles, and find the same values and
broken links inside those instances (`Lockstep`).

Instances outside may link into them and be visited first, in the middle of a cycle even; what is
carried through the two runs is therefore a relation of everything that both have found out, and
not of the values alone. -/

namespace Costing

open Resolution (Settles)

/-! ## What is compared -/

/-- Two sources of one kind, which are the same if they have to be. -/
inductive Alongside (same : Prop) : Source → Source → Prop where
  | stored {own own' : FieldValue} (agree : same → own' = own) :
      Alongside same (.stored own) (.stored own')
  | severed {reason : BrokenReason} {link : Place} {own own' : FieldValue}
      (agree : same → own' = own) :
      Alongside same (.severed reason link own) (.severed reason link own')
  | linked {link : Place} {own own' : FieldValue} (agree : same → own' = own) :
      Alongside same (.linked link own) (.linked link own')
  | computed {i i' : Instance} {m : Module} {o : Output} (agree : same → i' = i) :
      Alongside same (.computed i m o) (.computed i' m o)
  | nowhere : Alongside same .nowhere .nowhere

/-- Two workspaces with the same sources inside some instances, which links do not leave. -/
structure Parallel (inside : String → Prop) (w w' : Workspace) : Prop where
  sources : ∀ p, Alongside (inside p.instanceId) (w.source p) (w'.source p)
  onward : ∀ {p link own}, inside p.instanceId → w.source p = .linked link own →
    inside link.instanceId

/-- What two searches have found out when they are in step. -/
structure Lockstep (inside : String → Prop) (s s' : Resolution) : Prop where
  keys : s'.settled.keys = s.settled.keys
  onCycle : s'.onCycle = s.onCycle
  settled : ∀ p, inside p.instanceId → s'.settled.get? p = s.settled.get? p
  broken : ∀ a, inside a → s'.broken.filter (·.place.instanceId = a) =
    s.broken.filter (·.place.instanceId = a)

/-- `t` is `s` with the value of one more place, and with what is noted about the place. -/
structure Closes (s : Resolution) (p : Place) (value : FieldInput) (noted : List BrokenLink)
    (t : Resolution) : Prop where
  settles : Settles s p value t
  broken : t.broken = s.broken ++ noted
  here : ∀ b ∈ noted, b.place = p

/-- The value of a linked field that is broken for a reason, or not at all. -/
def valueFor (own : FieldValue) (value : FieldInput) : Option BrokenReason → FieldInput
  | none => value
  | some reason => .broken reason own

def notesFor (p link : Place) : Option BrokenReason → List BrokenLink
  | none => []
  | some reason => [⟨p, link, reason⟩]

section
variable {inside : String → Prop} {s s' t t' : Resolution} {p link : Place}

theorem Alongside.weaken {same same' : Prop} {a b : Source} (alongside : Alongside same a b)
    (enough : same' → same) : Alongside same' a b := by
  cases alongside with
  | stored agree => exact .stored (agree ∘ enough)
  | severed agree => exact .severed (agree ∘ enough)
  | linked agree => exact .linked (agree ∘ enough)
  | computed agree => exact .computed (agree ∘ enough)
  | nowhere => exact .nowhere

theorem Lockstep.start : Lockstep inside .start .start := ⟨rfl, rfl, fun _ _ => rfl, fun _ _ => rfl⟩

theorem Lockstep.fresh (lock : Lockstep inside s s') (fresh : s.settled.get? p = none) :
    s'.settled.get? p = none := by
  rw [← Option.not_isSome_iff_eq_none, ← Table.contains, Table.contains_iff] at fresh ⊢
  rwa [lock.keys]

theorem Lockstep.known (lock : Lockstep inside s s') {value : FieldInput}
    (known : s.settled.get? p = some value) : ∃ value', s'.settled.get? p = some value' := by
  have present := Table.mem_keys_of_get? known
  rw [← lock.keys, ← Table.contains_iff, Table.contains, Option.isSome_iff_exists] at present
  exact present

theorem closes_settle (s : Resolution) (p : Place) (value : FieldInput) :
    Closes s p value [] (s.settle p value).2 :=
  ⟨settles_settle .., (List.append_nil _).symm, nofun⟩

theorem closes_settleBroken (s : Resolution) (p link : Place) (reason : BrokenReason)
    (own : FieldValue) : Closes s p (.broken reason own) [⟨p, link, reason⟩]
      (s.settleBroken p link reason own).2 :=
  ⟨settles_settleBroken .., rfl, fun _ member => List.mem_singleton.mp member ▸ rfl⟩

theorem closes_settleLinked (s : Resolution) (p link : Place) (own : FieldValue)
    (value : FieldInput) :
    (s.settleLinked p link own value).1 = valueFor own value (s.brokenReason? p link value) ∧
      Closes s p (valueFor own value (s.brokenReason? p link value))
        (notesFor p link (s.brokenReason? p link value)) (s.settleLinked p link own value).2 := by
  rw [Resolution.settleLinked]
  cases s.brokenReason? p link value with
  | none => exact ⟨rfl, closes_settle ..⟩
  | some reason => exact ⟨rfl, closes_settleBroken ..⟩

theorem closes_settleOutput (s : Resolution) (p : Place) (value : Option Float) :
    Closes s p (s.settleOutput p value).1 [] (s.settleOutput p value).2 := by
  cases value <;> exact closes_settle ..

/-- Two searches stay in step when both close a place, inside with the same value and notes. -/
theorem Lockstep.closes (lock : Lockstep inside s s') {value value' : FieldInput}
    {noted noted' : List BrokenLink} (closes : Closes s p value noted t)
    (closes' : Closes s' p value' noted' t')
    (agree : inside p.instanceId → value' = value ∧ noted' = noted) : Lockstep inside t t' where
  keys := by rw [closes.settles.settled, closes'.settles.settled, Table.keys_insert,
    Table.keys_insert, lock.keys]
  onCycle := by rw [closes.settles.onCycle, closes'.settles.onCycle, lock.onCycle]
  settled q here := by
    rw [closes.settles.settled, closes'.settles.settled, Table.get?_insert, Table.get?_insert,
      lock.settled q here]
    by_cases same : p = q
    · rw [if_pos same, if_pos same, (agree (same ▸ here)).1]
    · rw [if_neg same, if_neg same]
  broken a here := by
    rw [closes.broken, closes'.broken, List.filter_append, List.filter_append, lock.broken a here]
    by_cases same : p.instanceId = a
    · rw [(agree (same ▸ here)).2]
    · -- what is noted about a place of another instance is left out
      have others {notes : List BrokenLink} (at_p : ∀ b ∈ notes, b.place = p) :
          notes.filter (·.place.instanceId = a) = [] :=
        List.filter_eq_nil_iff.mpr fun b member => by simpa [at_p b member] using same
      rw [others closes.here, others closes'.here]

theorem Lockstep.meet (lock : Lockstep inside s s') (walk : List Place) (p : Place) :
    Lockstep inside (s.meet walk p).2 (s'.meet walk p).2 :=
  ⟨lock.keys, congrArg (p :: walk.takeWhile (· ≠ p) ++ ·) lock.onCycle, lock.settled, lock.broken⟩

theorem Lockstep.brokenReason? (lock : Lockstep inside s s') (value : FieldInput) :
    s'.brokenReason? p link value = s.brokenReason? p link value := by
  simp only [Resolution.brokenReason?, lock.onCycle]

theorem Lockstep.settle (lock : Lockstep inside s s') {value value' : FieldInput}
    (agree : inside p.instanceId → value' = value) :
    Lockstep inside (s.settle p value).2 (s'.settle p value').2 :=
  lock.closes (closes_settle ..) (closes_settle ..) fun here => ⟨agree here, rfl⟩

theorem Lockstep.settleBroken (lock : Lockstep inside s s') {reason : BrokenReason}
    {own own' : FieldValue} (agree : inside p.instanceId → own' = own) :
    Lockstep inside (s.settleBroken p link reason own).2 (s'.settleBroken p link reason own').2 :=
  lock.closes (closes_settleBroken ..) (closes_settleBroken ..)
    fun here => ⟨by rw [agree here], rfl⟩

/-- A linked field that has the same value of its own and draws the same value, inside, is settled
in step. -/
theorem Lockstep.settleLinked (lock : Lockstep inside s s') {own own' : FieldValue}
    {drawn drawn' : FieldInput} (agree : inside p.instanceId → own' = own)
    (same : inside p.instanceId → drawn' = drawn) :
    Lockstep inside (s.settleLinked p link own drawn).2 (s'.settleLinked p link own' drawn').2 ∧
      (inside p.instanceId →
        (s'.settleLinked p link own' drawn').1 = (s.settleLinked p link own drawn).1) := by
  obtain ⟨value, closes⟩ := closes_settleLinked s p link own drawn
  obtain ⟨value', closes'⟩ := closes_settleLinked s' p link own' drawn'
  rw [value, value']
  refine ⟨lock.closes closes closes' fun here => ?_, fun here => ?_⟩
  · rw [agree here, same here, lock.brokenReason?]
    exact ⟨rfl, rfl⟩
  · rw [agree here, same here, lock.brokenReason?]

/-- An output that has the same value, inside, is settled in step. -/
theorem Lockstep.settleOutput (lock : Lockstep inside s s') {value value' : Option Float}
    (same : inside p.instanceId → value' = value) :
    Lockstep inside (s.settleOutput p value).2 (s'.settleOutput p value').2 ∧
      (inside p.instanceId → (s'.settleOutput p value').1 = (s.settleOutput p value).1) := by
  have agree (here : inside p.instanceId) :
      (s'.settleOutput p value').1 = (s.settleOutput p value).1 := by
    rw [same here]
    cases value with
    | none => rfl
    | some x => simp [Resolution.settleOutput, Resolution.settle, lock.onCycle]
  exact ⟨lock.closes (closes_settleOutput ..) (closes_settleOutput ..)
    fun here => ⟨agree here, rfl⟩, agree⟩

end

/-! ## The steps of one search -/

namespace Workspace

section
variable (w : Workspace) (book : Pricebook) (walk : List Place) (p : Place) (s : Resolution)

/-- How a place is resolved that neither waits nor has settled. -/
def resolveSource : Source → Except Formula.Crash (FieldInput × Resolution)
  | .stored own => .ok (s.settle p (.given own))
  | .severed reason link own => .ok (s.settleBroken p link reason own)
  | .nowhere => .ok (s.settle p (.broken .missingTarget .blank))
  | .linked link own => do
    let (value, s) ← w.resolve book (p :: walk) link s
    pure (s.settleLinked p link own value)
  | .computed i m o => do
    let (inputs, s) ← gather (fun field s => w.resolve book (p :: walk) ⟨p.instanceId, field⟩ s)
      (m.dependencies o.name.text) i.storedInputs s
    let results ← m.computeOutputs book inputs
    pure (s.settleOutput p ((outputValues results).get? o.key))

end

variable {w : Workspace} {book : Pricebook} {walk : List Place} {p : Place} {s : Resolution}

theorem resolve_known {value : FieldInput} (known : s.settled.get? p = some value) :
    w.resolve book walk p s = .ok (value, s) := by
  rw [resolve, known]

theorem resolve_waiting (fresh : s.settled.get? p = none) (waiting : p ∈ walk) :
    w.resolve book walk p s = .ok (s.meet walk p) := by
  rw [resolve, fresh]
  exact dif_pos waiting

theorem resolve_fresh (fresh : s.settled.get? p = none) (off : p ∉ walk) :
    w.resolve book walk p s = w.resolveSource book walk p s (w.source p) := by
  rw [resolve, fresh]
  refine (dif_neg off).trans ?_
  split <;> next found => rw [found]; rfl

end Workspace

/-! ## Two searches -/

section
variable {inside : String → Prop} {w w' : Workspace} {book : Pricebook}

/-- Names that two searches resolve in step, one after the other. -/
theorem lockstep_of_gather (here : Prop) {names : List String}
    {resolve resolve' : String → Resolution → Except Formula.Crash (FieldInput × Resolution)}
    (each : ∀ name s s' value value' t t', Lockstep inside s s' →
      resolve name s = .ok (value, t) → resolve' name s' = .ok (value', t') →
        Lockstep inside t t' ∧ (here → value' = value))
    {values values' found found' : Table String FieldInput} {s s' t t' : Resolution}
    (lock : Lockstep inside s s') (same : here → values' = values)
    (run : gather resolve names values s = .ok (found, t))
    (run' : gather resolve' names values' s' = .ok (found', t')) :
    Lockstep inside t t' ∧ (here → found' = found) := by
  induction names generalizing values values' s s' with
  | nil =>
    cases run
    cases run'
    exact ⟨lock, same⟩
  | cons name names ih =>
    obtain ⟨⟨value, middle⟩, first, rest⟩ := bind_eq_ok_iff.mp run
    obtain ⟨⟨value', middle'⟩, first', rest'⟩ := bind_eq_ok_iff.mp run'
    obtain ⟨lock, agree⟩ := each name _ _ _ _ _ _ lock first first'
    exact ih lock (fun inHere => by rw [same inHere, agree inHere]) rest rest'

/-- A linked place is resolved in step, inside with the same value, if its target is. -/
theorem lockstep_of_linked {walk : List Place} {p link : Place} {own own' : FieldValue}
    {s s' t t' : Resolution} {value value' : FieldInput} (agree : inside p.instanceId → own' = own)
    (drawn : ∀ t t' value value', w.resolve book (p :: walk) link s = .ok (value, t) →
      w'.resolve book (p :: walk) link s' = .ok (value', t') →
        Lockstep inside t t' ∧ (inside p.instanceId → value' = value))
    (run : w.resolveSource book walk p s (.linked link own) = .ok (value, t))
    (run' : w'.resolveSource book walk p s' (.linked link own') = .ok (value', t')) :
    Lockstep inside t t' ∧ (inside p.instanceId → value' = value) := by
  obtain ⟨⟨source, middle⟩, ran, result⟩ := bind_eq_ok_iff.mp run
  obtain ⟨⟨source', middle'⟩, ran', result'⟩ := bind_eq_ok_iff.mp run'
  obtain ⟨rfl, rfl⟩ := Prod.ext_iff.mp (Except.ok.inj result)
  obtain ⟨rfl, rfl⟩ := Prod.ext_iff.mp (Except.ok.inj result')
  obtain ⟨lock, same⟩ := drawn _ _ _ _ ran ran'
  exact lock.settleLinked agree same

/-- An output is resolved in step, inside with the same value, if the fields of its own instance
are. -/
theorem lockstep_of_computed {walk : List Place} {p : Place} {i i' : Instance} {m : Module}
    {o : Output} {s s' t t' : Resolution} {value value' : FieldInput}
    (lock : Lockstep inside s s') (agree : inside p.instanceId → i' = i)
    (drawn : ∀ field s s' value value' t t', Lockstep inside s s' →
      w.resolve book (p :: walk) ⟨p.instanceId, field⟩ s = .ok (value, t) →
      w'.resolve book (p :: walk) ⟨p.instanceId, field⟩ s' = .ok (value', t') →
        Lockstep inside t t' ∧ (inside p.instanceId → value' = value))
    (run : w.resolveSource book walk p s (.computed i m o) = .ok (value, t))
    (run' : w'.resolveSource book walk p s' (.computed i' m o) = .ok (value', t')) :
    Lockstep inside t t' ∧ (inside p.instanceId → value' = value) := by
  obtain ⟨⟨inputs, middle⟩, gathered, rest⟩ := bind_eq_ok_iff.mp run
  obtain ⟨results, computed, result⟩ := bind_eq_ok_iff.mp rest
  obtain ⟨⟨inputs', middle'⟩, gathered', rest'⟩ := bind_eq_ok_iff.mp run'
  obtain ⟨results', computed', result'⟩ := bind_eq_ok_iff.mp rest'
  obtain ⟨rfl, rfl⟩ := Prod.ext_iff.mp (Except.ok.inj result)
  obtain ⟨rfl, rfl⟩ := Prod.ext_iff.mp (Except.ok.inj result')
  obtain ⟨lock, same⟩ := lockstep_of_gather (inside p.instanceId) drawn lock
    (fun here => by rw [agree here]) gathered gathered'
  -- the same inputs give the same results
  refine lock.settleOutput fun here => ?_
  rw [same here, computed] at computed'
  rw [← Except.ok.inj computed']

variable (parallel : Parallel inside w w')
include parallel

/-- A place that the first search finds fresh is resolved from its source by the second, too. -/
theorem Parallel.resolveSource_of_resolve {walk : List Place} {p : Place} {s s' : Resolution}
    {result : FieldInput × Resolution} (lock : Lockstep inside s s')
    (fresh : s.settled.get? p = none) (off : p ∉ walk) {source : Source}
    (found : w.source p = source) (run' : w'.resolve book walk p s' = .ok result) :
    ∃ source', Alongside (inside p.instanceId) source source' ∧
      w'.resolveSource book walk p s' source' = .ok result := by
  rw [Workspace.resolve_fresh (lock.fresh fresh) off] at run'
  exact ⟨_, found ▸ parallel.sources p, run'⟩

/-- Two searches of parallel workspaces stay in step, and inside they find the same value. -/
theorem lockstep_of_resolve {walk : List Place} {p : Place} {s s' t t' : Resolution}
    {value value' : FieldInput} (lock : Lockstep inside s s')
    (run : w.resolve book walk p s = .ok (value, t))
    (run' : w'.resolve book walk p s' = .ok (value', t')) :
    Lockstep inside t t' ∧ (inside p.instanceId → value' = value) := by
  fun_induction Workspace.resolve w book walk p s generalizing s' value value' t t' with
  | case1 walk p s known settled =>
    obtain ⟨known', settled'⟩ := lock.known settled
    rw [Workspace.resolve_known settled'] at run'
    -- both searches answer with what they know, which is the same inside
    cases run
    cases run'
    refine ⟨lock, fun here => ?_⟩
    have same := lock.settled p here
    rw [settled, settled'] at same
    exact Option.some.inj same
  | case2 walk p s unsettled waiting =>
    rw [Workspace.resolve_waiting (lock.fresh unsettled) waiting] at run'
    -- the place waits in both, so both mark the same part of the walk
    cases run
    cases run'
    exact ⟨lock.meet walk p, fun _ => rfl⟩
  | case3 walk p s unsettled off own found =>
    obtain ⟨_, alongside, run'⟩ := parallel.resolveSource_of_resolve lock unsettled off found run'
    cases alongside with
    | stored agree =>
      cases run
      cases run'
      have same (here : inside p.instanceId) := congrArg FieldInput.given (agree here)
      exact ⟨lock.settle same, same⟩
  | case4 walk p s unsettled off reason link own found =>
    obtain ⟨_, alongside, run'⟩ := parallel.resolveSource_of_resolve lock unsettled off found run'
    cases alongside with
    | severed agree =>
      cases run
      cases run'
      exact ⟨lock.settleBroken agree, fun here => congrArg (FieldInput.broken reason) (agree here)⟩
  | case5 walk p s unsettled off found =>
    obtain ⟨_, alongside, run'⟩ := parallel.resolveSource_of_resolve lock unsettled off found run'
    cases alongside with
    | nowhere =>
      cases run
      cases run'
      exact ⟨lock.settle fun _ => rfl, fun _ => rfl⟩
  | case6 walk p s unsettled off link own found ih =>
    obtain ⟨_, alongside, run'⟩ := parallel.resolveSource_of_resolve lock unsettled off found run'
    cases alongside with
    | linked agree =>
      refine lockstep_of_linked agree (fun t t' value value' ran ran' => ?_) run run'
      -- a place inside is linked to a place inside
      have onward (here : inside p.instanceId) := parallel.onward here found
      exact (ih lock ran ran').imp_right fun same here => same (onward here)
  | case7 walk p s unsettled off i m o found ih =>
    obtain ⟨_, alongside, run'⟩ := parallel.resolveSource_of_resolve lock unsettled off found run'
    cases alongside with
    | computed agree =>
      exact lockstep_of_computed lock agree
        (fun field s s' value value' t t' lock ran ran' => ih field s lock ran ran') run run'

end

end Costing
