import Costing.Proofs.Link.Coherence

/-! # The broken links that a resolution notes

The search changes what it knows in three ways only: it meets a place that waits, it settles a
place, or it settles a linked field as broken and notes its link.  `Resolution.Advances` has a case
for each of them, and `advances_of_resolve` says that a run of the search is made of such steps.

`Resolution.Noted` is kept by every step, and so by a run: the links that are noted are exactly
those of the linked fields that have settled without a value, each of them once. -/

namespace Costing

open Relation (ReflTransGen)

/-- The link of a field, whether it leads to a declared place or not. -/
def Source.link? : Source → Option Place
  | .severed _ link _ => some link
  | .linked link _ => some link
  | _ => none

namespace Resolution

/-- One step of the search. -/
inductive Advances (w : Workspace) (s : Resolution) : Resolution → Prop where
  | meets (walk : List Place) (p : Place) : Advances w s (s.meet walk p).2
  | settles {p : Place} {value : FieldInput} (fresh : s.settled.get? p = none)
      (sound : (w.source p).link? = none ∨ value.isBroken = false) :
      Advances w s (s.settle p value).2
  | breaks {p link : Place} {reason : BrokenReason} {own : FieldValue}
      (fresh : s.settled.get? p = none) (links : (w.source p).link? = some link) :
      Advances w s (s.settleBroken p link reason own).2

/-- The links that are noted are those of the linked fields that have settled without a value. -/
structure Noted (w : Workspace) (s : Resolution) : Prop where
  single : (s.broken.map (·.place)).Nodup
  sound : ∀ b ∈ s.broken, (w.source b.place).link? = some b.link ∧
    ∃ own, s.settled.get? b.place = some (.broken b.reason own)
  complete : ∀ {p link reason own}, (w.source p).link? = some link →
    s.settled.get? p = some (.broken reason own) → ⟨p, link, reason⟩ ∈ s.broken

variable {w : Workspace} {s s' : Resolution}

theorem Noted.start : Noted w .start where
  single := .nil
  sound := nofun
  complete _ settled := nomatch settled

theorem Noted.absent (noted : Noted w s) {p : Place} (fresh : s.settled.get? p = none) :
    p ∉ s.broken.map (·.place) := by
  intro member
  obtain ⟨b, among, rfl⟩ := List.mem_map.mp member
  obtain ⟨_, own, settled⟩ := noted.sound b among
  rw [fresh] at settled
  cases settled

/-- What was noted before stays true when one more place settles. -/
theorem Noted.sound_of_settles (noted : Noted w s) {p : Place} {value : FieldInput}
    (fresh : s.settled.get? p = none) (settles : Settles s p value s') :
    ∀ b ∈ s.broken, (w.source b.place).link? = some b.link ∧
      ∃ own, s'.settled.get? b.place = some (.broken b.reason own) := by
  intro b member
  obtain ⟨links, own, settled⟩ := noted.sound b member
  exact ⟨links, own, (settles.grows fresh).settled settled⟩

theorem Noted.settle (noted : Noted w s) {p : Place} {value : FieldInput}
    (fresh : s.settled.get? p = none)
    (sound : (w.source p).link? = none ∨ value.isBroken = false) :
    Noted w (s.settle p value).2 where
  single := noted.single
  sound := noted.sound_of_settles fresh (settles_settle ..)
  complete {q link reason own} links settled := by
    by_cases same : p = q
    · -- the place that settles now has no link, or a value
      subst same
      rw [(settles_settle ..).get?_self] at settled
      cases settled
      obtain unlinked | given := sound
      · rw [unlinked] at links
        cases links
      · cases given
    · rw [(settles_settle ..).get?_other same] at settled
      exact noted.complete links settled

theorem Noted.settleBroken (noted : Noted w s) {p link : Place} {reason : BrokenReason}
    {own : FieldValue} (fresh : s.settled.get? p = none)
    (links : (w.source p).link? = some link) :
    Noted w (s.settleBroken p link reason own).2 where
  single := by
    change ((s.broken ++ [BrokenLink.mk p link reason]).map (·.place)).Nodup
    rw [List.map_append, List.nodup_append]
    refine ⟨noted.single, by simp, fun q before q' last same => ?_⟩
    obtain rfl := List.mem_singleton.mp last
    exact noted.absent fresh (same ▸ before)
  sound b member := by
    obtain before | last := List.mem_append.mp member
    · exact noted.sound_of_settles fresh (settles_settleBroken ..) b before
    · obtain rfl := List.mem_singleton.mp last
      exact ⟨links, own, (settles_settleBroken ..).get?_self⟩
  complete {q link' reason' own'} links' settled := by
    by_cases same : p = q
    · subst same
      rw [(settles_settleBroken ..).get?_self] at settled
      cases settled
      rw [links] at links'
      cases links'
      exact List.mem_append_right _ (.head _)
    · rw [(settles_settleBroken ..).get?_other same] at settled
      exact List.mem_append_left _ (noted.complete links' settled)

theorem Noted.advance (noted : Noted w s) (step : Advances w s s') : Noted w s' := by
  cases step with
  | meets walk p => exact ⟨noted.single, noted.sound, noted.complete⟩
  | settles fresh sound => exact noted.settle fresh sound
  | breaks fresh links => exact noted.settleBroken fresh links

theorem Noted.run (noted : Noted w s) (steps : ReflTransGen (Advances w) s s') : Noted w s' := by
  induction steps with
  | refl => exact noted
  | tail _ step ih => exact ih.advance step

/-- A broken link is noted once and with the reason of its field. -/
theorem Noted.filter_broken (noted : Noted w s) {p link : Place} {reason : BrokenReason}
    {own : FieldValue} (links : (w.source p).link? = some link)
    (settled : s.settled.get? p = some (.broken reason own)) :
    s.broken.filter (·.place = p) = [⟨p, link, reason⟩] := by
  have member := noted.complete links settled
  have single := noted.single
  -- all others stand at another place
  generalize s.broken = broken at member single
  induction broken with
  | nil => cases member
  | cons b broken ih =>
    rw [List.map_cons, List.nodup_cons] at single
    obtain rfl | later := List.mem_cons.mp member
    · have others : broken.filter (·.place = p) = [] := by
        refine List.filter_eq_nil_iff.mpr fun b' among here => ?_
        exact single.1 (List.mem_map.mpr ⟨b', among, by simpa using here⟩)
      rw [List.filter_cons_of_pos (by simp), others]
    · have elsewhere : b.place ≠ p := fun same =>
        single.1 (List.mem_map.mpr ⟨_, later, same.symm⟩)
      rw [List.filter_cons_of_neg (by simpa using elsewhere), ih later single.2]

end Resolution

open Resolution (Advances Noted)

/-! ## The search as steps -/

section
variable {w : Workspace} {book : Pricebook} {walk : List Place} {p : Place} {value : FieldInput}
  {s s' : Resolution}

theorem advances_settleLinked {link : Place} {own : FieldValue}
    (found : w.source p = .linked link own) (fresh : s.settled.get? p = none)
    (value : FieldInput) : Advances w s (s.settleLinked p link own value).2 := by
  have links : (w.source p).link? = some link := by rw [found]; rfl
  rw [Resolution.settleLinked]
  cases why : s.brokenReason? p link value with
  | some reason => exact .breaks fresh links
  | none =>
    refine .settles fresh (.inr ?_)
    -- a broken value would have been a reason
    cases value with
    | given x => rfl
    | broken reason fallback =>
      rw [Resolution.brokenReason?] at why
      split at why
      · cases why
      · split at why <;> cases why

theorem advances_settleOutput {i : Instance} {m : Module} {o : Output}
    (found : w.source p = .computed i m o) (fresh : s.settled.get? p = none)
    (value : Option Float) : Advances w s (s.settleOutput p value).2 := by
  have unlinked : (w.source p).link? = none := by rw [found]; rfl
  cases value with
  | none => exact .settles fresh (.inl unlinked)
  | some x => exact .settles fresh (.inl unlinked)

theorem advances_of_gather {place : String → Place} {names : List String}
    {resolve : String → Resolution → Except Formula.Crash (FieldInput × Resolution)}
    {values values' : Table String FieldInput}
    (each : ∀ name s value s', resolve name s = .ok (value, s') → name ∈ names →
      Coherent w book walk s →
        After w book walk (place name) value s s' ∧ ReflTransGen (Advances w) s s')
    (coherent : Coherent w book walk s)
    (run : gather resolve names values s = .ok (values', s')) :
    Gathered w book walk place names values values' s s' ∧ ReflTransGen (Advances w) s s' := by
  refine ⟨gathered_of_gather (fun name s value s' ran member coherent =>
    (each name s value s' ran member coherent).1) coherent run, ?_⟩
  induction names generalizing values s with
  | nil =>
    cases run
    exact .refl
  | cons name names ih =>
    obtain ⟨⟨value, middle⟩, first, rest⟩ := bind_eq_ok_iff.mp run
    obtain ⟨after, steps⟩ := each name _ value middle first (.head _) coherent
    exact steps.trans
      (ih (fun n s v s' ran member => each n s v s' ran (.tail _ member)) after.coherent rest)

theorem advances_of_resolve (run : w.resolve book walk p s = .ok (value, s'))
    (trail : w.Trail walk p) (coherent : Coherent w book walk s) :
    ReflTransGen (Advances w) s s' := by
  fun_induction Workspace.resolve w book walk p s generalizing value s' with
  | case1 walk p s known settled =>
    cases run
    exact .refl
  | case2 walk p s unsettled waiting =>
    cases run
    exact .single (.meets walk p)
  | case3 walk p s unsettled fresh own found =>
    cases run
    exact .single (.settles unsettled (.inl (by rw [found]; rfl)))
  | case4 walk p s unsettled fresh reason link own found =>
    cases run
    exact .single (.breaks unsettled (by rw [found]; rfl))
  | case5 walk p s unsettled fresh found =>
    cases run
    exact .single (.settles unsettled (.inl (by rw [found]; rfl)))
  | case6 walk p s unsettled fresh link own found ih =>
    obtain ⟨⟨drawn, middle⟩, ran, result⟩ := bind_eq_ok_iff.mp run
    obtain ⟨rfl, rfl⟩ := Prod.ext_iff.mp (Except.ok.inj result)
    -- the place waits while its link is followed, and is still fresh when it settles
    have trail' := Workspace.Trail.step (.link found) trail
    have pushed := coherent.push unsettled
    have after := after_resolve ran trail' pushed
    exact (ih ran trail' pushed).tail
      (advances_settleLinked found (after.coherent.apart p (.head _)) drawn)
  | case7 walk p s unsettled fresh i m o found ih =>
    obtain ⟨⟨inputs, middle⟩, gathered, rest⟩ := bind_eq_ok_iff.mp run
    obtain ⟨results, computed, result⟩ := bind_eq_ok_iff.mp rest
    obtain ⟨rfl, rfl⟩ := Prod.ext_iff.mp (Except.ok.inj result)
    have each : ∀ field s value s',
        w.resolve book (p :: walk) ⟨p.instanceId, field⟩ s = .ok (value, s') →
        field ∈ m.dependencies o.name.text → Coherent w book (p :: walk) s →
        After w book (p :: walk) ⟨p.instanceId, field⟩ value s s' ∧
          ReflTransGen (Advances w) s s' := fun field s value s' ran member coherent =>
      have trail' := Workspace.Trail.step (.dependency found member) trail
      ⟨after_resolve ran trail' coherent, ih field s ran trail' coherent⟩
    obtain ⟨after, steps⟩ := advances_of_gather each (coherent.push unsettled) gathered
    exact steps.tail (advances_settleOutput found (after.coherent.apart p (.head _)) _)

theorem advances_of_resolveInstances {instances : List Instance}
    {values values' : Workspace.FieldInputs} (coherent : Coherent w book [] s)
    (run : w.resolveInstances book instances values s = .ok (values', s')) :
    ReflTransGen (Advances w) s s' := by
  induction instances generalizing values s with
  | nil =>
    cases run
    exact .refl
  | cons i instances ih =>
    obtain ⟨⟨fields, middle⟩, first, rest⟩ := bind_eq_ok_iff.mp run
    have each : ∀ name s value s', w.resolve book [] ⟨i.id, name⟩ s = .ok (value, s') →
        name ∈ w.fieldNames i → Coherent w book [] s →
        After w book [] ⟨i.id, name⟩ value s s' ∧ ReflTransGen (Advances w) s s' :=
      fun _ _ _ _ ran _ coherent =>
        ⟨after_resolve ran .start coherent, advances_of_resolve ran .start coherent⟩
    obtain ⟨after, steps⟩ := advances_of_gather each coherent first
    exact steps.trans (ih after.coherent rest)

end

end Costing
