import Costing.Proofs.Link.ChainResolution
import Costing.Proofs.Link.Edges
import Costing.Proofs.Link.Record
import Costing.Session

/-! # Links that are accepted one by one

A session that starts without links and changes them only through accepted links and removals
keeps its links sound, step by step: the graph of links and dependencies has no cycle, and every
link joins two declared places that go together (`SoundLinks`).  Sound links are broken for no
other reason than a failed output, whatever values are stored. -/

namespace Costing

open Relation (ReflTransGen TransGen)

/-! ## Workspaces that differ in what their instances hold -/

namespace Workspace

/-- The workspace with the links of one instance changed. -/
def relinked (w : Workspace) (id : String) (change : Table String Place → Table String Place) :
    Workspace :=
  { w with instances := w.instances.map fun i =>
      { i with links := if i.id = id then change i.links else i.links } }

/-- The workspace with other values stored in its instances. -/
def withValues (w : Workspace) (values : String → Table String FieldValue) : Workspace :=
  { w with instances := w.instances.map fun i => { i with values := values i.id } }

variable {w w' : Workspace}

theorem SameFrame.joins (same : w.SameFrame w') {source target : Place}
    (joins : w.Joins source target) : w'.Joins source target := by
  obtain ⟨f, t, atSource, atTarget, together⟩ := joins
  exact ⟨f, t, same.hasTarget atSource, same.hasTarget atTarget, together⟩

theorem sameFrame_relinked {id : String} {change : Table String Place → Table String Place} :
    w.SameFrame (w.relinked id change) where
  modules := rfl
  uses := by rw [relinked, List.map_map]; rfl

theorem sameFrame_withValues {values : String → Table String FieldValue} :
    w.SameFrame (w.withValues values) where
  modules := rfl
  uses := by rw [withValues, List.map_map]; rfl

theorem edges_withValues {values : String → Table String FieldValue} :
    (w.withValues values).edges = w.edges := by
  rw [edges, edges, withValues, List.flatMap_map]
  rfl

/-- Other links change no dependencies. -/
theorem dependsOn_of_relinked {id : String} {change : Table String Place → Table String Place}
    {p q : Place} (depends : (w.relinked id change).DependsOn p q) :
    (∃ i ∈ w.instances, i.id = p.instanceId ∧
      (if i.id = id then change i.links else i.links).get? p.name = some q) ∨
    w.DependsOn p q ∧ hasOutputPrefix p.name = true := by
  cases depends with
  | link placed here stored =>
    obtain ⟨i, placed', rfl⟩ := List.mem_map.mp placed
    exact .inl ⟨i, placed', here, stored⟩
  | @dependency _ m o _ placed here used declared key member =>
    obtain ⟨i, placed', rfl⟩ := List.mem_map.mp placed
    exact .inr ⟨.dependency placed' here used declared key member, key ▸ o.hasOutputPrefix_key⟩

/-! ## Sound links -/

/-- The graph has no cycle, and every link joins two places that go together. -/
structure SoundLinks (w : Workspace) : Prop where
  acyclic : Acyclic w.edges
  joined : ∀ i ∈ w.instances, ∀ name target, i.links.get? name = some target →
    w.Joins ⟨i.id, name⟩ target

theorem soundLinks_of_unlinked
    (unlinked : ∀ i ∈ w.instances, ∀ name, i.links.get? name = none) : w.SoundLinks where
  acyclic := acyclic_of_unlinked unlinked
  joined i placed name target stored := by
    rw [unlinked i placed] at stored
    cases stored

section
variable (sound : w.SoundLinks)
include sound

theorem SoundLinks.withValues (values : String → Table String FieldValue) :
    (w.withValues values).SoundLinks where
  acyclic := by
    rw [edges_withValues]
    exact sound.acyclic
  joined i placed name target stored := by
    obtain ⟨j, placed', rfl⟩ := List.mem_map.mp placed
    exact sameFrame_withValues.joins (sound.joined j placed' name target stored)

theorem SoundLinks.remove (p : Place) :
    (w.relinked p.instanceId fun links => links.erase p.name).SoundLinks := by
  have before {i : Instance} {name : String} {target : Place}
      (stored : (if i.id = p.instanceId then i.links.erase p.name else i.links).get? name =
        some target) : i.links.get? name = some target := by
    split at stored
    · rw [Table.get?_erase] at stored
      split at stored
      · cases stored
      · exact stored
    · exact stored
  refine ⟨sound.acyclic.mono fun u v edge => mem_edges_iff.mpr ?_,
    fun i placed name target stored => ?_⟩
  · obtain ⟨i, placed, id, stored⟩ | ⟨depends, _⟩ := dependsOn_of_relinked (mem_edges_iff.mp edge)
    · exact .link placed id (before stored)
    · exact depends
  · obtain ⟨j, placed', rfl⟩ := List.mem_map.mp placed
    exact sameFrame_relinked.joins (sound.joined j placed' name target (before stored))

theorem SoundLinks.store {source target : Place} (accepted : w.checkLink source target = .ok ()) :
    (w.relinked source.instanceId fun links => links.insert source.name target).SoundLinks := by
  obtain ⟨joins, none⟩ := joins_of_checkLink accepted
  -- a link that is there now is the accepted one, or it was there before in another place
  have before {i : Instance} {name : String} {link : Place}
      (stored : (if i.id = source.instanceId then i.links.insert source.name target
        else i.links).get? name = some link) :
      (⟨i.id, name⟩ : Place) = source ∧ link = target ∨
        i.links.get? name = some link ∧ (⟨i.id, name⟩ : Place) ≠ source := by
    split at stored
    · next here =>
      rw [Table.get?_insert] at stored
      split at stored
      · next same =>
        cases stored
        exact .inl ⟨by rw [here, ← same], rfl⟩
      · next other => exact .inr ⟨stored, fun same => other (by rw [← same])⟩
    · next elsewhere => exact .inr ⟨stored, fun same => elsewhere (by rw [← same])⟩
  refine ⟨(acyclic_edgesWith sound.acyclic none).mono fun u v edge => adjacent_edgesWith_iff.mpr ?_,
    fun i placed name link stored => ?_⟩
  · obtain ⟨i, placed, id, stored⟩ | ⟨depends, isOutput⟩ :=
      dependsOn_of_relinked (mem_edges_iff.mp edge)
    · have place : (⟨i.id, u.name⟩ : Place) = u := by rw [id]
      obtain ⟨here, rfl⟩ | ⟨old, other⟩ := before stored
      · exact .inl ⟨place ▸ here, rfl⟩
      · exact .inr ⟨.link placed id old, place ▸ other⟩
    · -- the source is a field
      refine .inr ⟨depends, ?_⟩
      rintro rfl
      rw [joins.plain] at isOutput
      cases isOutput
  · obtain ⟨j, placed', rfl⟩ := List.mem_map.mp placed
    refine sameFrame_relinked.joins ?_
    obtain ⟨here, rfl⟩ | ⟨old, _⟩ := before stored
    · exact here ▸ joins
    · exact sound.joined j placed' name link old

end

/-! ## What sound links are broken for -/

/-- Sound links only lead to failed outputs, or to other links that do. -/
theorem reason_of_soundLinks {w : Workspace} {book : Pricebook}
    (distinct : (w.instances.map (·.id)).Nodup) (sound : w.SoundLinks) {s : Resolution}
    (coherent : Coherent w book [] s) (noted : s.Noted w) {b : BrokenLink} (among : b ∈ s.broken) :
    b.reason = .targetFailed ∨ b.reason = .upstreamBroken := by
  obtain ⟨links, own, settled⟩ := noted.sound b among
  have explains := w.explains_source distinct b.place
  have backed := coherent.backed settled
  generalize found : w.source b.place = source at explains links
  cases explains with
  | @severed i link _ placed id _ stored missing =>
    obtain ⟨_, t, _, target, _⟩ := sound.joined i placed _ link stored
    exact absurd target (missing t)
  | linked placed id plain stored target =>
    obtain ⟨marked, _⟩ | ⟨_, value, _, same⟩ := backed.of_linked found
    · -- what is on a cycle of the search is on a cycle of the graph
      refine absurd ?_ (sound.acyclic b.place)
      exact TransGen.mono (fun p q waits => mem_edges_iff.mpr (waits.dependsOn distinct)) _ _
        (coherent.loops _ marked)
    · cases value with
      | given x => cases same
      | broken reason fallback =>
        obtain ⟨passed, _⟩ := FieldInput.broken.inj same
        rw [passed, passedOn]
        split
        · exact .inl rfl
        · exact .inr rfl
  | stored => cases links
  | computed => cases links
  | nowhere => cases links

end Workspace

/-! ## Editing sessions -/

/-- A step that removes a link, or stores one if it is accepted. -/
inductive Step.EditsLinks : Step → Prop where
  | link (source target : Place) : Step.EditsLinks (.link source target false)
  | unlink (place : Place) : Step.EditsLinks (.unlink place)

namespace Session

/-- The session after steps that are performed one after the other. -/
def performAll (s : Session) : List Step → Except Formula.Crash Session
  | [] => .ok s
  | step :: rest => do
    let (_, s) ← s.perform step
    s.performAll rest

variable {s : Session}

theorem getD_updateFirst? {key : Instance → String} {instances : List Instance}
    (distinct : (instances.map key).Nodup) (k : String) (change : Instance → Instance) :
    (updateFirst? (key · == k) change instances).getD instances =
      instances.map fun i => if key i = k then change i else i := by
  induction instances with
  | nil => rfl
  | cons i instances ih =>
    rw [List.map_cons, List.nodup_cons] at distinct
    rw [updateFirst?, List.map_cons]
    by_cases here : key i = k
    · -- no later instance has the key
      have others : instances.map (fun j => if key j = k then change j else j) = instances := by
        refine (List.map_congr_left fun j later => if_neg fun same => ?_).trans (List.map_id _)
        exact distinct.1 (List.mem_map.mpr ⟨j, later, same.trans here.symm⟩)
      rw [if_pos (by simpa using here), Option.getD_some, others, if_pos here]
    · rw [if_neg (by simpa using here), if_neg here, ← ih distinct.2]
      cases updateFirst? (key · == k) change instances <;> rfl

theorem changing_links (distinct : (s.workspace.instances.map (·.id)).Nodup) (id : String)
    (answer : StepAnswer) (change : Table String Place → Table String Place) :
    (s.changing id answer fun i => { i with links := change i.links }).2 =
      { s with workspace := s.workspace.relinked id change } := by
  have step : (s.changing id answer fun i => { i with links := change i.links }).2 =
      s.withInstances ((updateFirst? (·.id == id) (fun i => { i with links := change i.links })
        s.workspace.instances).getD s.workspace.instances) := by
    rw [changing, changeInstance?]
    -- where no instance has the identifier, the session stays as it is
    cases updateFirst? (·.id == id) (fun i => { i with links := change i.links })
      s.workspace.instances <;> rfl
  have links : (s.workspace.instances.map fun i =>
        if i.id = id then { i with links := change i.links } else i) =
      (s.workspace.relinked id change).instances := by
    refine List.map_congr_left fun i _ => ?_
    split <;> rfl
  rw [step, getD_updateFirst? distinct, links]
  rfl

/-- A step that edits links keeps them sound. -/
theorem perform_of_editsLinks (distinct : (s.workspace.instances.map (·.id)).Nodup) {step : Step}
    (edits : step.EditsLinks) (sound : s.workspace.SoundLinks) :
    ∃ answer w, s.perform step = .ok (answer, { s with workspace := w }) ∧
      s.workspace.SameFrame w ∧ w.SoundLinks := by
  cases edits with
  | unlink p =>
    have done := changing_links distinct p.instanceId .done fun links => links.erase p.name
    exact ⟨_, _, congrArg Except.ok (Prod.ext rfl done), Workspace.sameFrame_relinked,
      sound.remove p⟩
  | link source target =>
    cases check : s.workspace.checkLink source target with
    | ok _ =>
      have stores : s.perform (.link source target false) =
          .ok (s.changing source.instanceId (.linkChecked (.ok ())) fun i =>
            { i with links := i.links.insert source.name target }) := by
        rw [perform, linking, check]
        rfl
      have done := changing_links distinct source.instanceId (.linkChecked (.ok ())) fun links =>
        links.insert source.name target
      exact ⟨_, _, stores.trans (congrArg Except.ok (Prod.ext rfl done)),
        Workspace.sameFrame_relinked, sound.store check⟩
    | error refusal =>
      -- a refused link is not stored
      refine ⟨.linkChecked (.error refusal), s.workspace, ?_, ⟨rfl, rfl⟩, sound⟩
      rw [perform, linking, check]
      rfl

theorem performAll_of_editsLinks {steps : List Step} (edits : ∀ step ∈ steps, step.EditsLinks)
    (distinct : (s.workspace.instances.map (·.id)).Nodup) (sound : s.workspace.SoundLinks) :
    ∃ w, s.performAll steps = .ok { s with workspace := w } ∧ s.workspace.SameFrame w ∧
      w.SoundLinks := by
  induction steps generalizing s with
  | nil => exact ⟨s.workspace, rfl, ⟨rfl, rfl⟩, sound⟩
  | cons step rest ih =>
    obtain ⟨answer, w, first, frame, sound'⟩ :=
      perform_of_editsLinks distinct (edits step (.head _)) sound
    obtain ⟨w', others, frame', sound''⟩ := ih (s := { s with workspace := w })
      (fun later member => edits later (.tail _ member)) (frame.ids ▸ distinct) sound'
    exact ⟨w', bind_eq_ok_iff.mpr ⟨_, first, others⟩, frame.trans frame', sound''⟩

end Session

/-- In every workspace that a session reaches from one without links, the graph of links and
dependencies has no cycle, every link joins a declared field to a declared target that goes with
it, and whatever values are stored, no link is broken because of a cycle or a missing target. -/
theorem edited_links_stay_sound (s : Session) (distinct : (s.workspace.instances.map (·.id)).Nodup)
    (unlinked : ∀ i ∈ s.workspace.instances, ∀ name, i.links.get? name = none)
    (steps : List Step) (edits : ∀ step ∈ steps, step.EditsLinks) :
    ∃ w, s.performAll steps = .ok { s with workspace := w } ∧ s.workspace.SameFrame w ∧
      Acyclic w.edges ∧
      (∀ i ∈ w.instances, ∀ name target, i.links.get? name = some target →
        w.Joins ⟨i.id, name⟩ target) ∧
      ∀ values book r, (w.withValues values).resolveAll book = .ok r → ∀ b ∈ r.broken,
        b.reason ≠ .cycle ∧ b.reason ≠ .missingInstance ∧ b.reason ≠ .missingTarget := by
  obtain ⟨w, ran, frame, sound⟩ :=
    Session.performAll_of_editsLinks edits distinct (Workspace.soundLinks_of_unlinked unlinked)
  refine ⟨w, ran, frame, sound.acyclic, sound.joined, fun values book r resolved b among => ?_⟩
  have distinct' : ((w.withValues values).instances.map (·.id)).Nodup := by
    rw [Workspace.sameFrame_withValues.ids, frame.ids]
    exact distinct
  obtain ⟨known, run, same⟩ := run_of_resolveAll distinct' resolved
  obtain ⟨coherent, _⟩ := settled_of_run distinct' run
  have noted := Resolution.Noted.start.run (advances_of_resolveInstances .start run)
  obtain failed | upstream := Workspace.reason_of_soundLinks distinct' (sound.withValues values)
    coherent noted (same ▸ among)
  · rw [failed]
    exact ⟨nofun, nofun, nofun⟩
  · rw [upstream]
    exact ⟨nofun, nofun, nofun⟩

/-! A first link in a session. -/

def freshRing : Session := ⟨.ring .empty, [], [], [], []⟩

theorem Workspace.checkLink_ring : (ring .empty).checkLink ⟨"a", "f"⟩ ⟨"a", "g"⟩ = .ok () := by
  have ends : (ring .empty).linkEnds ⟨"a", "f"⟩ ⟨"a", "g"⟩ =
      .ok (ringField ⟨"f", by decide⟩, .field (ringField ⟨"g", by decide⟩)) := by rfl
  have together : compatible (ringField ⟨"f", by decide⟩)
      (.field (ringField ⟨"g", by decide⟩)) = true := by decide +kernel
  have edges : (ring .empty).edgesWith ⟨"a", "f"⟩ ⟨"a", "g"⟩ =
      [(⟨"a", "f"⟩, ⟨"a", "g"⟩)] := by decide +kernel
  have none : (ring .empty).cycleWith? ⟨"a", "f"⟩ ⟨"a", "g"⟩ = none := by
    rw [cycleWith?, edges]
    simp [cycleFrom?, searchCycle, SearchFrame.entering, successors]
  rw [checkLink, if_neg (by decide), ends]
  dsimp only
  rw [if_pos together, none]

theorem edited_links_stay_sound_ring :
    ∃ w, freshRing.performAll [.link ⟨"a", "f"⟩ ⟨"a", "g"⟩ false] =
        .ok { freshRing with workspace := w } ∧
      w.instances.map (·.links.entries) = [[("f", ⟨"a", "g"⟩)]] ∧ Acyclic w.edges ∧
      ∀ values book r, (w.withValues values).resolveAll book = .ok r → ∀ b ∈ r.broken,
        b.reason ≠ .cycle ∧ b.reason ≠ .missingInstance ∧ b.reason ≠ .missingTarget := by
  obtain ⟨w, ran, _, acyclic, _, reasons⟩ := edited_links_stay_sound freshRing (by decide +kernel)
    (List.forall_mem_singleton.mpr fun _ => rfl) _ (List.forall_mem_singleton.mpr (.link _ _))
  refine ⟨w, ran, ?_, acyclic, reasons⟩
  simp only [Session.performAll, Session.perform, Session.linking, freshRing,
    Workspace.checkLink_ring] at ran
  cases ran
  rfl

end Costing
