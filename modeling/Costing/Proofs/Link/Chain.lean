import Costing.Link.Resolution
import Costing.Proofs.Table
import Mathlib.Data.List.Forall2
import Mathlib.Logic.Relation

/-! # Chains of links

What the links of a workspace lead to, in terms of the instances and modules that it holds and
without any search.  `Workspace.Ends` says which value a field has at the end of its chain of
links, or why it has none.

A link is followed only if its target is declared (`Workspace.Draws`); a field has at most one
link, so chains do not branch, and `ends_unique` follows.  All notions are stated by membership,
so they do not change when a workspace is put into another order (`Alike.ends`). -/

namespace Costing

open Relation (TransGen ReflTransGen)

namespace Workspace

section
variable (w : Workspace)

/-- There is an instance with an identifier. -/
def HasInstance (id : String) : Prop := ∃ i ∈ w.instances, i.id = id

/-- A field is linked to a place, which may or may not exist. -/
def LinksTo (p link : Place) : Prop :=
  ∃ i ∈ w.instances, i.id = p.instanceId ∧ i.links.get? p.name = some link

/-- A field is not linked. -/
def IsUnlinked (p : Place) : Prop :=
  ∃ i ∈ w.instances, i.id = p.instanceId ∧ i.links.get? p.name = none

/-- The value stored in a field, blank if there is none. -/
def Holds (p : Place) (own : FieldValue) : Prop :=
  ∃ i ∈ w.instances, i.id = p.instanceId ∧ (i.values.get? p.name).getD .blank = own

/-- The module of an instance declares a field. -/
def Declares (p : Place) : Prop :=
  ∃ i ∈ w.instances, i.id = p.instanceId ∧
    ∃ m ∈ w.modules, m.id = i.moduleId ∧ ∃ f ∈ m.fields, f.name.text = p.name

/-- A field is linked to a declared field. -/
def Draws (p q : Place) : Prop := w.LinksTo p q ∧ w.Declares q

/-- The link of a field leads nowhere. -/
inductive Severed (p : Place) : BrokenReason → Prop where
  | missingInstance {link : Place} (links : w.LinksTo p link)
      (missing : ¬w.HasInstance link.instanceId) : Severed p .missingInstance
  | missingTarget {link : Place} (links : w.LinksTo p link)
      (present : w.HasInstance link.instanceId) (missing : ¬w.Declares link) :
      Severed p .missingTarget

/-- A field is broken by itself: its link leads nowhere or its chain returns to it. -/
inductive Fails (p : Place) : Prop where
  | severed {reason : BrokenReason} (severed : w.Severed p reason)
  | loop (around : TransGen w.Draws p p)

/-- What the chain of links from a field comes to. -/
inductive Ends (p : Place) : FieldInput → Prop where
  | own {own : FieldValue} (unlinked : w.IsUnlinked p) (holds : w.Holds p own) :
      Ends p (.given own)
  | severed {reason : BrokenReason} {own : FieldValue} (severed : w.Severed p reason)
      (holds : w.Holds p own) : Ends p (.broken reason own)
  | cycle {own : FieldValue} (around : TransGen w.Draws p p) (holds : w.Holds p own) :
      Ends p (.broken .cycle own)
  | upstream {r : Place} {own : FieldValue} (straight : ¬TransGen w.Draws p p)
      (chain : TransGen w.Draws p r) (fails : w.Fails r) (holds : w.Holds p own) :
      Ends p (.broken .upstreamBroken own)
  | drawn {r : Place} {x : FieldValue} (chain : TransGen w.Draws p r)
      (unlinked : w.IsUnlinked r) (holds : w.Holds r x) : Ends p (.given x)

end

variable {w : Workspace}

/-! ## Chains do not branch -/

section
variable (distinct : (w.instances.map (·.id)).Nodup)
include distinct

theorem holds_unique {p : Place} {own other : FieldValue} (first : w.Holds p own)
    (second : w.Holds p other) : own = other := by
  obtain ⟨i, member, id, rfl⟩ := first
  obtain ⟨j, member', id', rfl⟩ := second
  rw [Table.eq_of_key distinct member member' (id.trans id'.symm)]

theorem linksTo_unique {p q r : Place} (first : w.LinksTo p q) (second : w.LinksTo p r) :
    q = r := by
  obtain ⟨i, member, id, link⟩ := first
  obtain ⟨j, member', id', link'⟩ := second
  rw [Table.eq_of_key distinct member member' (id.trans id'.symm), link'] at link
  exact (Option.some.inj link).symm

theorem not_linksTo_of_isUnlinked {p q : Place} (unlinked : w.IsUnlinked p) :
    ¬w.LinksTo p q := by
  rintro ⟨i, member, id, link⟩
  obtain ⟨j, member', id', noLink⟩ := unlinked
  rw [Table.eq_of_key distinct member member' (id.trans id'.symm), noLink] at link
  cases link

theorem rightUnique_draws : Relator.RightUnique w.Draws :=
  fun _ _ _ first second => linksTo_unique distinct first.1 second.1

omit distinct in
theorem hasInstance_of_declares {p : Place} (declared : w.Declares p) :
    w.HasInstance p.instanceId := by
  obtain ⟨i, member, id, _⟩ := declared
  exact ⟨i, member, id⟩

theorem not_draws_of_severed {p q : Place} {reason : BrokenReason}
    (severed : w.Severed p reason) : ¬w.Draws p q := by
  rintro ⟨links, declared⟩
  cases severed with
  | missingInstance links' missing =>
    rw [linksTo_unique distinct links' links] at missing
    exact missing (hasInstance_of_declares declared)
  | missingTarget links' present missing =>
    rw [linksTo_unique distinct links' links] at missing
    exact missing declared

theorem severed_unique {p : Place} {reason other : BrokenReason} (first : w.Severed p reason)
    (second : w.Severed p other) : reason = other := by
  cases first with
  | missingInstance links missing =>
    cases second with
    | missingInstance => rfl
    | missingTarget links' present =>
      rw [linksTo_unique distinct links' links] at present
      exact absurd present missing
  | missingTarget links present =>
    cases second with
    | missingInstance links' missing =>
      rw [linksTo_unique distinct links' links] at missing
      exact absurd present missing
    | missingTarget => rfl

omit distinct in
theorem first_draw {p q : Place} (chain : TransGen w.Draws p q) : ∃ next, w.Draws p next := by
  obtain ⟨next, draws, _⟩ := TransGen.head'_iff.mp chain
  exact ⟨next, draws⟩

/-- A chain out of a cycle stays on it. -/
theorem loop_of_reaches {p q : Place} (around : TransGen w.Draws p p)
    (chain : ReflTransGen w.Draws p q) : TransGen w.Draws q q := by
  induction chain with
  | refl => exact around
  | @tail r q _ draws ih =>
    obtain ⟨next, draws', back⟩ := TransGen.head'_iff.mp ih
    -- the first step back to `r` is the step to `q`
    obtain rfl := rightUnique_draws distinct draws draws'
    exact .tail' back draws

/-- No chain leads from a field that is broken by itself to one without a link. -/
theorem not_fails_of_reaches {p q : Place} (chain : ReflTransGen w.Draws p q)
    (unlinked : w.IsUnlinked q) : ¬w.Fails p := by
  rintro (severed | around)
  · obtain rfl | ⟨next, draws, _⟩ := chain.cases_head
    · cases severed with
      | missingInstance links => exact not_linksTo_of_isUnlinked distinct unlinked links
      | missingTarget links => exact not_linksTo_of_isUnlinked distinct unlinked links
    · exact not_draws_of_severed distinct severed draws
  · obtain ⟨next, draws⟩ := first_draw (loop_of_reaches distinct around chain)
    exact not_linksTo_of_isUnlinked distinct unlinked draws.1

/-- A chain that ends at a field without a link passes no field that is broken by itself. -/
theorem not_fails_of_end {p q r : Place} (chain : TransGen w.Draws p q)
    (unlinked : w.IsUnlinked q) (other : TransGen w.Draws p r) : ¬w.Fails r := by
  -- chains do not branch, so one of the two continues the other
  obtain before | behind := ReflTransGen.total_of_right_unique (rightUnique_draws distinct)
    other.to_reflTransGen chain.to_reflTransGen
  · exact not_fails_of_reaches distinct before unlinked
  · obtain rfl | ⟨next, draws, _⟩ := behind.cases_head
    · exact not_fails_of_reaches distinct .refl unlinked
    · exact absurd draws.1 (not_linksTo_of_isUnlinked distinct unlinked)

theorem end_unique {p q r : Place} (chain : TransGen w.Draws p q) (unlinked : w.IsUnlinked q)
    (other : TransGen w.Draws p r) (unlinked' : w.IsUnlinked r) : q = r := by
  obtain before | behind := ReflTransGen.total_of_right_unique (rightUnique_draws distinct)
    chain.to_reflTransGen other.to_reflTransGen
  · obtain same | ⟨next, draws, _⟩ := before.cases_head
    · exact same
    · exact absurd draws.1 (not_linksTo_of_isUnlinked distinct unlinked)
  · obtain same | ⟨next, draws, _⟩ := behind.cases_head
    · exact same.symm
    · exact absurd draws.1 (not_linksTo_of_isUnlinked distinct unlinked')

/-! ## One end for each field -/

theorem ends_of_isUnlinked {p : Place} {own : FieldValue} {value : FieldInput}
    (unlinked : w.IsUnlinked p) (holds : w.Holds p own) (ends : w.Ends p value) :
    value = .given own := by
  have free : ∀ q, ¬w.Draws p q := fun q draws =>
    not_linksTo_of_isUnlinked distinct unlinked draws.1
  have stays : ∀ q, ¬TransGen w.Draws p q := fun q chain => by
    obtain ⟨next, draws⟩ := first_draw chain
    exact free next draws
  cases ends with
  | own _ holds' => rw [holds_unique distinct holds holds']
  | severed severed =>
    exact absurd (.severed severed) (not_fails_of_reaches distinct .refl unlinked)
  | cycle around => exact absurd around (stays p)
  | @upstream r _ _ chain => exact absurd chain (stays r)
  | @drawn r _ chain => exact absurd chain (stays r)

theorem ends_of_severed {p : Place} {reason : BrokenReason} {own : FieldValue}
    {value : FieldInput} (severed : w.Severed p reason) (holds : w.Holds p own)
    (ends : w.Ends p value) : value = .broken reason own := by
  have stays : ∀ q, ¬TransGen w.Draws p q := fun q chain => by
    obtain ⟨next, draws⟩ := first_draw chain
    exact not_draws_of_severed distinct severed draws
  cases ends with
  | own unlinked =>
    exact absurd (.severed severed) (not_fails_of_reaches distinct .refl unlinked)
  | severed severed' holds' =>
    rw [severed_unique distinct severed severed', holds_unique distinct holds holds']
  | cycle around => exact absurd around (stays p)
  | @upstream r _ _ chain => exact absurd chain (stays r)
  | @drawn r _ chain => exact absurd chain (stays r)

/-- The chain of a field has one end. -/
theorem ends_unique {p : Place} {value other : FieldInput} (first : w.Ends p value)
    (second : w.Ends p other) : value = other := by
  cases first with
  | own unlinked holds => exact (ends_of_isUnlinked distinct unlinked holds second).symm
  | severed severed holds => exact (ends_of_severed distinct severed holds second).symm
  | cycle around holds =>
    cases second with
    | own unlinked holds' =>
      exact ends_of_isUnlinked distinct unlinked holds' (.cycle around holds)
    | severed severed holds' =>
      exact ends_of_severed distinct severed holds' (.cycle around holds)
    | cycle _ holds' => rw [holds_unique distinct holds holds']
    | upstream straight => exact absurd around straight
    | drawn chain unlinked =>
      exact absurd (.loop around) (not_fails_of_end distinct chain unlinked around)
  | upstream straight chain fails holds =>
    cases second with
    | own unlinked holds' =>
      exact ends_of_isUnlinked distinct unlinked holds' (.upstream straight chain fails holds)
    | severed severed holds' =>
      exact ends_of_severed distinct severed holds' (.upstream straight chain fails holds)
    | cycle around => exact absurd around straight
    | upstream _ _ _ holds' => rw [holds_unique distinct holds holds']
    | drawn chain' unlinked =>
      exact absurd fails (not_fails_of_end distinct chain' unlinked chain)
  | drawn chain unlinked holds =>
    cases second with
    | own unlinked' holds' =>
      exact ends_of_isUnlinked distinct unlinked' holds' (.drawn chain unlinked holds)
    | severed severed holds' =>
      exact ends_of_severed distinct severed holds' (.drawn chain unlinked holds)
    | cycle around =>
      exact absurd (.loop around) (not_fails_of_end distinct chain unlinked around)
    | upstream _ chain' fails =>
      exact absurd fails (not_fails_of_end distinct chain unlinked chain')
    | drawn chain' unlinked' holds' =>
      obtain rfl := end_unique distinct chain unlinked chain' unlinked'
      rw [holds_unique distinct holds holds']

end

/-- A field without a cycle hands on the end of its target. -/
theorem ends_of_draws {p q : Place} (draws : w.Draws p q) (straight : ¬TransGen w.Draws p p)
    {own : FieldValue} (holds : w.Holds p own) {value : FieldInput} (ends : w.Ends q value) :
    w.Ends p (match value with
      | .given x => .given x
      | .broken _ _ => .broken .upstreamBroken own) := by
  cases ends with
  | own unlinked holdsQ => exact .drawn (.single draws) unlinked holdsQ
  | severed severed => exact .upstream straight (.single draws) (.severed severed) holds
  | cycle around => exact .upstream straight (.single draws) (.loop around) holds
  | upstream _ chain fails => exact .upstream straight (.head draws chain) fails holds
  | drawn chain unlinked holdsR => exact .drawn (.head draws chain) unlinked holdsR

/-! ## Order -/

/-- Two instances differ at most in the order of what they store, and in their cost. -/
structure SameStores (i j : Instance) : Prop where
  id : i.id = j.id
  moduleId : i.moduleId = j.moduleId
  values : i.values.entries.Perm j.values.entries
  links : i.links.entries.Perm j.links.entries

/-- The second workspace is the first one in another order: of its instances, of what each of
them stores, and of its modules. -/
structure Rearranged (w w' : Workspace) : Prop where
  instances : ∃ permuted, w.instances.Perm permuted ∧
    List.Forall₂ SameStores permuted w'.instances
  modules : w.modules.Perm w'.modules

theorem SameStores.symm {i j : Instance} (same : SameStores i j) : SameStores j i :=
  ⟨same.id.symm, same.moduleId.symm, same.values.symm, same.links.symm⟩

theorem SameStores.get?_values {i j : Instance} (same : SameStores i j) (name : String) :
    i.values.get? name = j.values.get? name :=
  Entries.get?_perm i.values.distinct same.values

theorem SameStores.get?_links {i j : Instance} (same : SameStores i j) (name : String) :
    i.links.get? name = j.links.get? name :=
  Entries.get?_perm i.links.distinct same.links

/-- Whatever one workspace holds, the other holds as well. -/
structure Alike (w w' : Workspace) : Prop where
  there : ∀ i ∈ w.instances, ∃ j ∈ w'.instances, SameStores i j
  back : ∀ j ∈ w'.instances, ∃ i ∈ w.instances, SameStores j i
  modules : ∀ m, m ∈ w.modules ↔ m ∈ w'.modules

theorem Alike.symm {w w' : Workspace} (alike : Alike w w') : Alike w' w :=
  ⟨alike.back, alike.there, fun m => (alike.modules m).symm⟩

theorem exists_of_forall₂ {α β : Type} {related : α → β → Prop} {as : List α} {bs : List β}
    (paired : List.Forall₂ related as bs) {a : α} (member : a ∈ as) :
    ∃ b ∈ bs, related a b := by
  induction paired with
  | nil => cases member
  | cons first _ ih =>
    obtain rfl | later := List.mem_cons.mp member
    · exact ⟨_, .head _, first⟩
    · obtain ⟨b, found, same⟩ := ih later
      exact ⟨b, .tail _ found, same⟩

theorem Rearranged.alike {w w' : Workspace} (rearranged : Rearranged w w') : Alike w w' := by
  obtain ⟨permuted, perm, paired⟩ := rearranged.instances
  refine ⟨fun i member => ?_, fun j member => ?_, fun m => rearranged.modules.mem_iff⟩
  · exact exists_of_forall₂ paired (perm.mem_iff.mp member)
  · obtain ⟨i, found, same⟩ := exists_of_forall₂ paired.flip member
    exact ⟨i, perm.mem_iff.mpr found, same.symm⟩

theorem Rearranged.ids {w w' : Workspace} (rearranged : Rearranged w w') :
    (w.instances.map (·.id)).Perm (w'.instances.map (·.id)) := by
  obtain ⟨permuted, perm, paired⟩ := rearranged.instances
  have same : permuted.map (·.id) = w'.instances.map (·.id) := by
    -- the pairing alone relates the two lists from here on
    clear perm
    generalize w'.instances = others at paired
    induction paired with
    | nil => rfl
    | cons first _ ih => rw [List.map_cons, List.map_cons, first.id, ih]
  exact same ▸ perm.map _

section
variable {w' : Workspace} (alike : Alike w w') {p q : Place}
include alike

theorem Alike.hasInstance {id : String} (present : w.HasInstance id) : w'.HasInstance id := by
  obtain ⟨i, member, rfl⟩ := present
  obtain ⟨j, member', same⟩ := alike.there i member
  exact ⟨j, member', same.id.symm⟩

theorem Alike.linksTo (links : w.LinksTo p q) : w'.LinksTo p q := by
  obtain ⟨i, member, id, link⟩ := links
  obtain ⟨j, member', same⟩ := alike.there i member
  exact ⟨j, member', same.id.symm.trans id, (same.get?_links p.name).symm.trans link⟩

theorem Alike.isUnlinked (unlinked : w.IsUnlinked p) : w'.IsUnlinked p := by
  obtain ⟨i, member, id, link⟩ := unlinked
  obtain ⟨j, member', same⟩ := alike.there i member
  exact ⟨j, member', same.id.symm.trans id, (same.get?_links p.name).symm.trans link⟩

theorem Alike.holds {own : FieldValue} (holds : w.Holds p own) : w'.Holds p own := by
  obtain ⟨i, member, id, stored⟩ := holds
  obtain ⟨j, member', same⟩ := alike.there i member
  exact ⟨j, member', same.id.symm.trans id, by rw [← same.get?_values, stored]⟩

theorem Alike.declares (declared : w.Declares p) : w'.Declares p := by
  obtain ⟨i, member, id, m, inModules, moduleId, field⟩ := declared
  obtain ⟨j, member', same⟩ := alike.there i member
  exact ⟨j, member', same.id.symm.trans id, m, (alike.modules m).mp inModules,
    moduleId.trans same.moduleId, field⟩

theorem Alike.chain (chain : TransGen w.Draws p q) : TransGen w'.Draws p q :=
  TransGen.mono (fun _ _ draws => ⟨alike.linksTo draws.1, alike.declares draws.2⟩) p q chain

theorem Alike.severed {reason : BrokenReason} (severed : w.Severed p reason) :
    w'.Severed p reason := by
  cases severed with
  | missingInstance links missing =>
    exact .missingInstance (alike.linksTo links) (mt alike.symm.hasInstance missing)
  | missingTarget links present missing =>
    exact .missingTarget (alike.linksTo links) (alike.hasInstance present)
      (mt alike.symm.declares missing)

theorem Alike.fails (fails : w.Fails p) : w'.Fails p := by
  cases fails with
  | severed severed => exact .severed (alike.severed severed)
  | loop around => exact .loop (alike.chain around)

theorem Alike.ends {value : FieldInput} (ends : w.Ends p value) : w'.Ends p value := by
  cases ends with
  | own unlinked holds => exact .own (alike.isUnlinked unlinked) (alike.holds holds)
  | severed severed holds => exact .severed (alike.severed severed) (alike.holds holds)
  | cycle around holds => exact .cycle (alike.chain around) (alike.holds holds)
  | upstream straight chain fails holds =>
    exact .upstream (mt alike.symm.chain straight) (alike.chain chain) (alike.fails fails)
      (alike.holds holds)
  | drawn chain unlinked holds =>
    exact .drawn (alike.chain chain) (alike.isUnlinked unlinked) (alike.holds holds)

end

end Workspace

end Costing
