import Costing.Formula.Suggestion
import Costing.Proofs.Repetition
import Costing.Proofs.Table
import Mathlib.Data.List.Find
import Mathlib.Data.List.Infix
import Mathlib.Data.List.Nodup
import Mathlib.Data.List.TakeWhile

/-! # The order of suggestions

A word sorts the candidates into tiers: the tier of a name is the first one that fits it (`tier?`).
Suggestions are the tiers of all names that contain the word, one behind the other and each in the
order of the candidates (`containing_eq`), and then names that are spelled alike, up to a limit
(`exists_suggest_eq`).  What `Ranked` says of a list of suggestions follows from the two. -/

namespace Costing

/-! ## Close matches -/

namespace Text

/-- Close matches are the front of all texts that are close to the word, in some order. -/
theorem exists_closeMatches_eq (word : String) (texts : List String) (limit : Nat) :
    ∃ close : List String,
      close.Perm (texts.filter fun t => (Likeness.ofTexts t.toList word.toList).isClose) ∧
      closeMatches word texts limit = close.take limit := by
  refine ⟨List.map Prod.snd _, ?_, List.map_take⟩
  refine ((List.mergeSort_perm _ _).map Prod.snd).trans (.of_eq ?_)
  rw [List.filter_map, List.map_map]
  exact List.map_id _

variable {word : String} {texts : List String} {limit : Nat}

theorem nodup_closeMatches (distinct : texts.Nodup) : (closeMatches word texts limit).Nodup := by
  obtain ⟨close, order, same⟩ := exists_closeMatches_eq word texts limit
  rw [same]
  exact ((order.nodup_iff.mpr (distinct.filter _)).sublist (List.take_sublist _ _))

theorem isClose_of_mem_closeMatches {t : String} (member : t ∈ closeMatches word texts limit) :
    t ∈ texts ∧ (Likeness.ofTexts t.toList word.toList).isClose = true := by
  obtain ⟨close, order, same⟩ := exists_closeMatches_eq word texts limit
  rw [same] at member
  exact List.mem_filter.mp (order.mem_iff.mp (List.mem_of_mem_take member))

/-! ## Blank texts -/

theorem lower_eq_empty_iff {s : String} : lower s = "" ↔ s = "" := by
  rw [lower, ← String.toList_eq_nil_iff, ← String.toList_eq_nil_iff, String.toList_ofList]
  cases s.toList with
  | nil => simp [lowerChars]
  | cons c after =>
    have some : smallForm [] c after ≠ [] := by
      fun_cases smallForm [] c after <;> exact List.cons_ne_nil _ _
    simp [lowerChars, some]

theorem strip_eq_empty_iff {s : String} : strip s = "" ↔ isBlankText s = true := by
  rw [strip, ← String.toList_eq_nil_iff, String.toList_ofList, stripChars, List.reverse_eq_nil_iff,
    List.dropWhile_eq_nil_iff, isBlankText, List.all_eq_true]
  simp only [List.mem_reverse]
  constructor
  · intro rest c member
    rw [← List.takeWhile_append_dropWhile (p := isBlank) (l := s.toList)] at member
    obtain front | back := List.mem_append.mp member
    · exact List.all_eq_true.mp List.all_takeWhile c front
    · exact rest c back
  · exact fun blank c back => blank c ((List.dropWhile_suffix isBlank).subset back)

end Text

namespace Formula

/-! ## Tiers -/

/-- The tiers of suggestions. -/
inductive Tier where
  | exact | used | beginning | builtin | inside | alike
deriving DecidableEq

namespace Tier

/-- The place of a tier among all of them. -/
def rank : Tier → Nat
  | .exact => 0
  | .used => 1
  | .beginning => 2
  | .builtin => 3
  | .inside => 4
  | .alike => 5

/-- The tiers of names that contain a word. -/
def ofContaining : List Tier := [.exact, .used, .beginning, .builtin, .inside]

/-- Whether a name has what a tier asks for. -/
def fits (word : List Char) (recent : List String) (name : String) : Tier → Bool
  | .exact => folded name = word
  | .used => name ∈ recent.take Settings.recentLimit ∧ word <:+: folded name
  | .beginning => word <+: folded name
  | .builtin => name ∈ mathNames ∧ word <:+: folded name
  | .inside => word <:+: folded name
  | .alike => (Text.Likeness.ofTexts (folded name) word).isClose

end Tier

/-- The tier of a name: the first that fits it. -/
def tier? (word : List Char) (recent : List String) (name : String) : Option Tier :=
  (Tier.ofContaining ++ [Tier.alike]).find? (Tier.fits word recent name)

/-- The candidates among the recently used names. -/
def usedNames (candidates recent : List String) : List String :=
  ((recent.take Settings.recentLimit).filter (· ∈ candidates)).eraseDups

/-- The names that a tier takes its own from, in their order. -/
def Tier.order (candidates recent : List String) : Tier → List String
  | .used => usedNames candidates recent
  | _ => candidates.eraseDups

/-- The names of a tier in their order. -/
def Tier.members (word : List Char) (candidates recent : List String) (t : Tier) : List String :=
  (t.order candidates recent).filter fun name => tier? word recent name = some t

section
variable {word : List Char} {candidates recent : List String} {name : String} {t : Tier}

theorem mem_usedNames :
    name ∈ usedNames candidates recent ↔
      name ∈ recent.take Settings.recentLimit ∧ name ∈ candidates := by
  simp [usedNames]

theorem Tier.mem_of_mem_order (member : name ∈ t.order candidates recent) : name ∈ candidates := by
  cases t with
  | used => exact (mem_usedNames.mp member).2
  | _ => exact List.mem_eraseDups.mp member

theorem fits_of_tier? (tier : tier? word recent name = some t) :
    t.fits word recent name = true := List.find?_some tier

/-- Every tier but the last takes only names that contain the word. -/
theorem Tier.contains_of_fits (fits : t.fits word recent name = true) (contains : t ≠ .alike) :
    word <:+: folded name := by
  cases t with
  | exact =>
    have same : folded name = word := by simpa [Tier.fits] using fits
    exact same ▸ List.infix_rfl
  | used => exact (by simpa [Tier.fits] using fits : _ ∧ _).2
  | beginning =>
    have front : word <+: folded name := by simpa [Tier.fits] using fits
    exact front.isInfix
  | builtin => exact (by simpa [Tier.fits] using fits : _ ∧ _).2
  | inside => simpa [Tier.fits] using fits
  | alike => exact absurd rfl contains

/-- A name that contains the word is in a tier for such names. -/
theorem exists_tier_of_contains (contains : word <:+: folded name) :
    ∃ t ∈ Tier.ofContaining, tier? word recent name = some t := by
  have present : (Tier.ofContaining.find? (Tier.fits word recent name)).isSome = true :=
    List.find?_isSome.mpr ⟨.inside, by decide, by simpa [Tier.fits] using contains⟩
  obtain ⟨t, found⟩ := Option.isSome_iff_exists.mp present
  refine ⟨t, List.mem_of_find?_eq_some found, ?_⟩
  rw [tier?, List.find?_append, found]
  rfl

/-- A name that does not contain the word can only be spelled alike. -/
theorem tier?_of_not_contains (without : ¬ word <:+: folded name) :
    tier? word recent name = if Tier.alike.fits word recent name then some .alike else none := by
  have none : Tier.ofContaining.find? (Tier.fits word recent name) = none := by
    refine List.find?_eq_none.mpr fun t member fits => without (t.contains_of_fits fits ?_)
    rintro rfl
    exact absurd member (by decide)
  rw [tier?, List.find?_append, none]
  simp

theorem tier?_eq_some_iff (contains : t ∈ Tier.ofContaining) :
    tier? word recent name = some t ↔
      Tier.ofContaining.find? (Tier.fits word recent name) = some t := by
  rw [tier?, List.find?_append]
  cases Tier.ofContaining.find? (Tier.fits word recent name) with
  | some u => simp
  | none =>
    have other : Tier.alike ≠ t := by
      rintro rfl
      exact absurd contains (by decide)
    simp [other]

/-- The names among which the search for a tier looks. -/
def Tier.pool (candidates recent : List String) : Tier → List String
  | .used => (recent.take Settings.recentLimit).filter candidates.eraseDups.contains
  | _ => candidates.eraseDups

theorem Tier.eraseDups_pool : (t.pool candidates recent).eraseDups = t.order candidates recent := by
  cases t with
  | used =>
    rw [Tier.pool, Tier.order, usedNames]
    congr 1
    refine List.filter_congr fun name _ => ?_
    simp
  | _ => exact eraseDups_of_nodup (nodup_eraseDups candidates)

/-- The names of a tier's pool that have what the tier asks for. -/
def Tier.found (word : List Char) (candidates recent : List String) (t : Tier) : List String :=
  (t.pool candidates recent).filter fun name => t.fits word recent name

theorem containing_eq_found :
    containing word candidates.eraseDups
        ((recent.take Settings.recentLimit).filter candidates.eraseDups.contains) =
      (Tier.ofContaining.flatMap (Tier.found word candidates recent)).eraseDups := by
  have inside (name : String) :
      Text.occursIn word (folded name) = decide (word <:+: folded name) := by
    rw [Bool.eq_iff_iff, Text.occursIn_iff, decide_eq_true_eq]
  have beginning (name : String) :
      word.isPrefixOf (folded name) = decide (word <+: folded name) := by
    rw [Bool.eq_iff_iff, List.isPrefixOf_iff_prefix, decide_eq_true_eq]
  have used : ((recent.take Settings.recentLimit).filter candidates.eraseDups.contains).filter
      (fun name => Text.occursIn word (folded name)) = Tier.found word candidates recent .used := by
    refine List.filter_congr fun name member => ?_
    have among : name ∈ recent.take Settings.recentLimit := (List.mem_filter.mp member).1
    simp only [inside, Tier.fits, among, true_and]
  rw [containing]
  dsimp only
  rw [used]
  simp [Tier.ofContaining, Tier.found, Tier.pool, Tier.fits, inside, beginning, beq_eq_decide]

theorem mem_found_iff (candidate : name ∈ candidates) :
    name ∈ t.found word candidates recent ↔ t.fits word recent name = true := by
  cases t with
  | used => simp +contextual [Tier.found, Tier.pool, Tier.fits, candidate]
  | _ => simp [Tier.found, Tier.pool, candidate]

/-- The names that contain a word are ranked tier by tier. -/
theorem containing_eq :
    containing word candidates.eraseDups
        ((recent.take Settings.recentLimit).filter candidates.eraseDups.contains) =
      Tier.ofContaining.flatMap (Tier.members word candidates recent) := by
  rw [containing_eq_found, eraseDups_flatMap _ (by decide)]
  refine List.flatMap_congr fun t contains => ?_
  rw [Tier.found, eraseDups_filter, Tier.eraseDups_pool, List.filter_filter, Tier.members]
  refine List.filter_congr fun name member => ?_
  have candidate := Tier.mem_of_mem_order member
  -- a candidate is found for the tiers that fit it, so both searches stop at the same one
  have search : Tier.ofContaining.find? (fun u => decide (name ∈ u.found word candidates recent)) =
      Tier.ofContaining.find? (Tier.fits word recent name) :=
    List.find?_congr fun u _ => by rw [Bool.eq_iff_iff, decide_eq_true_eq, mem_found_iff candidate]
  rw [search, Bool.eq_iff_iff, Bool.and_eq_true, decide_eq_true_eq, decide_eq_true_eq,
    tier?_eq_some_iff contains]
  exact and_iff_left_of_imp List.find?_some

theorem mem_ranked_iff :
    name ∈ Tier.ofContaining.flatMap (Tier.members word candidates recent) ↔
      name ∈ candidates ∧ word <:+: folded name := by
  rw [List.mem_flatMap]
  constructor
  · rintro ⟨t, containing, member⟩
    obtain ⟨ordered, tier⟩ := List.mem_filter.mp member
    have fits := fits_of_tier? (of_decide_eq_true tier)
    refine ⟨Tier.mem_of_mem_order ordered, t.contains_of_fits fits ?_⟩
    rintro rfl
    exact absurd containing (by decide)
  · rintro ⟨candidate, contains⟩
    obtain ⟨t, containing, tier⟩ : ∃ t ∈ Tier.ofContaining, tier? word recent name = some t :=
      exists_tier_of_contains contains
    have ordered : name ∈ t.order candidates recent := by
      cases t with
      | used =>
        have fits := fits_of_tier? tier
        simp only [Tier.fits, decide_eq_true_eq] at fits
        exact mem_usedNames.mpr ⟨fits.1, candidate⟩
      | _ => exact List.mem_eraseDups.mpr candidate
    exact ⟨t, containing, List.mem_filter.mpr ⟨ordered, decide_eq_true tier⟩⟩

/-! ## Lists in tiers -/

/-- What holds of a list of suggestions for a word that is not blank. -/
structure Ranked (word : List Char) (candidates recent : List String) (limit : Nat)
    (suggested : List String) : Prop where
  tiered : ∀ name ∈ suggested, ∃ t, tier? word recent name = some t
  ascending : suggested.Pairwise fun a b => ∀ s t, tier? word recent a = some s →
    tier? word recent b = some t → s.rank ≤ t.rank
  /-- Of each tier, the last one apart, the first names stand in their order. -/
  ordered : ∀ t ∈ Tier.ofContaining, (suggested.filter fun name =>
    tier? word recent name = some t) <+: t.members word candidates recent
  complete : ∀ name ∈ candidates, word <:+: folded name → name ∉ suggested →
    suggested.length = limit

/-- Lists of names by their tiers. -/
def InTiers (word : List Char) (recent : List String) (list : Tier → List String) : Prop :=
  ∀ t, ∀ name ∈ list t, tier? word recent name = some t

namespace InTiers

variable {list : Tier → List String}

theorem ascending (tiers : InTiers word recent list) {order : List Tier}
    (ranks : order.Pairwise fun s t => s.rank ≤ t.rank) :
    (order.flatMap list).Pairwise fun a b => ∀ s t, tier? word recent a = some s →
      tier? word recent b = some t → s.rank ≤ t.rank := by
  refine List.pairwise_flatMap.mpr ⟨fun u _ => ?_, ranks.imp fun before a left b right s t => ?_⟩
  · refine List.pairwise_of_forall_mem_list fun a left b right s t => ?_
    rw [tiers u a left, tiers u b right]
    rintro ⟨⟩ ⟨⟩
    exact Nat.le_refl _
  · rw [tiers _ a left, tiers _ b right]
    rintro ⟨⟩ ⟨⟩
    exact before

/-- The names of a tier are its list. -/
theorem filter_flatMap (tiers : InTiers word recent list) {order : List Tier}
    (distinct : order.Nodup) (member : t ∈ order) :
    ((order.flatMap list).filter fun name => tier? word recent name = some t) = list t := by
  have other (u : Tier) (apart : u ≠ t) :
      ((list u).filter fun name => tier? word recent name = some t) = [] :=
    List.filter_eq_nil_iff.mpr fun name inside => by simp [tiers u name inside, apart]
  have own : ((list t).filter fun name => tier? word recent name = some t) = list t :=
    List.filter_eq_self.mpr fun name inside => by simp [tiers t name inside]
  induction order with
  | nil => cases member
  | cons u order ih =>
    obtain ⟨absent, distinct⟩ := List.nodup_cons.mp distinct
    rw [List.flatMap_cons, List.filter_append]
    obtain rfl | later := List.mem_cons.mp member
    · have rest :
          ((order.flatMap list).filter fun name => tier? word recent name = some t) = [] := by
        rw [List.filter_flatMap, List.flatMap_eq_nil_iff]
        exact fun v later => other v fun same => absent (same ▸ later)
      rw [own, rest, List.append_nil]
    · rw [other u fun same => absent (same ▸ later), List.nil_append, ih distinct later]

end InTiers

/-- The list of each tier, given the one of the names that are spelled alike. -/
def Tier.shown (word : List Char) (candidates recent close : List String) : Tier → List String
  | .alike => close
  | t => t.members word candidates recent

variable {close : List String}

theorem inTiers_shown (alike : ∀ name ∈ close, tier? word recent name = some .alike) :
    InTiers word recent (Tier.shown word candidates recent close) := by
  intro t name member
  cases t with
  | alike => exact alike name member
  | _ => exact of_decide_eq_true (List.mem_filter.mp member).2

theorem flatMap_shown :
    (Tier.ofContaining ++ [Tier.alike]).flatMap (Tier.shown word candidates recent close) =
      Tier.ofContaining.flatMap (Tier.members word candidates recent) ++ close := by
  simp [Tier.ofContaining, Tier.shown]

/-- The front of the tiers and of names that are spelled alike is ranked. -/
theorem ranked_take (alike : ∀ name ∈ close, tier? word recent name = some .alike) (limit : Nat) :
    Ranked word candidates recent limit
      ((Tier.ofContaining.flatMap (Tier.members word candidates recent) ++ close).take limit) := by
  have tiers : InTiers word recent (Tier.shown word candidates recent close) := inTiers_shown alike
  have front := List.take_prefix limit
    (Tier.ofContaining.flatMap (Tier.members word candidates recent) ++ close)
  rw [← flatMap_shown] at front ⊢
  constructor
  · intro name member
    obtain ⟨t, -, shown⟩ := List.mem_flatMap.mp (front.subset member)
    exact ⟨t, tiers t name shown⟩
  · exact (tiers.ascending (by decide)).sublist front.sublist
  · intro t containing
    -- the names of a tier in the front are the front of its names
    have distinct : (Tier.ofContaining ++ [Tier.alike]).Nodup := by decide
    have own := tiers.filter_flatMap distinct (List.mem_append_left _ containing)
    have listed : t.shown word candidates recent close = t.members word candidates recent := by
      cases t with
      | alike => exact absurd containing (by decide)
      | _ => rfl
    rw [← listed, ← own]
    exact front.filter _
  · intro name candidate contains missing
    rw [flatMap_shown] at missing ⊢
    rw [List.length_take]
    -- a list that ends before the limit is shown as a whole
    by_contra short
    rw [List.take_of_length_le (by omega)] at missing
    exact missing (List.mem_append_left _ (mem_ranked_iff.mpr ⟨candidate, contains⟩))

end

/-! ## Suggestions -/

section
variable {word name : String} {others candidates recent : List String} {limit : Nat}

theorem mem_alike (member : name ∈ alike word others limit) :
    name ∈ others ∧ (Text.Likeness.ofTexts (folded name) word.toList).isClose = true := by
  obtain ⟨key, close, found⟩ := List.mem_filterMap.mp member
  obtain ⟨other, rfl⟩ := Table.mem_of_get?_indexBy found
  exact ⟨other, (Text.isClose_of_mem_closeMatches close).2⟩

theorem nodup_alike : (alike word others limit).Nodup := by
  refine List.Nodup.filterMap (fun key key' a found found' => ?_)
    (Text.nodup_closeMatches (Table.distinct _))
  -- a name is found under its own lower case only
  rw [← (Table.mem_of_get?_indexBy found).2, ← (Table.mem_of_get?_indexBy found').2]

/-- What is looked for in the candidates. -/
def needle (word : String) : String := Text.lower (Text.strip word)

theorem needle_eq_empty_iff : needle word = "" ↔ Text.isBlankText word = true := by
  rw [needle, Text.lower_eq_empty_iff, Text.strip_eq_empty_iff]

/-- The suggestions for a word that is not blank. -/
theorem exists_suggest_eq (sought : needle word ≠ "") (candidates recent : List String)
    (limit : Nat) : ∃ close : List String, close.Nodup ∧
      (∀ name ∈ close, name ∈ candidates ∧ ¬ (needle word).toList <:+: folded name ∧
        tier? (needle word).toList recent name = some .alike) ∧
      suggest word candidates recent limit = (Tier.ofContaining.flatMap
        (Tier.members (needle word).toList candidates recent) ++ close).take limit := by
  unfold needle at sought ⊢
  unfold suggest
  dsimp only
  rw [if_neg sought, containing_eq, takeFront_natCast, takeFront_natCast]
  split
  · refine ⟨_, nodup_alike, fun name member => ?_, rfl⟩
    obtain ⟨other, close⟩ := mem_alike member
    obtain ⟨candidate, fresh⟩ := List.mem_filter.mp other
    have listed := List.mem_eraseDups.mp candidate
    rw [Bool.not_eq_true', ← Bool.not_eq_true, List.contains_iff_mem, mem_ranked_iff] at fresh
    have without := fun contains => fresh ⟨listed, contains⟩
    refine ⟨listed, without, ?_⟩
    rw [tier?_of_not_contains without]
    exact if_pos close
  · exact ⟨[], List.nodup_nil, nofun, by rw [List.append_nil]⟩

/-- The suggestions for a blank word. -/
theorem suggest_of_blank (blank : needle word = "") (candidates recent : List String)
    (limit : Nat) :
    suggest word candidates recent limit =
      (usedNames candidates recent ++
        candidates.eraseDups.filter (· ∉ usedNames candidates recent)).take limit := by
  let pool := Tier.pool candidates recent .used
  have used : pool.eraseDups = usedNames candidates recent := Tier.eraseDups_pool
  have others : (candidates.eraseDups.removeAll pool).eraseDups =
      candidates.eraseDups.filter (· ∉ usedNames candidates recent) := by
    rw [List.removeAll, eraseDups_of_nodup ((nodup_eraseDups candidates).filter _), ← used]
    exact List.filter_congr fun name _ => by simp
  unfold needle at blank
  unfold suggest
  dsimp only
  rw [if_pos blank, takeFront_natCast, List.eraseDups_append, ← others, ← used]
  rfl

end

/-- Suggestions are candidates without repetitions and not more than asked for.  For a word that is
not blank they are ranked by tiers, and a candidate that contains the word is left out only where
the limit is reached.  For a blank word they are the first of the recently used candidates and then
of the others. -/
theorem suggestions_are_ranked (word : String) (candidates recent : List String) (limit : Nat) :
    (suggest word candidates recent limit).Nodup ∧
    (suggest word candidates recent limit).length ≤ limit ∧
    (∀ name ∈ suggest word candidates recent limit, name ∈ candidates) ∧
    (Text.isBlankText word = false → Ranked (needle word).toList candidates recent limit
      (suggest word candidates recent limit)) ∧
    (Text.isBlankText word = true → suggest word candidates recent limit =
      (usedNames candidates recent ++
        candidates.eraseDups.filter (· ∉ usedNames candidates recent)).take limit) := by
  cases blank : Text.isBlankText word with
  | true =>
    have same := suggest_of_blank (needle_eq_empty_iff.mpr blank) candidates recent limit
    rw [same]
    refine ⟨List.Nodup.sublist (List.take_sublist ..) ?_, List.length_take_le ..,
      fun name member => ?_, nofun, fun _ => rfl⟩
    · refine List.nodup_append.mpr
        ⟨nodup_eraseDups _, (nodup_eraseDups candidates).filter _, fun a used => ?_⟩
      rintro b other rfl
      exact of_decide_eq_true (List.mem_filter.mp other).2 used
    · obtain used | other := List.mem_append.mp (List.mem_of_mem_take member)
      · exact (mem_usedNames.mp used).2
      · exact List.mem_eraseDups.mp (List.mem_filter.mp other).1
  | false =>
    have sought : needle word ≠ "" := by simp [needle_eq_empty_iff, blank]
    obtain ⟨close, distinct, alike, same⟩ := exists_suggest_eq sought candidates recent limit
    rw [same]
    refine ⟨List.Nodup.sublist (List.take_sublist ..) ?_, List.length_take_le ..,
      fun name member => ?_,
      fun _ => ranked_take (fun name member => (alike name member).2.2) limit, nofun⟩
    · refine List.nodup_append.mpr ⟨?_, distinct, fun a ranked => ?_⟩
      · rw [← containing_eq]
        exact nodup_eraseDups _
      · rintro b other rfl
        exact (alike a other).2.1 (mem_ranked_iff.mp ranked).2
    · obtain ranked | other := List.mem_append.mp (List.mem_of_mem_take member)
      · exact (mem_ranked_iff.mp ranked).1
      · exact (alike name other).1

/-- Names for the tiers of the word `in`, one of them twice. -/
def trimNames : List String := ["line", "sin", "inner", "i_n", "In", "main", "min", "line"]

/-- All tiers hold a name here: `i_n` only looks like the word. -/
theorem suggestions_are_ranked_in :
    Text.isBlankText " In " = false ∧ Text.isBlankText " " = true ∧
    Ranked "in".toList trimNames ["main", "gone", "main"] 10
      ["In", "main", "inner", "sin", "min", "line", "i_n"] ∧
    suggest " " trimNames ["main", "gone", "main"] 3 = ["main", "line", "sin"] := by
  have found : suggest " In " trimNames ["main", "gone", "main"] 10 =
      ["In", "main", "inner", "sin", "min", "line", "i_n"] := by decide +kernel
  have listed :=
    (suggestions_are_ranked " " trimNames ["main", "gone", "main"] 3).2.2.2.2 (by decide)
  obtain ⟨-, -, -, ranked, -⟩ := suggestions_are_ranked " In " trimNames ["main", "gone", "main"] 10
  have sought : needle " In " = "in" := by decide +kernel
  have here := ranked (by decide)
  rw [sought] at here
  refine ⟨by decide, by decide, ?_, ?_⟩
  · exact found ▸ here
  · exact listed.trans (by decide +kernel)

end Formula

end Costing
