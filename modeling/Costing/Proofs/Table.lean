import Costing.Table

/-! # Tables through their look-ups

The operations on tables that formulas and links go through, each described by `Table.get?` or by
`Table.contains`:

* `get?_mapValues`, `get?_insertAll_of_nodup`: new values and many entries at once;
* `contains_insert`, `contains_insertAll`, `contains_indexBy`: which keys are present;
* `get?_indexBy_of_mem`, `values_indexBy`: indexes of items whose keys are distinct.
-/

namespace Costing

variable {κ α β : Type} [DecidableEq κ]

/-! ## Lists of entries -/

namespace Entries

theorem get?_of_mem {k : κ} {v : α} {es : List (κ × α)} (distinct : (es.map Prod.fst).Nodup)
    (member : (k, v) ∈ es) : get? k es = some v := by
  induction es with
  | nil => cases member
  | cons e rest ih =>
    obtain ⟨k', v'⟩ := e
    simp only [List.map_cons, List.nodup_cons] at distinct
    rcases List.mem_cons.mp member with same | later
    · cases same; simp [get?]
    · have other : k' ≠ k := fun same => distinct.1 (same ▸ List.mem_map_of_mem later)
      simp only [get?, other, if_false]
      exact ih distinct.2 later

theorem get?_map (f : κ → α → β) (k : κ) (es : List (κ × α)) :
    get? k (es.map fun e => (e.1, f e.1 e.2)) = (get? k es).map (f k) := by
  induction es with
  | nil => rfl
  | cons e rest ih =>
    by_cases same : e.1 = k
    · simp [get?, same]
    · simp [get?, same, ih]

/-- A filter that looks at the keys alone keeps all entries of a key or none. -/
theorem get?_filter (p : κ → Bool) (k : κ) (es : List (κ × α)) :
    get? k (es.filter fun e => p e.1) = if p k then get? k es else none := by
  induction es with
  | nil => simp [get?]
  | cons e rest ih =>
    obtain ⟨k', v⟩ := e
    by_cases same : k' = k
    · subst same
      by_cases kept : p k' = true <;> simp [get?, kept, ih]
    · by_cases kept : p k' = true <;> simp [get?, kept, same, ih]

theorem get?_eq_none_iff {k : κ} {es : List (κ × α)} :
    get? k es = none ↔ k ∉ es.map Prod.fst := by
  rw [← get?_isSome (α := α), Bool.not_eq_true, Option.isSome_eq_false_iff,
    Option.isNone_iff_eq_none]

/-- Entries that are distinct and stand in another order are found all the same. -/
theorem get?_perm {k : κ} {es fs : List (κ × α)} (distinct : (es.map Prod.fst).Nodup)
    (permuted : es.Perm fs) : get? k es = get? k fs := by
  cases found : get? k es with
  | some v =>
    have distinct' := (permuted.map Prod.fst).nodup_iff.mp distinct
    exact (get?_of_mem distinct' (permuted.mem_iff.mp (mem_of_get? found))).symm
  | none =>
    rw [get?_eq_none_iff, (permuted.map Prod.fst).mem_iff] at found
    exact (get?_eq_none_iff.mpr found).symm

end Entries

/-! ## Tables -/

namespace Table

theorem get?_of_mem {t : Table κ α} {k : κ} {v : α} (member : (k, v) ∈ t.entries) :
    t.get? k = some v :=
  Entries.get?_of_mem t.distinct member

theorem contains_of_get? {t : Table κ α} {k : κ} {v : α} (found : t.get? k = some v) :
    t.contains k = true := by
  simp [contains, found]

theorem mem_keys_of_get? {t : Table κ α} {k : κ} {v : α} (found : t.get? k = some v) :
    k ∈ t.keys :=
  contains_iff.mp (contains_of_get? found)

theorem get?_of_not_mem_keys {t : Table κ α} {k : κ} (absent : k ∉ t.keys) : t.get? k = none :=
  Entries.get?_eq_none_iff.mpr absent

theorem get?_mapValues (f : κ → α → β) (t : Table κ α) (k : κ) :
    (t.mapValues f).get? k = (t.get? k).map (f k) :=
  Entries.get?_map f k t.entries

omit [DecidableEq κ] in
theorem keys_mapValues (f : κ → α → β) (t : Table κ α) : (t.mapValues f).keys = t.keys := by
  simp [keys, mapValues, List.map_map, Function.comp_def]

theorem contains_mapValues (f : κ → α → β) (t : Table κ α) (k : κ) :
    (t.mapValues f).contains k = t.contains k := by
  simp [contains, get?_mapValues]

theorem get?_erase (t : Table κ α) (k k' : κ) :
    (t.erase k).get? k' = if k = k' then none else t.get? k' := by
  have filtered : (t.erase k).get? k' = if decide (k' ≠ k) then t.get? k' else none :=
    Entries.get?_filter (fun key => decide (key ≠ k)) k' t.entries
  rw [filtered]
  by_cases same : k = k'
  · simp [same]
  · simp [same, Ne.symm same]

theorem contains_insert (t : Table κ α) (k k' : κ) (v : α) :
    (t.insert k v).contains k' = (decide (k = k') || t.contains k') := by
  by_cases same : k = k' <;> simp [contains, get?_insert, same]

theorem contains_insertAll (t : Table κ α) (es : List (κ × α)) (k : κ) :
    (t.insertAll es).contains k = true ↔ k ∈ es.map Prod.fst ∨ t.contains k = true := by
  induction es generalizing t with
  | nil => simp [insertAll]
  | cons e rest ih =>
    have step : t.insertAll (e :: rest) = (t.insert e.1 e.2).insertAll rest := rfl
    rw [step, ih, contains_insert]
    simp only [Bool.or_eq_true, decide_eq_true_eq, List.map_cons, List.mem_cons, eq_comm (a := k)]
    exact or_left_comm.trans or_assoc.symm

theorem contains_ofList {es : List (κ × α)} {k : κ} :
    (ofList es).contains k = true ↔ k ∈ es.map Prod.fst := by
  rw [ofList, contains_insertAll]
  simp [contains]

theorem contains_indexBy {key : α → κ} {items : List α} {k : κ} :
    (indexBy key items).contains k = true ↔ k ∈ items.map key := by
  rw [indexBy, contains_ofList, List.map_map]
  rfl

/-- Entries with distinct keys are found where they stand. -/
theorem get?_insertAll_of_nodup (t : Table κ α) {es : List (κ × α)}
    (distinct : (es.map Prod.fst).Nodup) (k : κ) :
    (t.insertAll es).get? k = (Entries.get? k es).or (t.get? k) := by
  induction es generalizing t with
  | nil => simp [insertAll, Entries.get?]
  | cons e rest ih =>
    obtain ⟨k', v⟩ := e
    simp only [List.map_cons, List.nodup_cons] at distinct
    have step : t.insertAll ((k', v) :: rest) = (t.insert k' v).insertAll rest := rfl
    rw [step, ih _ distinct.2, get?_insert]
    by_cases same : k' = k
    · have absent : Entries.get? k rest = none :=
        Entries.get?_eq_none_iff.mpr (same ▸ distinct.1)
      simp [Entries.get?, same, absent]
    · simp [Entries.get?, same]

theorem get?_ofList_of_nodup {es : List (κ × α)} (distinct : (es.map Prod.fst).Nodup) (k : κ) :
    (ofList es).get? k = Entries.get? k es := by
  rw [ofList, get?_insertAll_of_nodup _ distinct, get?_empty, Option.or_none]

theorem mem_of_get?_ofList {es : List (κ × α)} {k : κ} {v : α}
    (found : (ofList es).get? k = some v) : (k, v) ∈ es := by
  rw [get?_ofList, Option.map_eq_some_iff] at found
  obtain ⟨e, here, rfl⟩ := found
  have member := List.mem_of_find?_eq_some here
  have key := List.find?_some here
  simp only [List.mem_reverse, decide_eq_true_eq] at member key
  exact key ▸ member

/-- An item is found under its key if no other item has that key. -/
theorem get?_indexBy_of_mem {key : α → κ} {items : List α} (distinct : (items.map key).Nodup)
    {a : α} (member : a ∈ items) : (indexBy key items).get? (key a) = some a := by
  have keys : ((items.map fun i => (key i, i)).map Prod.fst).Nodup := by
    simpa [List.map_map, Function.comp_def] using distinct
  rw [indexBy, get?_ofList_of_nodup keys]
  exact Entries.get?_of_mem keys (List.mem_map.mpr ⟨a, member, rfl⟩)

/-- Items that are changed and keep their keys are found as before. -/
theorem get?_indexBy_map {key : α → κ} (change : α → α) (keeps : ∀ a, key (change a) = key a)
    {items : List α} (k : κ) :
    (indexBy key (items.map change)).get? k = ((indexBy key items).get? k).map change := by
  rw [indexBy, indexBy, get?_ofList, get?_ofList]
  simp only [List.map_map, ← List.map_reverse, List.find?_map, Option.map_map]
  simp [Function.comp_def, keeps]

/-- The values of an index are the items that are found under their own keys. -/
theorem mem_values_indexBy {key : α → κ} {items : List α} {a : α} :
    a ∈ (indexBy key items).values ↔ (indexBy key items).get? (key a) = some a := by
  constructor
  · intro member
    obtain ⟨⟨k, b⟩, entry, rfl⟩ := List.mem_map.mp member
    have found := get?_of_mem entry
    rwa [(mem_of_get?_indexBy found).2]
  · intro found
    exact List.mem_map.mpr ⟨(key a, a), Entries.mem_of_get? found, rfl⟩

theorem get?_indexBy_iff {key : α → κ} {items : List α} (distinct : (items.map key).Nodup) {k : κ}
    {a : α} : (indexBy key items).get? k = some a ↔ a ∈ items ∧ key a = k := by
  constructor
  · exact mem_of_get?_indexBy
  · rintro ⟨member, rfl⟩
    exact get?_indexBy_of_mem distinct member

/-- Items with distinct keys are told apart by them. -/
theorem eq_of_key {key : α → κ} {items : List α} (distinct : (items.map key).Nodup) {a b : α}
    (first : a ∈ items) (second : b ∈ items) (same : key a = key b) : a = b := by
  have found := get?_indexBy_of_mem distinct first
  rw [same, get?_indexBy_of_mem distinct second] at found
  exact (Option.some.inj found).symm

/-- The table of those items that have a value, by their keys. -/
def ofValues {ι : Type} (key : ι → κ) (value : ι → Option α) (items : List ι) : Table κ α :=
  ofList (items.filterMap fun i => (value i).map fun v => (key i, v))

section
variable {ι : Type} {key : ι → κ} {value : ι → Option α} {items : List ι}

theorem mem_keys_ofValues {k : κ} :
    k ∈ (ofValues key value items).keys ↔
      ∃ i ∈ items, (value i).isSome = true ∧ key i = k := by
  rw [← contains_iff, ofValues, contains_ofList, List.mem_map]
  constructor
  · rintro ⟨e, member, rfl⟩
    obtain ⟨i, among, entry⟩ := List.mem_filterMap.mp member
    obtain ⟨v, here, rfl⟩ := Option.map_eq_some_iff.mp entry
    exact ⟨i, among, Option.isSome_iff_exists.mpr ⟨v, here⟩, rfl⟩
  · rintro ⟨i, among, present, rfl⟩
    obtain ⟨v, here⟩ := Option.isSome_iff_exists.mp present
    exact ⟨(key i, v), List.mem_filterMap.mpr ⟨i, among, by rw [here]; rfl⟩, rfl⟩

/-- What is found under the key of an item is its own value. -/
theorem get?_ofValues (distinct : (items.map key).Nodup) {i : ι} (member : i ∈ items) :
    (ofValues key value items).get? (key i) = value i := by
  have listed : ∀ v, (ofValues key value items).get? (key i) = some v → value i = some v := by
    intro v found
    obtain ⟨j, other, entry⟩ := List.mem_filterMap.mp (mem_of_get?_ofList found)
    obtain ⟨w, here, pair⟩ := Option.map_eq_some_iff.mp entry
    obtain ⟨same, rfl⟩ := Prod.mk.inj pair
    rwa [eq_of_key distinct other member same] at here
  cases here : value i with
  | none =>
    refine Option.eq_none_iff_forall_ne_some.mpr fun v found => ?_
    rw [listed v found] at here
    cases here
  | some v =>
    have present : key i ∈ (ofValues key value items).keys :=
      mem_keys_ofValues.mpr ⟨i, member, Option.isSome_iff_exists.mpr ⟨v, here⟩, rfl⟩
    obtain ⟨w, found⟩ := Option.isSome_iff_exists.mp (contains_iff.mpr present)
    rw [found, ← listed w found, here]

end

/-- The first item with a key is the one that is found under it. -/
theorem find?_eq_get?_indexBy [BEq κ] [LawfulBEq κ] {key : α → κ} {items : List α}
    (distinct : (items.map key).Nodup) (k : κ) :
    (items.find? fun a => key a == k) = (indexBy key items).get? k := by
  apply Option.ext
  intro a
  rw [get?_indexBy_iff distinct]
  constructor
  · intro found
    exact ⟨List.mem_of_find?_eq_some found, by simpa using List.find?_some found⟩
  · rintro ⟨member, rfl⟩
    have present : (items.find? fun b => key b == key a).isSome = true :=
      List.find?_isSome.mpr ⟨a, member, beq_self_eq_true _⟩
    obtain ⟨b, found⟩ := Option.isSome_iff_exists.mp present
    have same : key b = key a := by simpa using List.find?_some found
    rw [found, eq_of_key distinct (List.mem_of_find?_eq_some found) member same]

theorem insertAll_entries (t : Table κ α) {es : List (κ × α)}
    (distinct : ((t.entries ++ es).map Prod.fst).Nodup) :
    (t.insertAll es).entries = t.entries ++ es := by
  induction es generalizing t with
  | nil => simp [insertAll]
  | cons e rest ih =>
    -- a key that is not there yet goes to the end
    have fresh : ∀ {entries : List (κ × α)}, e.1 ∉ entries.map Prod.fst →
        Entries.put e.1 e.2 entries = entries ++ [e] := by
      intro entries absent
      induction entries with
      | nil => rfl
      | cons first others ih =>
        simp only [List.map_cons, List.mem_cons, not_or] at absent
        simp [Entries.put, Ne.symm absent.1, ih absent.2]
    have split := distinct
    simp only [List.map_append, List.map_cons, List.nodup_append, List.mem_cons,
      forall_eq_or_imp] at split
    have absent : e.1 ∉ t.entries.map Prod.fst := fun member =>
      (split.2.2 e.1 member).1 rfl
    have entries : (t.insert e.1 e.2).entries = t.entries ++ [e] := fresh absent
    have step : t.insertAll (e :: rest) = (t.insert e.1 e.2).insertAll rest := rfl
    rw [step, ih, entries, List.append_assoc]
    · rfl
    · simpa [entries] using distinct

theorem keys_ofList {es : List (κ × α)} (distinct : (es.map Prod.fst).Nodup) :
    (ofList es).keys = es.map Prod.fst := by
  rw [keys, ofList, insertAll_entries empty (by simpa [empty] using distinct)]
  rfl

/-- The items of an index are all of them if their keys are distinct. -/
theorem values_indexBy {key : α → κ} {items : List α} (distinct : (items.map key).Nodup) :
    (indexBy key items).values = items := by
  have keys : ((items.map fun i => (key i, i)).map Prod.fst).Nodup := by
    simpa [List.map_map, Function.comp_def] using distinct
  have entries : (indexBy key items).entries = items.map fun i => (key i, i) :=
    insertAll_entries empty (by simpa [empty] using keys)
  simp [values, entries, List.map_map, Function.comp_def]

end Table

end Costing
