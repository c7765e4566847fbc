/-! # Tables that keep the order of arrival

A table holds at most one value for a key and remembers the order in which its keys first
arrived.  Storing under a key that is present replaces the value and moves nothing; a new key
goes to the end.  The view of a table is its list of entries, and every operation is described
through `get?` and `keys`. -/

namespace Costing

variable {κ α β : Type} [DecidableEq κ]

/-! ## Lists of entries -/

namespace Entries

def get? (k : κ) : List (κ × α) → Option α
  | [] => none
  | (k', v) :: rest => if k' = k then some v else get? k rest

/-- Stores a value: in the place of the key if it is present, at the end otherwise. -/
def put (k : κ) (v : α) : List (κ × α) → List (κ × α)
  | [] => [(k, v)]
  | (k', v') :: rest => if k' = k then (k, v) :: rest else (k', v') :: put k v rest

theorem keys_put (k : κ) (v : α) (es : List (κ × α)) :
    (put k v es).map Prod.fst =
      if k ∈ es.map Prod.fst then es.map Prod.fst else es.map Prod.fst ++ [k] := by
  induction es with
  | nil => simp [put]
  | cons e rest ih =>
    obtain ⟨k', v'⟩ := e
    by_cases h : k' = k
    · simp [put, h]
    · have h' : ¬ k = k' := fun e => h e.symm
      simp only [put, h, if_false, List.map_cons, ih, List.mem_cons, h', false_or]
      split <;> simp

theorem nodup_put (k : κ) (v : α) {es : List (κ × α)} (h : (es.map Prod.fst).Nodup) :
    ((put k v es).map Prod.fst).Nodup := by
  rw [keys_put]
  split
  · exact h
  · next hk =>
    rw [List.nodup_append]
    refine ⟨h, by simp, fun a ha b hb e => ?_⟩
    simp only [List.mem_singleton] at hb
    exact hk (hb ▸ e ▸ ha)

theorem get?_put (k k' : κ) (v : α) (es : List (κ × α)) :
    get? k' (put k v es) = if k = k' then some v else get? k' es := by
  induction es with
  | nil => simp [put, get?]
  | cons e rest ih =>
    obtain ⟨k₀, v₀⟩ := e
    by_cases h : k₀ = k
    · subst h; by_cases h' : k₀ = k' <;> simp [put, get?, h']
    · by_cases h' : k₀ = k'
      · subst h'
        simp only [put, get?, h, if_false, if_true]
        exact (if_neg fun e : k = k₀ => h e.symm).symm
      · simp [put, get?, h, h', ih]

theorem get?_isSome {k : κ} {es : List (κ × α)} :
    (get? k es).isSome = true ↔ k ∈ es.map Prod.fst := by
  induction es with
  | nil => simp [get?]
  | cons e rest ih =>
    obtain ⟨k', v⟩ := e
    by_cases h : k' = k
    · simp [get?, h]
    · simp only [get?, h, if_false, ih, List.map_cons, List.mem_cons]
      exact ⟨Or.inr, fun o => o.resolve_left fun e => h e.symm⟩

theorem mem_of_get? {k : κ} {v : α} {es : List (κ × α)} (h : get? k es = some v) :
    (k, v) ∈ es := by
  induction es with
  | nil => simp [get?] at h
  | cons e rest ih =>
    obtain ⟨k', v'⟩ := e
    by_cases hk : k' = k
    · simp only [get?, hk, if_true, Option.some.injEq] at h
      simp [hk, h]
    · simp only [get?, hk, if_false] at h
      exact List.mem_cons_of_mem _ (ih h)

end Entries

/-! ## Tables -/

/-- Entries in order of arrival, at most one for each key. -/
structure Table (κ α : Type) where
  entries : List (κ × α)
  distinct : (entries.map Prod.fst).Nodup

namespace Table

def empty : Table κ α := ⟨[], by simp⟩

instance : EmptyCollection (Table κ α) := ⟨empty⟩
instance : Inhabited (Table κ α) := ⟨empty⟩

def keys (t : Table κ α) : List κ := t.entries.map Prod.fst

/-- The values in the order of their keys. -/
def values (t : Table κ α) : List α := t.entries.map Prod.snd

def get? (t : Table κ α) (k : κ) : Option α := Entries.get? k t.entries

/-- Whether a value is stored under a key. -/
def contains (t : Table κ α) (k : κ) : Bool := (t.get? k).isSome

def insert (t : Table κ α) (k : κ) (v : α) : Table κ α :=
  ⟨Entries.put k v t.entries, Entries.nodup_put k v t.distinct⟩

/-- Stores all entries of a list, one after the other. -/
def insertAll (t : Table κ α) (es : List (κ × α)) : Table κ α :=
  es.foldl (fun t e => t.insert e.1 e.2) t

/-- The table of a list of entries; of several values for one key the last counts. -/
def ofList (es : List (κ × α)) : Table κ α := empty.insertAll es

/-- The table of items by a key that each of them carries. -/
def indexBy (key : α → κ) (items : List α) : Table κ α := ofList (items.map fun i => (key i, i))

/-- A table without the entry for a key. -/
def erase (t : Table κ α) (k : κ) : Table κ α :=
  ⟨t.entries.filter (fun e => e.1 ≠ k),
    List.Sublist.nodup (List.Sublist.map Prod.fst List.filter_sublist) t.distinct⟩

def mapValues (f : κ → α → β) (t : Table κ α) : Table κ β :=
  ⟨t.entries.map fun e => (e.1, f e.1 e.2), by
    simpa [List.map_map, Function.comp_def] using t.distinct⟩

@[simp] theorem get?_empty (k : κ) : (empty : Table κ α).get? k = none := rfl

theorem get?_insert (t : Table κ α) (k k' : κ) (v : α) :
    (t.insert k v).get? k' = if k = k' then some v else t.get? k' :=
  Entries.get?_put k k' v t.entries

theorem get?_insertAll (t : Table κ α) (es : List (κ × α)) (k : κ) :
    (t.insertAll es).get? k = ((es.reverse.find? fun e => e.1 = k).map Prod.snd).or (t.get? k) := by
  induction es generalizing t with
  | nil => simp [insertAll]
  | cons e rest ih =>
    have step : t.insertAll (e :: rest) = (t.insert e.1 e.2).insertAll rest := rfl
    rw [step, ih, get?_insert, List.reverse_cons, List.find?_append]
    cases h : rest.reverse.find? (fun e => e.1 = k) with
    | some x => simp
    | none => by_cases hk : e.1 = k <;> simp [hk]

/-- Of several entries with one key the last counts. -/
theorem get?_ofList (es : List (κ × α)) (k : κ) :
    (ofList es).get? k = (es.reverse.find? fun e => e.1 = k).map Prod.snd := by
  rw [ofList, get?_insertAll, get?_empty, Option.or_none]

/-- What is found under a key is one of the items and carries that key. -/
theorem mem_of_get?_indexBy {key : α → κ} {items : List α} {k : κ} {a : α}
    (h : (indexBy key items).get? k = some a) : a ∈ items ∧ key a = k := by
  rw [indexBy, get?_ofList, Option.map_eq_some_iff] at h
  obtain ⟨e, he, rfl⟩ := h
  have hmem := List.mem_of_find?_eq_some he
  have hkey := List.find?_some he
  simp only [List.mem_reverse, List.mem_map] at hmem
  obtain ⟨b, hb, rfl⟩ := hmem
  exact ⟨hb, by simpa using hkey⟩

theorem keys_insert (t : Table κ α) (k : κ) (v : α) :
    (t.insert k v).keys = if k ∈ t.keys then t.keys else t.keys ++ [k] :=
  Entries.keys_put k v t.entries

theorem contains_iff {t : Table κ α} {k : κ} : t.contains k = true ↔ k ∈ t.keys :=
  Entries.get?_isSome

end Table

end Costing
