/-! # Computations that may stop

What the steps of a computation came to, read off its result. -/

namespace Costing

variable {ε ε' α β : Type}

theorem bind_eq_ok_iff {x : Except ε α} {f : α → Except ε β} {b : β} :
    (x >>= f) = .ok b ↔ ∃ a, x = .ok a ∧ f a = .ok b := by
  cases x <;> simp [bind, Except.bind]

theorem bind_eq_error_iff {x : Except ε α} {f : α → Except ε β} {e : ε} :
    (x >>= f) = .error e ↔ x = .error e ∨ ∃ a, x = .ok a ∧ f a = .error e := by
  cases x <;> simp [bind, Except.bind]

theorem map_eq_ok_iff {x : Except ε α} {f : α → β} {b : β} :
    x.map f = .ok b ↔ ∃ a, x = .ok a ∧ f a = b := by
  cases x <;> simp [Except.map]

theorem map_eq_error_iff {x : Except ε α} {f : α → β} {e : ε} :
    x.map f = .error e ↔ x = .error e := by
  cases x <;> simp [Except.map]

theorem mapError_eq_ok_iff {x : Except ε α} {f : ε → ε'} {a : α} :
    x.mapError f = .ok a ↔ x = .ok a := by
  cases x with
  | ok b =>
    show (Except.ok b : Except ε' α) = .ok a ↔ _
    simp
  | error d =>
    show (Except.error (f d) : Except ε' α) = .ok a ↔ _
    simp

theorem mapError_eq_error_iff {x : Except ε α} {f : ε → ε'} {e : ε'} :
    x.mapError f = .error e ↔ ∃ d, x = .error d ∧ f d = e := by
  cases x with
  | ok b =>
    show (Except.ok b : Except ε' α) = .error e ↔ _
    simp
  | error d =>
    show (Except.error (f d) : Except ε' α) = .error e ↔ _
    simp

theorem toOption_eq_some_iff {x : Except ε α} {a : α} : x.toOption = some a ↔ x = .ok a := by
  cases x <;> simp [Except.toOption]

/-- A computation on given data is run once to check its result. -/
theorem exists_ok_of_check {x : Except ε α} {check : α → Bool}
    (checked : (x.map check).toOption = some true) : ∃ a, x = .ok a ∧ check a = true :=
  map_eq_ok_iff.mp (toOption_eq_some_iff.mp checked)

theorem toOption_bind (x : Except ε α) (f : α → Except ε β) :
    (x >>= f).toOption = x.toOption.bind fun a => (f a).toOption := by
  cases x <;> rfl

theorem toOption_mapError (x : Except ε α) (f : ε → ε') :
    (x.mapError f).toOption = x.toOption := by
  cases x <;> rfl

/-- Items that are all handled one after the other are handled each. -/
theorem ok_of_mapM {f : α → Except ε β} {items : List α} {results : List β}
    (handled : items.mapM f = .ok results) : ∀ a ∈ items, ∃ b, f a = .ok b := by
  induction items generalizing results with
  | nil => intro a member; cases member
  | cons first rest ih =>
    simp only [List.mapM_cons, bind_eq_ok_iff] at handled
    obtain ⟨b, head, others, tail, _⟩ := handled
    intro a member
    rcases List.mem_cons.mp member with rfl | later
    · exact ⟨b, head⟩
    · exact ih tail a later

theorem exists_mapM {f : α → Except ε β} {items : List α} (each : ∀ a ∈ items, ∃ b, f a = .ok b) :
    ∃ results, items.mapM f = .ok results := by
  induction items with
  | nil => exact ⟨[], rfl⟩
  | cons first rest ih =>
    obtain ⟨b, head⟩ := each first (.head _)
    obtain ⟨results, tail⟩ := ih fun a later => each a (.tail _ later)
    refine ⟨b :: results, ?_⟩
    rw [List.mapM_cons, bind_eq_ok_iff]
    exact ⟨b, head, bind_eq_ok_iff.mpr ⟨results, tail, rfl⟩⟩

theorem exists_error_of_mapM {f : α → Except ε β} {items : List α} {e : ε}
    (failed : items.mapM f = .error e) : ∃ a ∈ items, f a = .error e := by
  induction items with
  | nil => cases failed
  | cons first rest ih =>
    simp only [List.mapM_cons, bind_eq_error_iff] at failed
    obtain head | ⟨_, _, tail | ⟨_, _, made⟩⟩ := failed
    · exact ⟨first, .head _, head⟩
    · obtain ⟨a, member, found⟩ := ih tail
      exact ⟨a, .tail _ member, found⟩
    · cases made

end Costing
