import Mathlib.Data.List.Basic

/-! # Lists without repetitions

Of equal items `List.eraseDups` keeps the first.  So of several lists one behind the other, every
item is kept where it stands in the first list that holds it (`eraseDups_flatMap`). -/

namespace Costing

variable {α ι : Type} [DecidableEq α] [DecidableEq ι]

theorem eraseDups_filter (p : α → Bool) (items : List α) :
    (items.filter p).eraseDups = items.eraseDups.filter p := by
  match items with
  | [] => rfl
  | a :: rest =>
    have shorter := List.length_filter_le (fun b => !b == a) rest
    have inner := eraseDups_filter p (rest.filter fun b => !b == a)
    rw [List.eraseDups_cons]
    by_cases kept : p a = true
    · rw [List.filter_cons_of_pos kept, List.filter_cons_of_pos kept, List.eraseDups_cons, ← inner,
        List.filter_filter, List.filter_filter]
      simp only [Bool.and_comm]
    · -- what is kept is not the item that is left out
      have same : (rest.filter fun b => !b == a).filter p = rest.filter p := by
        rw [List.filter_filter]
        refine List.filter_congr fun b _ => ?_
        by_cases equal : b = a <;> simp [equal, kept]
      rw [List.filter_cons_of_neg kept, List.filter_cons_of_neg kept, ← inner, same]
termination_by items.length
decreasing_by exact Nat.lt_succ_of_le shorter

theorem nodup_eraseDups (items : List α) : items.eraseDups.Nodup := by
  match items with
  | [] => exact List.nodup_nil
  | a :: rest =>
    have shorter := List.length_filter_le (fun b => !b == a) rest
    rw [List.eraseDups_cons, List.nodup_cons]
    refine ⟨?_, nodup_eraseDups _⟩
    simp
termination_by items.length
decreasing_by exact Nat.lt_succ_of_le shorter

theorem eraseDups_of_nodup {items : List α} (distinct : items.Nodup) : items.eraseDups = items := by
  induction items with
  | nil => rfl
  | cons a rest ih =>
    obtain ⟨absent, distinct⟩ := List.nodup_cons.mp distinct
    have others : (rest.filter fun b => !b == a) = rest :=
      List.filter_eq_self.mpr fun b member => by
        simpa using fun same : b = a => absent (same ▸ member)
    rw [List.eraseDups_cons, others, ih distinct]

/-- Every item of several lists is kept where it stands in the first list that holds it. -/
theorem eraseDups_flatMap (list : ι → List α) {order : List ι} (distinct : order.Nodup) :
    (order.flatMap list).eraseDups = order.flatMap fun i =>
      (list i).eraseDups.filter fun a => order.find? (fun j => decide (a ∈ list j)) = some i := by
  induction order with
  | nil => rfl
  | cons i order ih =>
    obtain ⟨absent, distinct⟩ := List.nodup_cons.mp distinct
    have first : ((list i).eraseDups.filter fun a =>
        (i :: order).find? (fun j => decide (a ∈ list j)) = some i) = (list i).eraseDups :=
      List.filter_eq_self.mpr fun a member => by simp [List.mem_eraseDups.mp member]
    rw [List.flatMap_cons, List.eraseDups_append, List.flatMap_cons, first, List.removeAll,
      eraseDups_filter, ih distinct, List.filter_flatMap]
    congr 1
    -- behind the first list stays what that list does not hold
    refine List.flatMap_congr fun j later => ?_
    rw [List.filter_filter]
    refine List.filter_congr fun a _ => ?_
    by_cases held : a ∈ list i
    · have other : i ≠ j := fun same => absent (same ▸ later)
      simp [held, other]
    · simp [held]

end Costing
