import Mathlib.Data.List.Nodup

/-!
# Filling slots in any order

The values of a duplicate-free list arrive in any order, each for the slot of its
position.
-/

namespace Slots

variable {α : Type} [DecidableEq α] {vals seen : List α} {i : Nat} {v : α}

def filled (vals seen : List α) : List (Option α) :=
  vals.map fun v => if v ∈ seen then some v else none

theorem filled_nil (vals : List α) : filled vals [] = List.replicate vals.length none := by
  simp [filled, List.map_const']

theorem filled_fresh (h : vals[i]? = some v) (hfresh : v ∉ seen) :
    (filled vals seen)[i]? = some none := by
  simp [filled, h, hfresh]

/-- **Arrival.** Putting a value into its slot is adding it to the values seen. -/
theorem filled_set (hnodup : vals.Nodup) (h : vals[i]? = some v) :
    (filled vals seen).set i (some v) = filled vals (v :: seen) := by
  apply List.ext_getElem?
  intro j
  rw [List.getElem?_set]
  obtain ⟨hi, hv⟩ := List.getElem?_eq_some_iff.mp h
  split
  · next hij =>
    subst hij
    simp [filled, hi, hv]
  · next hij =>
    simp only [filled, List.getElem?_map]
    cases hj : vals[j]? with
    | none => rfl
    | some w =>
      obtain ⟨hj, hw⟩ := List.getElem?_eq_some_iff.mp hj
      have hne : w ≠ v := by
        rintro rfl
        exact hij ((hnodup.getElem_inj_iff).mp (hv.trans hw.symm))
      simp [hne]

/-- **Completion.** When every value has arrived, every slot holds its value. -/
theorem filled_all (h : ∀ v ∈ vals, v ∈ seen) : filled vals seen = vals.map some := by
  apply List.map_congr_left
  intro v hv
  rw [if_pos (h v hv)]

end Slots
