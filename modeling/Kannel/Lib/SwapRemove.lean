import Mathlib.Tactic

/-!
# Removal by moving the last item

The last item is moved into the hole. `sweep` removes the marked items in one pass, and stops
early once all are found.
-/

namespace SwapRemove
open List
variable {α : Type}

def swapRemove (l : List α) (i : Nat) : List α :=
  match l.getLast? with
  | none => l
  | some last => if i + 1 = l.length then l.dropLast else (l.set i last).dropLast

variable {front back : List α}

theorem swapRemove_append {a last : α} :
    swapRemove (front ++ a :: (back ++ [last])) front.length = front ++ last :: back := by
  have hlast : (front ++ a :: (back ++ [last])).getLast? = some last := by
    rw [← cons_append, ← append_assoc, List.getLast?_concat]
  have hset : (front ++ a :: (back ++ [last])).set front.length last =
    front ++ last :: (back ++ [last]) := by simp
  have hdrop : (front ++ last :: (back ++ [last])).dropLast = front ++ last :: back := by
    rw [← cons_append, ← append_assoc, dropLast_concat]
  rw [swapRemove, hlast]
  dsimp only
  rw [if_neg (by simp), hset, hdrop]

theorem swapRemove_last {front : List α} {a : α} :
    swapRemove (front ++ [a]) front.length = front := by
  rw [swapRemove, List.getLast?_concat]
  dsimp only
  rw [if_pos (by simp), dropLast_concat]

theorem split_at {l : List α} {i : Nat} {a : α} (h : l[i]? = some a) :
    ∃ front back, l = front ++ a :: back ∧ front.length = i := by
  obtain ⟨hi, rfl⟩ := List.getElem?_eq_some_iff.mp h
  refine ⟨l.take i, l.drop (i + 1), ?_, ?_⟩
  · rw [← drop_eq_getElem_cons hi, take_append_drop]
  · rw [length_take]
    omega

theorem swapRemove_split (front back : List α) (a : α) :
    ∃ rest, swapRemove (front ++ a :: back) front.length = front ++ rest ∧ rest.Perm back := by
  rcases eq_nil_or_concat back with rfl | ⟨back, last, rfl⟩
  · exact ⟨[], by rw [swapRemove_last, append_nil], Perm.nil⟩
  · refine ⟨last :: back, ?_, ?_⟩
    · rw [concat_eq_append, swapRemove_append]
    · rw [concat_eq_append]
      exact (perm_append_singleton last back).symm

def sweep (marked : α → Bool) : Nat → Nat → List α → Nat → List α × Nat
  | 0, _, l, k => (l, k)
  | n+1, i, l, k =>
    match l[i]? with
    | none => (l, k)
    | some a =>
      if k = 0 then (l, k)
      else if marked a then sweep marked n i (swapRemove l i) (k - 1)
      else sweep marked n (i + 1) l k

/-- **The sweep.** If all marked items are counted, all of them go, and only they. -/
theorem sweep_spec {marked : α → Bool} {n k : Nat} (hfront : ∀ a ∈ front, marked a = false)
    (hn : back.length ≤ n) (hk : back.countP marked ≤ k) :
    (sweep marked n front.length (front ++ back) k).1.Perm
        ((front ++ back).filter fun a => ! marked a) ∧
      (sweep marked n front.length (front ++ back) k).2 + back.countP marked = k := by
  have hkeep : ∀ l : List α, (∀ a ∈ l, marked a = false) → l.filter (fun a => ! marked a) = l := by
    intro l hl
    exact filter_eq_self.mpr fun a ha => by simp [hl a ha]
  induction n generalizing front back k with
  | zero =>
    obtain rfl := length_eq_zero_iff.mp (Nat.le_zero.mp hn)
    rw [append_nil, hkeep front hfront]
    exact ⟨Perm.refl _, by simp [sweep]⟩
  | succ n ih =>
    unfold sweep
    cases back with
    | nil =>
      rw [append_nil, List.getElem?_eq_none (Nat.le_refl _), hkeep front hfront]
      exact ⟨Perm.refl _, by simp⟩
    | cons a back =>
      have hitem : (front ++ a :: back)[front.length]? = some a := by simp
      rw [hitem]
      dsimp only
      by_cases hzero : k = 0
      · -- nothing is missing, so nothing is marked
        have hnone : ∀ b ∈ a :: back, marked b = false := by
          intro b hb
          have hcount : (a :: back).countP marked = 0 := by omega
          simpa using countP_eq_zero.mp hcount b hb
        have hall : ∀ b ∈ front ++ a :: back, marked b = false := by
          intro b hb
          rcases mem_append.mp hb with hb | hb
          · exact hfront b hb
          · exact hnone b hb
        rw [if_pos hzero, hkeep _ hall]
        exact ⟨Perm.refl _, by omega⟩
      · rw [if_neg hzero]
        by_cases hmarked : marked a = true
        · rw [if_pos hmarked]
          obtain ⟨rest, hrest, hperm⟩ := swapRemove_split front back a
          rw [countP_cons_of_pos hmarked] at hk ⊢
          have hcount : rest.countP marked = back.countP marked := hperm.countP_eq marked
          have hlen : rest.length = back.length := hperm.length_eq
          rw [length_cons] at hn
          have hfuel : rest.length ≤ n := by omega
          have hmissing : rest.countP marked ≤ k - 1 := by omega
          obtain ⟨hp, hc⟩ := ih hfront hfuel hmissing
          rw [hrest]
          refine ⟨hp.trans ?_, by omega⟩
          rw [filter_append, filter_append, filter_cons_of_neg (by simp [hmarked])]
          exact (hperm.filter _).append_left _
        · rw [if_neg hmarked]
          rw [Bool.not_eq_true] at hmarked
          have hmoved : front ++ a :: back = (front ++ [a]) ++ back := by simp
          have hfront' : ∀ b ∈ front ++ [a], marked b = false := by
            intro b hb
            rcases mem_append.mp hb with hb | hb
            · exact hfront b hb
            · rw [mem_singleton.mp hb, hmarked]
          rw [length_cons] at hn
          rw [countP_cons_of_neg (by simp [hmarked])] at hk ⊢
          have hstep := ih hfront' (by omega) hk
          rw [length_append, ← hmoved] at hstep
          exact hstep

end SwapRemove
