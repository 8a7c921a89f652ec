import Mathlib.Tactic

/-!
# Heaps whose element `i` hangs below element `i / 2`

The array is a function `g` on positions from `lo` to `len - 1`. An element in the wrong place
(`Loose`) moves up (`Rising`) or down (`Sinking`) by swaps.
-/

namespace HalvingHeap

variable {β : Type} (above : β → β → Prop)

/-- Every element is below its parent. -/
def Ordered (g : ℕ → β) (lo len : ℕ) : Prop :=
  ∀ i, lo < i → i < len → above (g (i / 2)) (g i)

structure Loose (g : ℕ → β) (lo len k : ℕ) : Prop where
  away : ∀ i, lo < i → i < len → i ≠ k → i / 2 ≠ k → above (g (i / 2)) (g i)
  across : lo < k → ∀ i, i < len → i / 2 = k → above (g (k / 2)) (g i)

structure Rising (g : ℕ → β) (lo len k : ℕ) : Prop extends Loose above g lo len k where
  children : ∀ i, lo < i → i < len → i / 2 = k → above (g k) (g i)

structure Sinking (g : ℕ → β) (lo len k : ℕ) : Prop extends Loose above g lo len k where
  parent : lo < k → above (g (k / 2)) (g k)

def swapAt (g : ℕ → β) (i j : ℕ) : ℕ → β := g ∘ Equiv.swap i j

variable {above} {g g' : ℕ → β} {lo len k : ℕ}

@[simp] theorem swapAt_left (g : ℕ → β) (i j : ℕ) : swapAt g i j i = g j := by
  simp [swapAt]

@[simp] theorem swapAt_right (g : ℕ → β) (i j : ℕ) : swapAt g i j j = g i := by
  simp [swapAt]

theorem swapAt_of_ne (g : ℕ → β) {i j n : ℕ} (hi : n ≠ i) (hj : n ≠ j) : swapAt g i j n = g n := by
  rw [swapAt, Function.comp_apply, Equiv.swap_apply_of_ne_of_ne hi hj]

theorem perm_map_swapAt (g : ℕ → β) {i j lo n : ℕ} (hi : i ∈ List.range' lo n)
    (hj : j ∈ List.range' lo n) :
    ((List.range' lo n).map (swapAt g i j)).Perm ((List.range' lo n).map g) := by
  have hrange : ∀ m ∈ List.range' lo n, Equiv.swap i j m ∈ List.range' lo n := by
    intro m hm
    rcases eq_or_ne m i with rfl | hmi
    · rwa [Equiv.swap_apply_left]
    · rcases eq_or_ne m j with rfl | hmj
      · rwa [Equiv.swap_apply_right]
      · rwa [Equiv.swap_apply_of_ne_of_ne hmi hmj]
  have hnodup : ((List.range' lo n).map (Equiv.swap i j)).Nodup :=
    List.Nodup.map (Equiv.injective _) List.nodup_range'
  have hswap : ((List.range' lo n).map (Equiv.swap i j)).Perm (List.range' lo n) := by
    refine (List.perm_ext_iff_of_nodup hnodup List.nodup_range').mpr fun m => ?_
    rw [List.mem_map]
    constructor
    · rintro ⟨a, ha, rfl⟩
      exact hrange a ha
    · intro hm
      exact ⟨Equiv.swap i j m, hrange m hm, Equiv.swap_apply_self i j m⟩
  have hmap := hswap.map g
  rwa [List.map_map] at hmap

/-- **The top** of the heap is above everything. -/
theorem Ordered.top [IsTrans β above] (h : Ordered above g lo len) (hlo : lo ≤ 1) :
    ∀ i, lo < i → i < len → above (g lo) (g i) := by
  intro i
  induction i using Nat.strong_induction_on with
  | _ i ih =>
    intro hi hlen
    have hparent := h i hi hlen
    by_cases hhalf : i / 2 = lo
    · rwa [hhalf] at hparent
    · exact IsTrans.trans _ _ _ (ih (i / 2) (by omega) (by omega) (by omega)) hparent

theorem Ordered.loose [IsTrans β above] {len' : ℕ} (h : Ordered above g lo len) (hlen : len' ≤ len)
    (hk : k < len) (hsame : ∀ i, i < len' → i ≠ k → g' i = g i) : Loose above g' lo len' k where
  away i hlo hi hne hhalf := by
    rw [hsame i hi hne, hsame (i / 2) (by omega) hhalf]
    exact h i hlo (by omega)
  across hlo i hi hhalf := by
    rw [hsame i hi (by omega), hsame (k / 2) (by omega) (by omega)]
    have hchild := h i (by omega) (by omega)
    rw [hhalf] at hchild
    exact IsTrans.trans _ _ _ (h k hlo hk) hchild

theorem Ordered.rising (h : Ordered above g lo len) (hsame : ∀ i, i < len → g' i = g i) :
    Rising above g' lo (len + 1) len where
  away i hlo hi hne _ := by
    rw [hsame i (by omega), hsame (i / 2) (by omega)]
    exact h i hlo (by omega)
  across hlo i hi hhalf := by omega
  children i hlo hi hhalf := by omega

theorem Loose.rising [IsTrans β above] (h : Loose above g lo len k) (hk : lo < k)
    (hup : above (g k) (g (k / 2))) : Rising above g lo len k where
  toLoose := h
  children i _ hi hhalf := IsTrans.trans _ _ _ hup (h.across hk i hi hhalf)

theorem Loose.ordered (h : Loose above g lo len k) (hparent : lo < k → above (g (k / 2)) (g k))
    (hchildren : ∀ i, lo < i → i < len → i / 2 = k → above (g k) (g i)) :
    Ordered above g lo len := by
  intro i hlo hi
  by_cases hik : i = k
  · subst hik
    exact hparent hlo
  · by_cases hhalf : i / 2 = k
    · rw [hhalf]
      exact hchildren i hlo hi hhalf
    · exact h.away i hlo hi hik hhalf

theorem Rising.ordered (h : Rising above g lo len k) (hparent : lo < k → above (g (k / 2)) (g k)) :
    Ordered above g lo len :=
  h.toLoose.ordered hparent h.children

/-- **A move up.** -/
theorem Rising.step [IsTrans β above] (h : Rising above g lo len k) (hk : lo < k)
    (hup : above (g k) (g (k / 2))) : Rising above (swapAt g k (k / 2)) lo len (k / 2) where
  away i hlo hi hne hhalf := by
    by_cases hik : i = k
    · exact absurd (congrArg (· / 2) hik) hhalf
    · rw [swapAt_of_ne g hik hne]
      by_cases hchild : i / 2 = k
      · rw [hchild, swapAt_left]
        exact h.across hk i hi hchild
      · rw [swapAt_of_ne g hchild hhalf]
        exact h.away i hlo hi hik hchild
  across hlo i hi hhalf := by
    have hgrand : above (g (k / 2 / 2)) (g (k / 2)) :=
      h.away (k / 2) hlo (by omega) (by omega) (by omega)
    rw [swapAt_of_ne g (by omega : k / 2 / 2 ≠ k) (by omega)]
    by_cases hik : i = k
    · rw [hik, swapAt_left]
      exact hgrand
    · rw [swapAt_of_ne g hik (by omega)]
      have hsibling := h.away i (by omega) hi hik (by omega)
      rw [hhalf] at hsibling
      exact IsTrans.trans _ _ _ hgrand hsibling
  children i hlo hi hhalf := by
    rw [swapAt_right]
    by_cases hik : i = k
    · rw [hik, swapAt_left]
      exact hup
    · rw [swapAt_of_ne g hik (by omega)]
      have hsibling := h.away i hlo hi hik (by omega)
      rw [hhalf] at hsibling
      exact IsTrans.trans _ _ _ hup hsibling

theorem Sinking.ordered (h : Sinking above g lo len k)
    (hchildren : ∀ i, lo < i → i < len → i / 2 = k → above (g k) (g i)) :
    Ordered above g lo len :=
  h.toLoose.ordered h.parent hchildren

/-- **A move down**, to the place of a child that belongs above the other children. -/
theorem Sinking.step (h : Sinking above g lo len k) {j : ℕ} (hj : lo < j) (hlen : j < len)
    (hhalf : j / 2 = k) (hfirst : ∀ i, lo < i → i < len → i / 2 = k → above (g j) (g i))
    (hdown : above (g j) (g k)) : Sinking above (swapAt g k j) lo len j where
  away i hlo hi hne hgrand := by
    by_cases hik : i = k
    · subst hik
      rw [swapAt_left, swapAt_of_ne g (by omega : i / 2 ≠ i) (by omega)]
      exact h.across hlo j hlen hhalf
    · rw [swapAt_of_ne g hik hne]
      by_cases hchild : i / 2 = k
      · rw [hchild, swapAt_left]
        exact hfirst i hlo hi hchild
      · rw [swapAt_of_ne g hchild hgrand]
        exact h.away i hlo hi hik hchild
  across _ i hi hgrand := by
    rw [hhalf, swapAt_left, swapAt_of_ne g (by omega : i ≠ k) (by omega)]
    have hchild := h.away i (by omega) hi (by omega) (by omega)
    rwa [hgrand] at hchild
  parent _ := by
    rw [hhalf, swapAt_left, swapAt_right]
    exact hdown

end HalvingHeap
