import Mathlib.Tactic

/-!
# Positions of a ring buffer, and moves inside an array

Item `i` is at the slot `(start + i) % size`. `moved` is an array after `memmove`.
-/

namespace RingBuffer

variable {β : Type} {size start i j : ℕ}

theorem wrap (hs : start < size) (hi : i < size) :
    (start + i) % size = if start + i < size then start + i else start + i - size := by
  split
  · exact Nat.mod_eq_of_lt ‹_›
  · rw [Nat.mod_eq_sub_mod (by omega), Nat.mod_eq_of_lt (by omega)]

theorem wrap_inj (hs : start < size) (hi : i < size) (hj : j < size)
    (h : (start + i) % size = (start + j) % size) : i = j := by
  rw [wrap hs hi, wrap hs hj] at h
  split at h <;> split at h <;> omega

theorem wrap_shift (size start c i : ℕ) :
    ((start + c) % size + i) % size = (start + (c + i)) % size := by
  rw [Nat.mod_add_mod, Nat.add_assoc]

variable {tab : List β}

theorem set_same (hs : start < tab.length) (x : β) :
    (tab.set ((start + i) % tab.length) x)[(start + i) % tab.length]? = some x :=
  List.getElem?_set_self (Nat.mod_lt _ (by omega))

theorem set_other (hs : start < tab.length) (hi : i < tab.length) (hj : j < tab.length)
    (hne : i ≠ j) (x : β) :
    (tab.set ((start + j) % tab.length) x)[(start + i) % tab.length]? =
      tab[(start + i) % tab.length]? :=
  List.getElem?_set_ne fun h => hne (wrap_inj hs hi hj h.symm)

def moved (tab : List β) (dst src n : ℕ) : List β :=
  tab.take dst ++ ((tab.drop src).take n ++ tab.drop (dst + n))

section
variable (tab : List β) (dst src n : ℕ) (hdst : dst + n ≤ tab.length) (hsrc : src + n ≤ tab.length)
include hdst hsrc

theorem length_moved : (moved tab dst src n).length = tab.length := by
  simp only [moved, List.length_append, List.length_take, List.length_drop]
  omega

theorem getElem_moved (i : ℕ) :
    (moved tab dst src n)[i]? =
      if dst ≤ i ∧ i < dst + n then tab[src + (i - dst)]? else tab[i]? := by
  have htake : (tab.take dst).length = dst := by
    rw [List.length_take]
    omega
  have hmid : ((tab.drop src).take n).length = n := by
    rw [List.length_take, List.length_drop]
    omega
  by_cases hlow : i < dst
  · rw [if_neg (by omega), moved, List.getElem?_append_left (by omega),
      List.getElem?_take_of_lt hlow]
  · rw [moved, List.getElem?_append_right (by omega), htake]
    by_cases hin : i < dst + n
    · rw [if_pos (by omega), List.getElem?_append_left (by omega),
        List.getElem?_take_of_lt (by omega), List.getElem?_drop]
    · rw [if_neg (by omega), List.getElem?_append_right (by omega), List.getElem?_drop]
      congr 1
      omega

end
end RingBuffer
