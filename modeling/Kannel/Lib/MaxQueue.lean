import Mathlib.Data.List.Perm.Basic
import Mathlib.Tactic

/-!
# Queues ordered by a comparison

A queue gives back its largest item first, and of equal items the one put in first.
-/

namespace MaxQueue

variable {α : Type} (lt : α → α → Bool)

def pop : List α → Option (α × List α)
  | [] => none
  | a :: rest =>
    match pop rest with
    | none => some (a, [])
    | some (b, others) => if lt a b then some (b, a :: others) else some (a, rest)

def popAll : Nat → List α → List α
  | 0, _ => []
  | fuel+1, items =>
    match pop lt items with
    | none => []
    | some (a, rest) => a :: popAll fuel rest

variable {lt}

theorem pop_eq_none {items : List α} (h : pop lt items = none) : items = [] := by
  cases items with
  | nil => rfl
  | cons a rest =>
    rw [pop] at h
    split at h
    · cases h
    · split at h <;> cases h

theorem pop_perm {items rest : List α} {a : α} (h : pop lt items = some (a, rest)) :
    items.Perm (a :: rest) := by
  induction items generalizing a rest with
  | nil => cases h
  | cons b items ih =>
    rw [pop] at h
    split at h
    · rename_i hnone
      cases h
      rw [pop_eq_none hnone]
    · rename_i c others hsome
      split at h
      · cases h
        exact ((ih hsome).cons b).trans (.swap a b others)
      · cases h
        exact .refl _

theorem popAll_perm (items : List α) : (popAll lt items.length items).Perm items := by
  generalize hlen : items.length = n
  induction n generalizing items with
  | zero =>
    rw [List.length_eq_zero_iff.mp hlen]
    exact .refl _
  | succ n ih =>
    rw [popAll]
    cases hpop : pop lt items with
    | none =>
      rw [pop_eq_none hpop] at hlen
      cases hlen
    | some r =>
      have hperm := pop_perm hpop
      have hrest : r.2.length = n := by
        have := hperm.length_eq
        simp only [List.length_cons] at this
        omega
      exact ((ih r.2 hrest).cons r.1).trans hperm.symm

end MaxQueue
