import Mathlib.Tactic

/-!
# Hexadecimal text

Lower-case hexadecimal digits of a fixed width, and the reader that accepts both cases.
-/

namespace Hex

def digit (d : Nat) : UInt8 :=
  UInt8.ofNat (if d < 10 then 48 + d else 87 + d)

def digitVal (c : UInt8) : Option Nat :=
  if 48 ≤ c.toNat ∧ c.toNat ≤ 57 then some (c.toNat - 48)
  else if 97 ≤ c.toNat ∧ c.toNat ≤ 102 then some (c.toNat - 87)
  else if 65 ≤ c.toNat ∧ c.toNat ≤ 70 then some (c.toNat - 55)
  else none

def isDigit (c : UInt8) : Bool := (digitVal c).isSome

def digits : Nat → Nat → List UInt8
  | 0, _ => []
  | k+1, n => digit (n / 16 ^ k % 16) :: digits k n

def value (cs : List UInt8) : Nat :=
  cs.foldl (fun u c => u * 16 + (digitVal c).getD 0) 0

variable (k n : Nat)

@[simp] theorem length_digits : (digits k n).length = k := by
  induction k with
  | zero => rfl
  | succ k ih => simp [digits, ih]

theorem digitVal_digit {d : Nat} (h : d < 16) : digitVal (digit d) = some d := by
  interval_cases d <;> rfl

theorem isDigit_digit {d : Nat} (h : d < 16) : isDigit (digit d) = true := by
  rw [isDigit, digitVal_digit h]
  rfl

theorem digits_isDigit : ∀ c ∈ digits k n, isDigit c = true := by
  induction k with
  | zero => simp [digits]
  | succ k ih =>
    intro c hc
    rcases List.mem_cons.mp hc with rfl | hc
    · exact isDigit_digit (Nat.mod_lt _ (by decide))
    · exact ih c hc

private theorem foldl_value (cs : List UInt8) (u : Nat) :
    cs.foldl (fun u c => u * 16 + (digitVal c).getD 0) u = u * 16 ^ cs.length + value cs := by
  unfold value
  induction cs generalizing u with
  | nil => simp
  | cons c cs ih =>
    rw [List.foldl_cons, List.foldl_cons, ih, ih (0 * 16 + _), List.length_cons]
    ring

theorem value_cons (c : UInt8) (cs : List UInt8) :
    value (c :: cs) = (digitVal c).getD 0 * 16 ^ cs.length + value cs := by
  have h := foldl_value cs (0 * 16 + (digitVal c).getD 0)
  simpa [value] using h

/-- **Writing then reading** keeps the low `k` digits. -/
theorem value_digits : value (digits k n) = n % 16 ^ k := by
  induction k with
  | zero => simp [digits, value, Nat.mod_one]
  | succ k ih =>
    rw [digits, value_cons, ih, length_digits, digitVal_digit (Nat.mod_lt _ (by decide)),
      Option.getD_some, Nat.pow_succ, Nat.mod_mul, Nat.mul_comm, Nat.add_comm]

theorem value_digits_of_lt {k n : Nat} (h : n < 16 ^ k) : value (digits k n) = n := by
  rw [value_digits, Nat.mod_eq_of_lt h]

theorem takeWhile_digits_append {rest : List UInt8} (hrest : ∀ c ∈ rest.head?, isDigit c = false) :
    (digits k n ++ rest).takeWhile isDigit = digits k n := by
  rw [List.takeWhile_append_of_pos (digits_isDigit k n)]
  cases rest with
  | nil => simp
  | cons c rest => simp [hrest c rfl]

end Hex
