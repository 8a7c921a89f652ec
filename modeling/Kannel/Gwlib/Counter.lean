import Kannel.Gwlib.Octstr

/-!
# Counters

`counter.c` guards an `unsigned long` by a lock, so every operation is atomic
and returns the value from before it.
-/

namespace Kannel

def counterIncreaseWith (n value : Nat) : Nat × Nat := (n, (n + value) % 2 ^ 64)

def counterDecrease (n : Nat) : Nat × Nat := (n, n - 1)

theorem counterIncreaseWith_neg {n k : Nat} (hk : k ≤ n) (hn : n < 2 ^ 64) :
    (counterIncreaseWith n (toUlong (-k))).2 = n - k := by
  unfold counterIncreaseWith toUlong
  omega

end Kannel
