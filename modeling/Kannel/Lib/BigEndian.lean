import Mathlib.Tactic

/-!
# Big-endian octet strings

`value` reads an octet string, `octets k` writes the low `k` octets of a number; the two
are inverse modulo `256 ^ k`.
-/

namespace BigEndian

def value (bs : List UInt8) : Nat :=
  bs.foldl (fun u b => u <<< 8 ||| b.toNat) 0

def octets : Nat → Nat → List UInt8
  | 0, _ => []
  | k+1, n => UInt8.ofNat (n >>> (8 * k)) :: octets k n

@[simp] theorem octets_zero (n : Nat) : octets 0 n = [] := rfl

@[simp] theorem length_octets (k n : Nat) : (octets k n).length = k := by
  induction k with
  | zero => rfl
  | succ k ih => simp [octets, ih]

theorem shift_in (u : Nat) (b : UInt8) : u <<< 8 ||| b.toNat = u * 256 + b.toNat := by
  rw [← Nat.shiftLeft_add_eq_or_of_lt (UInt8.toNat_lt b) u, Nat.shiftLeft_eq]

variable (bs : List UInt8)

private theorem foldl_shift_in (u : Nat) :
    bs.foldl (fun u b => u <<< 8 ||| b.toNat) u = u * 256 ^ bs.length + value bs := by
  unfold value
  induction bs generalizing u with
  | nil => simp
  | cons b bs ih =>
    rw [List.foldl_cons, List.foldl_cons, ih, ih (0 <<< 8 ||| b.toNat), shift_in, shift_in,
      List.length_cons]
    ring

@[simp] theorem value_nil : value [] = 0 := rfl

theorem value_cons (b : UInt8) (bs : List UInt8) :
    value (b :: bs) = b.toNat * 256 ^ bs.length + value bs := by
  have h := foldl_shift_in bs (0 <<< 8 ||| b.toNat)
  simpa [value] using h

theorem value_lt : value bs < 256 ^ bs.length := by
  induction bs with
  | nil => simp
  | cons b bs ih =>
    have hb : b.toNat + 1 ≤ 256 := UInt8.toNat_lt b
    have hmul := Nat.mul_le_mul_right (256 ^ bs.length) hb
    rw [value_cons, List.length_cons]
    rw [Nat.add_mul] at hmul
    omega

theorem value_inj {bs cs : List UInt8} (hlen : bs.length = cs.length)
    (h : value bs = value cs) : bs = cs := by
  induction bs generalizing cs with
  | nil => exact (List.length_eq_zero_iff.mp hlen.symm).symm
  | cons b bs ih =>
    cases cs with
    | nil => simp at hlen
    | cons c cs =>
      have hlen' : bs.length = cs.length := by simpa using hlen
      have hb := value_lt bs
      have hc := value_lt cs
      rw [value_cons, value_cons, ← hlen'] at h
      rw [← hlen'] at hc
      have hpos : 0 < 256 ^ bs.length := Nat.pow_pos (by decide)
      have htail : value bs = value cs := by
        have hmod := congrArg (· % 256 ^ bs.length) h
        simpa [Nat.mod_eq_of_lt hb, Nat.mod_eq_of_lt hc] using hmod
      have hhead : b.toNat = c.toNat := by
        rw [htail] at h
        exact Nat.eq_of_mul_eq_mul_right hpos (Nat.add_right_cancel h)
      rw [ih hlen' htail, UInt8.toNat_inj.mp hhead]

/-- **Writing then reading** keeps the low `k` octets of a number. -/
theorem value_octets (k n : Nat) : value (octets k n) = n % 256 ^ k := by
  induction k with
  | zero => simp [Nat.mod_one]
  | succ k ih =>
    have hbyte : (UInt8.ofNat (n >>> (8 * k))).toNat = n / 256 ^ k % 256 := by
      rw [UInt8.toNat_ofNat', Nat.shiftRight_eq_div_pow, Nat.pow_mul]
    rw [octets, value_cons, ih, length_octets, hbyte, Nat.pow_succ, Nat.mod_mul,
      Nat.mul_comm, Nat.add_comm]

theorem value_octets_of_lt {k n : Nat} (h : n < 256 ^ k) : value (octets k n) = n := by
  rw [value_octets, Nat.mod_eq_of_lt h]

/-- **Reading then writing** gives the octets back. -/
theorem octets_value : octets bs.length (value bs) = bs :=
  value_inj (length_octets _ _) (value_octets_of_lt (value_lt bs))

end BigEndian
