import Kannel.Lib.BigEndian

/-!
# Octet strings and network integers

`NULL` is `none` where a function distinguishes it. A failing `gw_assert` is a `Failure`, kept
apart from the error return of a parser.
-/

namespace Kannel

abbrev Octstr := List UInt8

instance octet_lawfulBEq : LawfulBEq UInt8 := instLawfulBEq

instance octstr_lawfulBEq : LawfulBEq Octstr := List.instLawfulBEq

instance octets_decidableBAll (p : UInt8 → Prop) [DecidablePred p] (octets : Octstr) :
    Decidable (∀ c ∈ octets, p c) := List.decidableBAll p octets

inductive Failure
  | invalid | assertion | overflow | outside
  deriving DecidableEq, Repr

@[simp] theorem ok_bind {α β : Type} (a : α) (g : α → Except Failure β) :
    (Except.ok a >>= g) = g a := rfl

theorem pure_eq_ok {α : Type} (a : α) : (pure a : Except Failure α) = .ok a := rfl

@[simp] theorem error_bind {α β : Type} (f : Failure) (g : α → Except Failure β) :
    (Except.error f >>= g) = .error f := rfl

def intMax : Nat := 2 ^ 31 - 1

def toInt (n : Int) : Int := n.bmod (2 ^ 32)

def toUlong (n : Int) : Nat := (n % 2 ^ 64).toNat

def toLong (n : Int) : Int := n.bmod (2 ^ 64)

def octstrCopy (ostr : Octstr) (start len : Int) : Except Failure Octstr :=
  if start < 0 then .error .assertion
  else if len < 0 then .error .assertion
  else if start ≥ ostr.length then .ok []
  else .ok ((ostr.drop start.toNat).take len.toNat)

def octstrGetChar (ostr : Octstr) (pos : Nat) : Option UInt8 := ostr[pos]?

def octstrSearchChar (ostr : Octstr) (ch : UInt8) (pos : Nat) : Option Nat :=
  ((ostr.drop pos).findIdx? (· = ch)).map (pos + ·)

def octstrSetChar (ostr : Octstr) (pos : Nat) (ch : Nat) : Octstr :=
  ostr.set pos (UInt8.ofNat ch)

def octstrGetManyChars (ostr : Octstr) (pos len : Nat) : Octstr :=
  (ostr.drop pos).take len

def octstrDelete (ostr : Octstr) (pos len : Nat) : Octstr :=
  ostr.take pos ++ ostr.drop (pos + len)

def octstrTruncate (ostr : Octstr) (newLen : Int) : Except Failure Octstr :=
  if newLen < 0 then .error .assertion else .ok (ostr.take newLen.toNat)

def octstrBinaryToHex (ostr : Octstr) : Octstr :=
  let hexit (d : Nat) : UInt8 := UInt8.ofNat (if d < 10 then 48 + d else 55 + d)
  ostr.flatMap fun c => [hexit (c.toNat / 16), hexit (c.toNat % 16)]

def formatDecimal (n : Int) : Octstr :=
  (if n < 0 then [45] else []) ++ (Nat.toDigits 10 n.natAbs).map fun d => UInt8.ofNat d.toNat

def formatString (ostr : Option Octstr) : Octstr :=
  ostr.getD [40, 110, 117, 108, 108, 41]

def octstrGetCstr : Option Octstr → Octstr
  | none => [40, 110, 117, 108, 108, 41]
  | some ostr => ostr.takeWhile (· ≠ 0)

def encodeNetworkLong (value : Nat) : Octstr := BigEndian.octets 4 value

def decodeNetworkLong (data : Octstr) : Int := toInt (BigEndian.value data)

@[simp] theorem length_encodeNetworkLong (value : Nat) : (encodeNetworkLong value).length = 4 := by
  simp [encodeNetworkLong]

theorem octstrSearchChar_none {ostr : Octstr} {ch : UInt8} {pos : Nat} {rest : Octstr}
    (hdrop : ostr.drop pos = rest) (h : ch ∉ rest) : octstrSearchChar ostr ch pos = none := by
  rw [octstrSearchChar, hdrop, List.findIdx?_eq_none_iff.mpr, Option.map_none]
  intro x hx
  have hne : x ≠ ch := fun heq => h (heq ▸ hx)
  simpa using hne

theorem octstrSearchChar_some {ostr : Octstr} {ch : UInt8} {pos : Nat} {before rest : Octstr}
    (hdrop : ostr.drop pos = before ++ ch :: rest) (h : ch ∉ before) :
    octstrSearchChar ostr ch pos = some (pos + before.length) := by
  have hidx : (before ++ ch :: rest).findIdx? (· = ch) = some before.length := by
    rw [List.findIdx?_append, List.findIdx?_eq_none_iff.mpr]
    · simp [List.findIdx?_cons]
    · intro x hx
      have hne : x ≠ ch := fun heq => h (heq ▸ hx)
      simpa using hne
  rw [octstrSearchChar, hdrop, hidx, Option.map_some]

theorem octstrCopy_nat (ostr : Octstr) (start len : Nat) :
    octstrCopy ostr start len = .ok ((ostr.drop start).take len) := by
  have h0 : ¬ (start : Int) < 0 := by omega
  have h1 : ¬ (len : Int) < 0 := by omega
  simp only [octstrCopy, h0, h1, if_false, Int.toNat_natCast]
  split
  · rw [List.drop_eq_nil_of_le (by omega), List.take_nil]
  · rfl

theorem octstrCopy_neg (ostr : Octstr) (start : Nat) {len : Int} (h : len < 0) :
    octstrCopy ostr start len = .error .assertion := by
  have h0 : ¬ (start : Int) < 0 := by omega
  simp [octstrCopy, h0, h]

theorem toInt_of_fits {n : Int} (hlo : -2 ^ 31 ≤ n) (hhi : n < 2 ^ 31) : toInt n = n := by
  exact Int.bmod_eq_of_le (by omega) (by omega)

theorem toInt_range (n : Int) : -2 ^ 31 ≤ toInt n ∧ toInt n < 2 ^ 31 := by
  have hlo := Int.le_bmod (x := n) (m := 2 ^ 32) (by decide)
  have hhi := Int.bmod_lt (x := n) (m := 2 ^ 32) (by decide)
  unfold toInt
  omega

theorem toInt_neg_of_wrap {n : Int} (hlo : 2 ^ 31 ≤ n) (hhi : n < 2 ^ 32) : toInt n < 0 := by
  unfold toInt
  rw [Int.bmod_def]
  split <;> omega

theorem decode_encodeNetworkLong (n : Int) :
    decodeNetworkLong (encodeNetworkLong (toUlong n)) = toInt n := by
  have hres : (((n % 2 ^ 64).toNat % 256 ^ 4 : Nat) : Int) = n % (2 ^ 32 : Nat) := by omega
  unfold decodeNetworkLong encodeNetworkLong toInt toUlong
  rw [BigEndian.value_octets, hres, Int.emod_bmod]

theorem foldl_formatDecimal (n : Nat) :
    (formatDecimal n).foldl (fun value c => 10 * value + (c.toNat - 48)) 0 = n := by
  have hsign : ¬ ((n : Int) < 0) := by omega
  rw [formatDecimal, if_neg hsign, List.nil_append, List.foldl_map, Int.natAbs_natCast]
  have hdigits : ∀ value, ∀ d ∈ Nat.toDigits 10 n,
      10 * value + ((UInt8.ofNat d.toNat).toNat - 48) = 10 * value + (d.toNat - '0'.toNat) := by
    intro value d hd
    have hdigit := Nat.isDigit_of_mem_toDigits (by decide) (by decide) hd
    have hle : d.toNat ≤ 57 := by
      simp only [Char.isDigit, Bool.and_eq_true, decide_eq_true_eq] at hdigit
      exact hdigit.2
    have hsmall : (UInt8.ofNat d.toNat).toNat = d.toNat := by
      rw [UInt8.toNat_ofNat']
      omega
    rw [hsmall]
    rfl
  rw [List.foldl_ext _ _ 0 hdigits]
  exact Nat.ofDigitChars_ten_toDigits

theorem formatDecimal_inj {n m : Nat} : formatDecimal n = formatDecimal m ↔ n = m := by
  constructor
  · intro h
    rw [← foldl_formatDecimal n, h, foldl_formatDecimal m]
  · intro h
    rw [h]

end Kannel
