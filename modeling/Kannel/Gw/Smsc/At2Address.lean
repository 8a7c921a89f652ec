import Kannel.Gw.Smsc.At2Pdu

/-!
# The address of a modem's PDU

A character up to `?` is written like a digit, one below `0` as the filler if it is second of its
octet, and an address of more than twenty is written but not read.
-/

namespace Kannel
open List

def readSemiOctets : Nat → Octstr → Octstr
  | 0, _ | _, [] => []
  | 1, octet :: _ => [(octet &&& 15) + 48]
  | len + 2, octet :: octets =>
    ((octet &&& 15) + 48) :: ((octet >>> 4) + 48) :: readSemiOctets len octets

variable (decode7bit : Octstr → Int → Octstr)

/-- The originating address of `at2_pdu_decode_deliver_sm`, from its length octet on. -/
def decodeAddress : Octstr → Option Octstr
  | len :: ntype :: octets =>
    -- the second error is found at the end: the address goes past the PDU
    if 20 < len ∨ octets.length < (len.toNat + 1) / 2 then none
    else if ntype &&& 0xD0 = 0xD0 then
      some (decode7bit (octets.take len.toNat) ((((len.toNat : Int) - 1) * 4 - 3).tdiv 7 + 1))
    else some ((if ntype &&& 0x90 = 0x90 then [43] else []) ++ readSemiOctets len.toNat octets)
  | _ => none

def international (msisdn : Octstr) : Nat :=
  if msisdn.head? = some 43 then 1 else if msisdn.take 2 = [48, 48] then 2 else 0

def addressDigits (msisdn : Octstr) : Octstr :=
  (octstrStripBlanks msisdn).drop (international msisdn)

/-- Two characters an octet; the second is refused only above `?`. -/
def RefusedChars : Octstr → Prop
  | [] => False
  | [c] => c < 48 ∨ 63 < c
  | c :: d :: rest => c < 48 ∨ 63 < c ∨ 63 < d ∨ RefusedChars rest

/-- The field is refused or is read as the receiver's digits, which are all it has. -/
def AddressRight (msisdn : Octstr) : Prop :=
  ∃ out, at2FormatAddressField (some msisdn) = .ok out ∧ ∀ field, out = some field →
    (addressDigits msisdn).all isdigit = true ∧ decodeAddress decode7bit field =
      some ((if international msisdn = 0 then [] else [43]) ++ addressDigits msisdn)

variable {digits octets : Octstr}

theorem semiOctets_eq_none_iff (c : UInt8) (second : Option UInt8) :
    semiOctets c second = none ↔ c < 48 ∨ 63 < c ∨ ∃ d ∈ second, 63 < d := by
  simp only [semiOctets, UInt8.lt_iff_toNat_lt, ite_eq_right_iff, reduceCtorEq, imp_false]
  cases second <;> simp <;> omega

theorem swappedDigits_eq_none_iff : swappedDigits digits = none ↔ RefusedChars digits := by
  induction digits using swappedDigits.induct with
  | case1 => simp [swappedDigits, RefusedChars]
  | case2 c => simp [swappedDigits, RefusedChars, semiOctets_eq_none_iff]
  | case3 c d rest ih =>
    have hfirst := semiOctets_eq_none_iff c (some d)
    rw [RefusedChars, ← ih]
    cases hsemi : semiOctets c (some d) <;> cases hrest : swappedDigits rest <;>
      simp_all [swappedDigits]

theorem semiOctets_digits (c : UInt8) (second : Option UInt8)
    (hdigits : ∀ x ∈ c :: second.toList, isdigit x = true) :
    ∃ octet, semiOctets c second = some octet ∧ (octet &&& 15) + 48 = c ∧
      ∀ d ∈ second, (octet >>> 4) + 48 = d := by
  have hcases : ∀ x : UInt8, isdigit x = true → ∃ n < 10, x = 48 + UInt8.ofNat n := by
    intro x hx
    simp [isdigit, UInt8.le_iff_toNat_le] at hx
    refine ⟨x.toNat - 48, by omega, UInt8.toNat_inj.mp ?_⟩
    simp
    omega
  obtain ⟨n, hn, rfl⟩ := hcases c (hdigits c mem_cons_self)
  cases second with
  | none =>
    refine ⟨UInt8.ofNat (240 + n), and_assoc.mp ⟨?_, nofun⟩⟩
    clear hdigits hcases
    revert n
    decide
  | some d =>
    obtain ⟨m, hm, rfl⟩ := hcases d (hdigits d (by simp))
    refine ⟨UInt8.ofNat (16 * m + n), ?_⟩
    simp only [Option.mem_some_iff, forall_eq']
    clear hdigits hcases
    revert n m
    decide

theorem swappedDigits_digits (h : digits.all isdigit = true) :
    ∃ octets, swappedDigits digits = some octets ∧ octets.length = (digits.length + 1) / 2 ∧
      readSemiOctets digits.length octets = digits := by
  induction digits using swappedDigits.induct with
  | case1 => exact ⟨[], rfl, rfl, rfl⟩
  | case2 c =>
    obtain ⟨octet, hsemi, hlow, -⟩ := semiOctets_digits c none (all_eq_true.mp h)
    exact ⟨[octet], by simp [swappedDigits, hsemi], by simp, congrArg ([·]) hlow⟩
  | case3 c d rest ih =>
    have hpair : [c, d].all isdigit = true := by simp_all
    obtain ⟨octet, hsemi, hlow, hhigh⟩ := semiOctets_digits c (some d) (all_eq_true.mp hpair)
    obtain ⟨octets, hrest, hlen, hread⟩ := ih (by simp_all)
    refine ⟨octet :: octets, by simp [swappedDigits, hsemi, hrest], ?_, ?_⟩
    · simp only [length_cons]
      omega
    · rw [length_cons, length_cons, readSemiOctets, hlow, hhigh d rfl, hread]

theorem at2FormatAddressField_eq (msisdn : Octstr) :
    at2FormatAddressField (some msisdn) =
      (charOctet (addressDigits msisdn).length).map fun length =>
        (swappedDigits (addressDigits msisdn)).map fun digits =>
          length :: (if international msisdn = 0 then 0x81 else 0x91) :: digits := by
  unfold at2FormatAddressField
  dsimp only
  rw [← international, ← addressDigits]
  cases charOctet (addressDigits msisdn).length with
  | error => rfl
  | ok length => split_ifs <;> rfl

theorem decodeAddress_digits (n : Nat) (hlen : digits.length ≤ 255)
    (hread : octets.length = (digits.length + 1) / 2 ∧
      readSemiOctets digits.length octets = digits) :
    decodeAddress decode7bit
        (UInt8.ofNat digits.length :: (if n = 0 then 0x81 else 0x91) :: octets) =
      if 20 < digits.length then none else some ((if n = 0 then [] else [43]) ++ digits) := by
  have hnat : (UInt8.ofNat digits.length).toNat = digits.length := by
    rw [UInt8.toNat_ofNat']
    omega
  simp only [decodeAddress, UInt8.lt_iff_toNat_lt, hnat, hread, lt_irrefl, or_false]
  by_cases hn : n = 0
  · rw [if_pos hn, if_pos hn]
    rfl
  · rw [if_neg hn, if_neg hn]
    rfl

/-- **Digits or a refusal.** The address is right exactly if it is of at most twenty digits, or can
be written in one length octet and has a character that is refused where it stands. -/
theorem at2FormatAddressField_right_iff (msisdn : Octstr) :
    AddressRight decode7bit msisdn ↔
      (addressDigits msisdn).all isdigit = true ∧ (addressDigits msisdn).length ≤ 20 ∨
        (addressDigits msisdn).length ≤ 255 ∧ RefusedChars (addressDigits msisdn) := by
  rw [AddressRight, at2FormatAddressField_eq, ← swappedDigits_eq_none_iff]
  by_cases hlen : (addressDigits msisdn).length ≤ 255
  · rw [charOctet_of_lt (by omega)]
    by_cases hall : (addressDigits msisdn).all isdigit = true
    · obtain ⟨octets, hswapped, hread⟩ := swappedDigits_digits hall
      have hdecode := decodeAddress_digits decode7bit (international msisdn) hlen hread
      simp [Except.map, hswapped, hdecode, hall]
    · simp [Except.map, hall, hlen, Option.eq_none_iff_forall_ne_some]
  · have hbig : charOctet (addressDigits msisdn).length = .error .assertion := by
      rw [charOctet, if_neg (by omega)]
    simp [Except.map, hbig, hlen]
    omega

/-- `1 2` is read as `1?2`. -/
theorem at2FormatAddressField_blank_between :
    at2FormatAddressField (some [49, 32, 50]) = .ok (some [3, 0x81, 0xF1, 0xF2]) ∧
      ¬ ∃ decode7bit, AddressRight decode7bit [49, 32, 50] := by
  refine ⟨rfl, ?_⟩
  intro ⟨decode7bit, out, hout, hright⟩
  cases hout
  exact absurd (hright _ rfl).1 (by decide)

end Kannel
