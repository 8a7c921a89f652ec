import Kannel.Gw.Smsc.SmppPdu
import Kannel.Lib.Avoids

/-!
# Where the next optional parameter is read

The loop should follow the announced lengths; two branches follow the NUL instead.
-/

namespace Kannel

variable {tlvs : SmppTlvs} {smscId : Option Octstr} {options : List Optional} {data : Octstr}
  {s s' : Unpacking}

theorem decodeInteger_of_room {os : Octstr} {pos octets : Nat} (h : pos + octets ≤ os.length)
    (hoctets : octets ≤ 7) :
    decodeInteger os pos octets = BigEndian.value ((os.drop pos).take octets) := by
  have hlt := BigEndian.value_lt ((os.drop pos).take octets)
  have hlen : ((os.drop pos).take octets).length ≤ 7 := by simp; omega
  have hpow : 256 ^ ((os.drop pos).take octets).length ≤ 256 ^ 7 :=
    Nat.pow_le_pow_right (by decide) hlen
  rw [decodeInteger, if_neg (by omega), octstrGetManyChars]
  exact Int.bmod_eq_of_le (by omega) (by omega)

theorem optTag_eq (h : s.pos + 4 ≤ data.length) :
    (decodeInteger data s.pos 2).toNat = Tlv.tagAt data s.pos := by
  rw [decodeInteger_of_room (by omega) (by decide)]
  rfl

theorem optLen_eq (h : s.pos + 4 ≤ data.length) :
    (decodeInteger data (s.pos + 2) 2).toNat = Tlv.lengthAt data s.pos := by
  rw [decodeInteger_of_room (by omega) (by decide)]
  rfl

/-- It is such a parameter of the PDU, or only configured as one, and passes the check of its
length. -/
def ReadAsNulterminated (tlvs : SmppTlvs) (smscId : Option Octstr) (options : List Optional)
    (data : Octstr) (pos : Nat) : Prop :=
  match options.find? (·.tag = Tlv.tagAt data pos),
      smppTlvGetByTag tlvs smscId (Tlv.tagAt data pos) with
  | some (.nulterminated _ maxLen), _ =>
    Tlv.lengthAt data pos ≤ maxLen ∧ pos + 4 + Tlv.lengthAt data pos ≤ data.length
  | some _, _ => False
  | none, some tlv =>
    tlv.type = .nulterminated ∧ Tlv.lengthAt data pos ≤ toUlong tlv.length
  | none, none => False

/-- The first NUL is the last octet of the value. A value of no octets must not be followed by a
NUL. -/
def NulEndsValue (data : Octstr) (pos : Nat) : Prop :=
  match octstrSearchChar data 0 (pos + 4) with
  | some nul =>
    nul + 1 = pos + 4 + Tlv.lengthAt data pos ∨ (Tlv.lengthAt data pos = 0 ∧ nul ≠ pos + 4)
  | none => Tlv.lengthAt data pos = 0

def posUntilNul (os : Octstr) (pos maxOctets : Nat) : Nat :=
  ((copyUntilNul os pos maxOctets).map Prod.snd).getD pos

theorem octstrSearchChar_ge {os : Octstr} {ch : UInt8} {pos nul : Nat}
    (h : octstrSearchChar os ch pos = some nul) : pos ≤ nul := by
  obtain ⟨i, -, rfl⟩ := Option.map_eq_some_iff.mp h
  omega

theorem posUntilNul_iff (data : Octstr) (pos : Nat) :
    posUntilNul data (pos + 4) (Tlv.lengthAt data pos) = Tlv.next data pos ↔
      NulEndsValue data pos := by
  unfold posUntilNul copyUntilNul NulEndsValue Tlv.next
  cases hnul : octstrSearchChar data 0 (pos + 4) with
  | none =>
    simp only [Option.map_none, Option.getD_none]
    omega
  | some nul =>
    have hge := octstrSearchChar_ge hnul
    dsimp only
    split
    · simp only [Option.map_none, Option.getD_none]
      omega
    · simp only [Option.map_some, Option.getD_some]
      omega

def Optional.posAfter (data : Octstr) (pos optLen : Nat) : Optional → Nat
  | .nulterminated _ maxLen =>
    if optLen ≤ maxLen ∧ pos + optLen ≤ data.length then posUntilNul data pos optLen
    else pos + optLen
  | _ => pos + optLen

theorem readOptional_pos {optLen : Nat} {tlv : Option SmppTlv} {o : Optional}
    (h : readOptional data s optLen tlv o = .ok s') : s'.pos = o.posAfter data s.pos optLen := by
  cases o with
  | integer name octets =>
    simp only [readOptional] at h
    split at h
    · cases h; rfl
    · split at h
      · cases h
      · cases h; rfl
  | nulterminated name maxLen =>
    simp only [readOptional] at h
    split at h
    · next hbad =>
      cases h
      rw [Optional.posAfter, if_neg (by omega)]
    · next hgood =>
      rw [Optional.posAfter, if_pos (by omega), posUntilNul]
      split at h
      all_goals
        rename_i hcopy
        cases h
        rw [hcopy]
        rfl
  | octets name minLen maxLen =>
    simp only [readOptional] at h
    split at h
    · cases h; rfl
    · rw [octstrCopy_nat, ok_bind] at h
      cases h
      rfl

theorem readConfigured_pos {optLen : Nat} {tlv : SmppTlv}
    (h : readConfigured data s optLen tlv = .ok s') :
    s'.pos =
      if tlv.type = .nulterminated ∧ optLen ≤ toUlong tlv.length then
        posUntilNul data s.pos optLen
      else s.pos + optLen := by
  unfold readConfigured at h
  split at h
  · cases h
    rw [if_neg (by omega)]
  · next hlen =>
    cases htype : tlv.type with
    | integer =>
      rw [htype] at h
      dsimp only at h
      split at h
      · cases h
      · cases h; rfl
    | octets =>
      simp only [htype, octstrCopy_nat, ok_bind, pure_eq_ok] at h
      cases h
      rw [if_neg (by simp)]
    | nulterminated =>
      simp only [htype] at h
      rw [if_pos ⟨rfl, by omega⟩, posUntilNul]
      split at h
      all_goals
        rename_i hcopy
        cases h
        rw [hcopy]
        rfl

section
variable (hroom : s.pos + 4 ≤ data.length) (h : optionalRound tlvs smscId options data s = .ok s')
include hroom h

theorem optionalRound_pos :
    (ReadAsNulterminated tlvs smscId options data s.pos →
      s'.pos = posUntilNul data (s.pos + 4) (Tlv.lengthAt data s.pos)) ∧
    (¬ ReadAsNulterminated tlvs smscId options data s.pos → s'.pos = Tlv.next data s.pos) := by
  unfold optionalRound at h
  simp only [optTag_eq hroom, optLen_eq hroom] at h
  unfold ReadAsNulterminated Tlv.next
  cases hfind : options.find? (·.tag = Tlv.tagAt data s.pos) with
  | some o =>
    rw [hfind] at h
    have hpos := readOptional_pos h
    cases o with
    | integer name octets => exact ⟨False.elim, fun _ => hpos⟩
    | nulterminated name maxLen =>
      rw [Optional.posAfter] at hpos
      exact ⟨fun hread => by rw [hpos, if_pos hread], fun hread => by rw [hpos, if_neg hread]⟩
    | octets name minLen maxLen => exact ⟨False.elim, fun _ => hpos⟩
  | none =>
    rw [hfind] at h
    cases htlv : smppTlvGetByTag tlvs smscId (Tlv.tagAt data s.pos) with
    | some tlv =>
      rw [htlv] at h
      have hpos := readConfigured_pos h
      exact ⟨fun hread => by rw [hpos, if_pos hread], fun hread => by rw [hpos, if_neg hread]⟩
    | none =>
      rw [htlv] at h
      cases h
      exact ⟨False.elim, fun _ => rfl⟩

theorem round_lands_iff :
    s'.pos = Tlv.next data s.pos ↔
      (ReadAsNulterminated tlvs smscId options data s.pos → NulEndsValue data s.pos) := by
  obtain ⟨hnul, hother⟩ := optionalRound_pos hroom h
  by_cases hread : ReadAsNulterminated tlvs smscId options data s.pos
  · rw [hnul hread, posUntilNul_iff]
    simp [hread]
  · simp [hread, hother hread]

end

def loopRounds (tlvs : SmppTlvs) (smscId : Option Octstr) (options : List Optional)
    (data : Octstr) : Nat → Unpacking → List (Unpacking × Unpacking)
  | 0, _ => []
  | fuel+1, s =>
    if s.pos + 4 ≤ data.length then
      match optionalRound tlvs smscId options data s with
      | .ok s' => (s, s') :: loopRounds tlvs smscId options data fuel s'
      | .error _ => []
    else []

theorem mem_loopRounds {fuel : Nat} {r : Unpacking × Unpacking}
    (h : r ∈ loopRounds tlvs smscId options data fuel s) :
    r.1.pos + 4 ≤ data.length ∧ optionalRound tlvs smscId options data r.1 = .ok r.2 := by
  induction fuel generalizing s with
  | zero => cases h
  | succ fuel ih =>
    unfold loopRounds at h
    split at h
    · next hroom =>
      split at h
      · next s₁ hround =>
        rcases List.mem_cons.mp h with rfl | h
        · exact ⟨hroom, hround⟩
        · exact ih h
      · cases h
    · cases h

/-- **Every round** that does not abort ends at its start plus four plus the announced length,
exactly when every string read has its first NUL at the end of the value. -/
theorem rounds_land_iff (tlvs : SmppTlvs) (smscId : Option Octstr) (options : List Optional)
    (data : Octstr) (fuel : Nat) (s : Unpacking) :
    (∀ r ∈ loopRounds tlvs smscId options data fuel s,
      r.2.pos = r.1.pos + 4 + Tlv.lengthAt data r.1.pos) ↔
    ∀ r ∈ loopRounds tlvs smscId options data fuel s,
      ReadAsNulterminated tlvs smscId options data r.1.pos → NulEndsValue data r.1.pos := by
  refine forall₂_congr fun r hr => ?_
  obtain ⟨hroom, hround⟩ := mem_loopRounds hr
  exact round_lands_iff hroom hround

def earlyNul : Octstr :=
  [0x80, 0, 0, 5, 0, 0, 0, 0, 0, 0, 0, 1, 0,
    0, 0x1D, 0, 3, 65, 0, 66,
    4, 0x25, 0, 1, 2]

/-- The position moves by two instead of three, and the failure reason is not found. -/
theorem earlyNul_desynchronises :
    (loopRounds ⟨none, none⟩ none PduType.deliverSmResp.options earlyNul earlyNul.length
      ⟨13, smppPduCreate .deliverSmResp 0⟩).map (fun r => (r.1.pos, r.2.pos)) =
        [(13, 19), (19, 9495)] ∧
    Tlv.lengthAt earlyNul 13 = 3 ∧
    (smppPduUnpack ⟨none, none⟩ none earlyNul).map (·.tlvInt .deliveryFailureReason) =
      .ok (-1) := by
  decide +kernel

end Kannel
