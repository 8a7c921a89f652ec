import Kannel.Gw.Smsc.SmppPdu

/-!
# The frames of a packed PDU

The length of an optional parameter and its value are written by different code, with different
rules of truncation.
-/

namespace Kannel
open List
variable {size : Nat} [NeZero size] {pdu : SmppPdu size}

def Optional.Framed (pdu : SmppPdu size) : Optional → Prop
  | .integer _ _ => True
  | .nulterminated name maxLen => ∀ field, pdu.tlvStr name = some field → field.length ≠ maxLen
  | .octets name minLen maxLen =>
    ∀ field, pdu.tlvStr name = some field → minLen ≤ field.length → field.length ≤ maxLen →
      field.length < 65536

def SmppTlv.Framed (tlv : SmppTlv) (val : Octstr) : Prop :=
  match tlv.type with
  | .integer =>
    (0 ≤ tlv.length ∧ tlv.length < 65536) ∨ (tlv.length < 0 ∧ tlv.length % 65536 = 0)
  | .octets => val.length ≤ toUlong tlv.length → val.length < 65536
  | .nulterminated => val.length ≤ toUlong tlv.length → val.length + 1 < 65536

structure SmppPdu.Framed (tlvs : SmppTlvs) (smscId : Option Octstr) (pdu : SmppPdu size) :
    Prop where
  options : ∀ o ∈ pdu.type.options, o.Framed pdu
  configured : pdu.type.optional.isSome → ∀ dict, pdu.tlv = some dict →
    ∀ entry ∈ configuredValues tlvs smscId dict, entry.1.Framed (entry.2.getD [])

theorem mod_two_octets {n : Nat} : n % 65536 = n ↔ n < 65536 := by
  omega

theorem length_packNulterminated {maxOctets : Nat} (hmax : 1 ≤ maxOctets) (field : Octstr) :
    (packNulterminated maxOctets (some field)).length = min field.length (maxOctets - 1) + 1 := by
  unfold packNulterminated
  dsimp only
  split <;> simp <;> omega

theorem packOptional_honest {o : Optional} (ho : o.Sized) :
    (∀ f, packOptional pdu o = some f → f.Honest) ↔ o.Framed pdu := by
  cases o with
  | integer name octets =>
    have hlt : octets % 65536 = octets := mod_two_octets.mpr (by have : octets ≤ 5 := ho; omega)
    refine iff_of_true (fun f hf => ?_) trivial
    simp only [packOptional] at hf
    split at hf
    · cases hf
      simpa [Tlv.Frame.Honest, encodedInteger] using hlt
    · cases hf
  | nulterminated name maxLen =>
    obtain ⟨hpos, hmax⟩ : 1 ≤ maxLen ∧ maxLen < 65535 := ho
    simp only [packOptional, Option.map_eq_some_iff, forall_exists_index, and_imp, Optional.Framed]
    constructor
    · intro h field hfield heq
      have hhonest := h _ field hfield rfl
      simp only [Tlv.Frame.Honest, length_packNulterminated hpos] at hhonest
      split at hhonest <;> omega
    · rintro h f field hfield rfl
      have hne := h field hfield
      simp only [Tlv.Frame.Honest, length_packNulterminated hpos]
      split <;> omega
  | octets name minLen maxLen =>
    simp only [packOptional, Option.bind_eq_some_iff, forall_exists_index, and_imp, Optional.Framed]
    constructor
    · intro h field hfield hlo hhi
      have hhonest := h _ field hfield (if_neg (by omega))
      exact mod_two_octets.mp hhonest
    · intro h f field hfield hf
      split at hf
      · cases hf
      · cases hf
        exact mod_two_octets.mpr (h field hfield (by omega) (by omega))

theorem packConfigured_honest (tlv : SmppTlv) (val : Option Octstr) :
    (∀ f, packConfigured tlv val = some f → f.Honest) ↔ tlv.Framed (val.getD []) := by
  unfold packConfigured SmppTlv.Framed
  cases tlv.type with
  | integer =>
    simp only [Option.some.injEq, forall_eq', Tlv.Frame.Honest, encodedInteger,
      BigEndian.length_octets, toUlong]
    omega
  | octets =>
    dsimp only
    split
    · next hlong => exact iff_of_true nofun fun hle => by omega
    · next hshort =>
      simp only [Option.some.injEq, forall_eq', Tlv.Frame.Honest, mod_two_octets]
      exact ⟨fun h _ => h, fun h => h (by omega)⟩
  | nulterminated =>
    dsimp only
    split
    · next hlong => exact iff_of_true nofun fun hle => by omega
    · next hshort =>
      simp only [Option.some.injEq, forall_eq', Tlv.Frame.Honest, length_append,
        length_singleton, mod_two_octets]
      exact ⟨fun h _ => h, fun h => h (by omega)⟩

variable (tlvs : SmppTlvs) (smscId : Option Octstr)

theorem packDict_honest (tlv : Option (Dict Octstr size)) :
    (∀ f ∈ packDict tlvs smscId tlv, f.Honest) ↔
      ∀ dict, tlv = some dict →
        ∀ entry ∈ configuredValues tlvs smscId dict, entry.1.Framed (entry.2.getD []) := by
  cases tlv with
  | none => simp [packDict]
  | some dict =>
    simp only [packDict, forall_mem_filterMap, Option.some.injEq, forall_eq', packConfigured_honest]

theorem packOptionals_honest :
    (∀ f ∈ packOptionals tlvs smscId pdu, f.Honest) ↔ pdu.Framed tlvs smscId := by
  have hlayout := pdu.type.wellLaidOut.options.2
  have hopts : (∀ f ∈ pdu.type.options.filterMap (packOptional pdu), f.Honest) ↔
      ∀ o ∈ pdu.type.options, o.Framed pdu := by
    rw [forall_mem_filterMap]
    exact forall₂_congr fun o ho => packOptional_honest (hlayout o ho)
  unfold packOptionals
  unfold PduType.options at hopts
  cases hopt : pdu.type.optional with
  | none =>
    refine iff_of_true (by simp) ⟨?_, ?_⟩
    · simp [PduType.options, hopt]
    · simp [hopt]
  | some options =>
    rw [hopt, Option.getD_some] at hopts
    simp only [mem_append, or_imp, forall_and, hopts, packDict_honest]
    constructor
    · rintro ⟨ho, hc⟩
      exact ⟨by simpa [PduType.options, hopt] using ho, fun _ => hc⟩
    · rintro ⟨ho, hc⟩
      exact ⟨by simpa [PduType.options, hopt] using ho, hc (by simp [hopt])⟩

/-- Behind the mandatory part there are frames, and going by their lengths one arrives exactly
at the end. -/
structure ReadsAsFrames (tlvs : SmppTlvs) (smscId : Option Octstr) (pdu : SmppPdu size) :
    Prop where
  frames : (smppPduPack tlvs smscId pdu).drop (4 + (packMandatories pdu).length) =
    (packOptionals tlvs smscId pdu).flatMap Tlv.Frame.octets
  honest : ∀ f ∈ packOptionals tlvs smscId pdu, f.Honest
  arrives : ∀ fuel ≥ (packOptionals tlvs smscId pdu).length,
    Tlv.walk (smppPduPack tlvs smscId pdu) fuel (4 + (packMandatories pdu).length) =
      (smppPduPack tlvs smscId pdu).length

theorem smppPduPack_split (pdu : SmppPdu size) :
    ∃ before, before.length = 4 + (packMandatories pdu).length ∧
      smppPduPack tlvs smscId pdu =
        before ++ (packOptionals tlvs smscId pdu).flatMap Tlv.Frame.octets := by
  refine ⟨encodedInteger ((packMandatories pdu ++
    (packOptionals tlvs smscId pdu).flatMap Tlv.Frame.octets).length + 4) 4 ++
      packMandatories pdu, ?_, ?_⟩
  · simp [encodedInteger]
  · rw [smppPduPack, append_assoc]

/-- **Framing.**  A packed PDU can be read by its lengths exactly when no NUL-terminated
parameter has just the maximal length and no length exceeds two octets. -/
theorem framed_iff (tlvs : SmppTlvs) (smscId : Option Octstr) (pdu : SmppPdu size) :
    ReadsAsFrames tlvs smscId pdu ↔ pdu.Framed tlvs smscId := by
  rw [← packOptionals_honest]
  refine ⟨ReadsAsFrames.honest, fun honest => ?_⟩
  obtain ⟨before, hlen, hpack⟩ := smppPduPack_split tlvs smscId pdu
  refine ⟨?_, honest, fun fuel hfuel => ?_⟩
  · rw [hpack, ← hlen, drop_left]
  · rw [← hlen]
    exact Tlv.walk_frames _ hpack honest hfuel

def receipt (len : Nat) : SmppPdu 2048 :=
  (smppPduCreate .deliverSm 1).setTlvStr .receiptedMessageId (some (replicate len 49))

theorem framed_receipt : ReadsAsFrames ⟨none, none⟩ none (receipt 64) :=
  (framed_iff _ _ _).mpr ((packOptionals_honest _ _).mp (by decide +kernel))

/-- An identifier of the maximal length is announced with 66 octets and written
with 65. -/
theorem receipt_misframed :
    packOptionals ⟨none, none⟩ none (receipt 65) = [⟨0x001E, 66, replicate 64 49 ++ [0]⟩] ∧
    ¬ ReadsAsFrames ⟨none, none⟩ none (receipt 65) := by
  have hframes : packOptionals ⟨none, none⟩ none (receipt 65) =
      [⟨0x001E, 66, replicate 64 49 ++ [0]⟩] := by decide +kernel
  refine ⟨hframes, fun h => ?_⟩
  have hhonest := h.honest
  exact absurd (hhonest _ mem_cons_self) (by decide)

end Kannel
