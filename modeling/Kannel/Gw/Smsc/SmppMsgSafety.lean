import Kannel.Addons.OpenSmppBox

/-!
# Incoming PDUs and failing assertions

The conversions can fail an assertion only where the header length is read: `octstr_get_char`
insists on a string.
-/

namespace Kannel

section
variable {ε σ α : Type}

theorem foldlM_keeps {P : σ → Prop} {f : σ → α → Except ε σ}
    (hf : ∀ s a s', P s → f s a = .ok s' → P s') (l : List α) {s s' : σ} (h : P s)
    (hfold : l.foldlM f s = .ok s') : P s' := by
  induction l generalizing s with
  | nil =>
    cases hfold
    exact h
  | cons a l ih =>
    rw [List.foldlM_cons] at hfold
    obtain ⟨s₁, hstep, hrest⟩ := bind_eq_ok_iff.mp hfold
    exact ih (hf s a s₁ h hstep) hrest

end

structure Shaped (type : PduType) (s : Unpacking) : Prop where
  type_eq : s.pdu.type = type
  tlv : type.optional.isSome → s.pdu.tlv.isSome

variable {data : Octstr} {s s' : Unpacking} {type : PduType}

theorem unpackMandatory_shaped {m : Mandatory} (h : Shaped type s)
    (hread : unpackMandatory data s m = .ok s') : Shaped type s' := by
  cases m with
  | integer name octets =>
    simp only [unpackMandatory] at hread
    split at hread
    · cases hread
    · cases hread
      exact ⟨h.type_eq, h.tlv⟩
  | nulterminated name maxOctets =>
    simp only [unpackMandatory] at hread
    split at hread <;> cases hread <;> exact ⟨h.type_eq, h.tlv⟩
  | octets name fieldGivingOctets =>
    simp only [unpackMandatory] at hread
    obtain ⟨val, -, hread⟩ := bind_eq_ok_iff.mp hread
    split at hread
    · cases hread
    · cases hread
      exact ⟨h.type_eq, h.tlv⟩

section
variable (tlv : Option SmppTlv) (val : Option Octstr) (pdu : SmppPdu 2048)

theorem putTlv_type : (putTlv tlv val pdu).type = pdu.type := by
  simp only [putTlv]
  split <;> rfl

theorem putTlv_str : (putTlv tlv val pdu).str = pdu.str := by
  simp only [putTlv]
  split <;> rfl

theorem putTlv_isSome (h : pdu.tlv.isSome) : (putTlv tlv val pdu).tlv.isSome := by
  simp only [putTlv]
  split
  · rfl
  · exact h

end

structure KeptBy (s s' : Unpacking) : Prop where
  type_eq : s'.pdu.type = s.pdu.type
  str_eq : s'.pdu.str = s.pdu.str
  tlv : s.pdu.tlv.isSome → s'.pdu.tlv.isSome

theorem KeptBy.refl (s : Unpacking) (pos : Nat) : KeptBy s ⟨pos, s.pdu⟩ := ⟨rfl, rfl, id⟩

theorem KeptBy.trans {s'' : Unpacking} (h : KeptBy s s') (h' : KeptBy s' s'') : KeptBy s s'' where
  type_eq := h'.type_eq.trans h.type_eq
  str_eq := h'.str_eq.trans h.str_eq
  tlv hs := h'.tlv (h.tlv hs)

variable {pdu : SmppPdu 2048}

theorem KeptBy.putTlv (pos : Nat) (tlv : Option SmppTlv) (val : Option Octstr)
    (htype : pdu.type = s.pdu.type) (hstr : pdu.str = s.pdu.str) (htlv : pdu.tlv = s.pdu.tlv) :
    KeptBy s ⟨pos, putTlv tlv val pdu⟩ where
  type_eq := (putTlv_type tlv val pdu).trans htype
  str_eq := (putTlv_str tlv val pdu).trans hstr
  tlv hs := putTlv_isSome tlv val pdu (htlv ▸ hs)

theorem readOptional_kept {optLen : Nat} {tlv : Option SmppTlv} {option : Optional}
    (h : readOptional data s optLen tlv option = .ok s') : KeptBy s s' := by
  cases option with
  | integer name octets =>
    simp only [readOptional] at h
    split at h
    · cases h
      exact KeptBy.refl s _
    · split at h
      · cases h
      · cases h
        exact KeptBy.putTlv _ tlv _ rfl rfl rfl
  | nulterminated name maxLen =>
    simp only [readOptional] at h
    split at h
    · cases h
      exact KeptBy.refl s _
    · split at h <;> cases h <;> exact KeptBy.putTlv _ tlv _ rfl rfl rfl
  | octets name minLen maxLen =>
    simp only [readOptional] at h
    split at h
    · cases h
      exact KeptBy.refl s _
    · obtain ⟨val, -, h⟩ := bind_eq_ok_iff.mp h
      cases h
      exact KeptBy.putTlv _ tlv _ rfl rfl rfl

theorem readConfigured_kept {optLen : Nat} {tlv : SmppTlv}
    (h : readConfigured data s optLen tlv = .ok s') : KeptBy s s' := by
  simp only [readConfigured] at h
  split at h
  · cases h
    exact KeptBy.refl s _
  · split at h
    · split at h
      · cases h
      · cases h
        exact KeptBy.putTlv _ (some tlv) _ rfl rfl rfl
    · obtain ⟨val, -, h⟩ := bind_eq_ok_iff.mp h
      cases h
      exact KeptBy.putTlv _ (some tlv) _ rfl rfl rfl
    · split at h
      · cases h
        exact KeptBy.putTlv _ (some tlv) _ rfl rfl rfl
      · cases h
        exact KeptBy.refl s _

variable {smscId : Option Octstr} {tlvs : SmppTlvs} {options : List Optional}

theorem optionalRound_kept (h : optionalRound tlvs smscId options data s = .ok s') :
    KeptBy s s' := by
  have hskip : ∀ pos, KeptBy s ⟨pos, s.pdu⟩ := KeptBy.refl s
  simp only [optionalRound] at h
  split at h
  · exact (hskip _).trans (readOptional_kept h)
  · exact (hskip _).trans (readConfigured_kept h)
  · cases h
    exact hskip _

theorem optionalLoop_kept {fuel : Nat} (h : optionalLoop tlvs smscId options data fuel s = .ok s') :
    KeptBy s s' := by
  induction fuel generalizing s with
  | zero =>
    cases h
    exact KeptBy.refl _ _
  | succ fuel ih =>
    rw [optionalLoop] at h
    split at h
    · obtain ⟨s₁, hround, h⟩ := bind_eq_ok_iff.mp h
      exact (optionalRound_kept hround).trans (ih h)
    · cases h
      exact KeptBy.refl _ _

def EndsWithShortMessage (type : PduType) : Prop :=
  type.mandatory = type.mandatory.dropLast ++ [.octets .shortMessage .smLength]

theorem unpackMandatories_shaped (h : unpackMandatories data type = .ok s) : Shaped type s := by
  have hstart : Shaped type ⟨0, smppPduCreate type 0⟩ := by
    refine ⟨rfl, fun hoptional => ?_⟩
    simpa [smppPduCreate] using hoptional
  exact foldlM_keeps (fun s m s' hs hread => unpackMandatory_shaped hs hread) _ hstart h

theorem unpackMandatories_shortMessage (hends : EndsWithShortMessage type)
    (h : unpackMandatories data type = .ok s) : (s.pdu.str .shortMessage).isSome := by
  unfold unpackMandatories at h
  rw [hends, List.foldlM_append] at h
  obtain ⟨s₁, -, h⟩ := bind_eq_ok_iff.mp h
  rw [List.foldlM_cons] at h
  obtain ⟨s₂, hlast, ⟨⟩⟩ := bind_eq_ok_iff.mp h
  obtain ⟨val, -, hlast⟩ := bind_eq_ok_iff.mp hlast
  split at hlast
  · cases hlast
  · cases hlast
    rfl

theorem smppPduUnpack_shape (h : smppPduUnpack tlvs smscId data = .ok pdu) :
    (pdu.type.optional.isSome → pdu.tlv.isSome) ∧
      (EndsWithShortMessage pdu.type → (pdu.str .shortMessage).isSome) := by
  unfold smppPduUnpack at h
  split at h
  · cases h
  · split at h
    · cases h
    · rename_i type _
      obtain ⟨s, hread, h⟩ := bind_eq_ok_iff.mp h
      have hs := unpackMandatories_shaped hread
      have hshort := fun hends => unpackMandatories_shortMessage hends hread
      split at h
      · cases h
        rw [hs.type_eq]
        exact ⟨hs.tlv, hshort⟩
      · obtain ⟨s', hloop, ⟨⟩⟩ := bind_eq_ok_iff.mp h
        have hkept := optionalLoop_kept hloop
        rw [hkept.type_eq, hkept.str_eq, hs.type_eq]
        exact ⟨fun ho => hkept.tlv (hs.tlv ho), hshort⟩

def Stop.Bad : Stop → Prop
  | .failure _ => True
  | .refusal reason => reason = 0

@[simp] theorem Stop.bad_failure (f : Failure) : Stop.Bad (.failure f) ↔ True := Iff.rfl

@[simp] theorem Stop.bad_refusal (reason : Nat) : Stop.Bad (.refusal reason) ↔ reason = 0 := Iff.rfl

variable (env : SmppEnv) (addr : Option Octstr)

theorem convertAddrFromPdu_avoids (ton : Nat) (altAddrCharset : Option Octstr) :
    Avoids Stop.Bad (convertAddrFromPdu env addr ton altAddrCharset) := by
  unfold convertAddrFromPdu
  repeat' split
  all_goals simp [smppEsmeRinvsrcadr]

theorem boxConvertAddrFromPdu_avoids (ton : Nat) :
    Avoids Stop.Bad (boxConvertAddrFromPdu addr ton) := by
  unfold boxConvertAddrFromPdu
  repeat' split
  all_goals simp [smppEsmeRinvsrcadr]

section
variable {size : Nat} [NeZero size] {convert : Option Octstr → Nat → Except Stop (Option Octstr)}
  {pdu : SmppPdu size} {msg : Sms}

def AddrsAccepted (convert : Option Octstr → Nat → Except Stop (Option Octstr))
    (pdu : SmppPdu size) : Prop :=
  (convert (pdu.str .sourceAddr) (pdu.int .sourceAddrTon)).isOk ∧
    pdu.str .destinationAddr ≠ none ∧
    (convert (pdu.str .destinationAddr) (pdu.int .destAddrTon)).isOk

def HeaderWithoutText (pdu : SmppPdu size) : Prop :=
  hasBits (pdu.int .esmClass) esmClassSubmitUdhIndicator ∧ pdu.tlvStr .messagePayload = none

theorem convertAddrs_avoids (hconvert : ∀ addr ton, Avoids Stop.Bad (convert addr ton)) :
    Avoids Stop.Bad (convertAddrs convert pdu msg) := by
  refine Avoids.bind_iff.mpr ⟨hconvert _ _, fun sender _ => ?_⟩
  split
  · refine Avoids.bind_iff.mpr ⟨by simp [smppEsmeRinvdstadr], fun _ hthrow => ?_⟩
    cases hthrow
  · refine Avoids.bind_iff.mpr ⟨hconvert _ _, fun receiver _ => ?_⟩
    simp

theorem convertAddrs_isOk_iff :
    (∃ msg', convertAddrs convert pdu msg = .ok msg') ↔ AddrsAccepted convert pdu := by
  unfold convertAddrs AddrsAccepted
  cases convert (pdu.str .sourceAddr) (pdu.int .sourceAddrTon) with
  | error e => simp [bind, Except.bind, Except.isOk, Except.toBool]
  | ok sender =>
    by_cases hdest : pdu.str .destinationAddr = none
    · simp [hdest, bind, Except.bind, throw, throwThe, MonadExceptOf.throw]
    · cases convert (pdu.str .destinationAddr) (pdu.int .destAddrTon) with
      | error e => simp [hdest, bind, Except.bind, Except.isOk, Except.toBool]
      | ok receiver =>
        simp [hdest, bind, Except.bind, Except.isOk, Except.toBool, pure, Except.pure]

theorem sarToUdh_avoids (present : Bool) : Avoids Stop.Bad (sarToUdh present pdu msg) := by
  unfold sarToUdh
  repeat' split
  all_goals simp [smppEsmeRinvtlvval]

theorem sarToUdh_msgdata {present : Bool} {msg' : Sms} (h : sarToUdh present pdu msg = .ok msg') :
    msg'.msgdata = msg.msgdata := by
  unfold sarToUdh at h
  repeat' split at h
  all_goals cases h
  all_goals rfl

theorem sarToUdh_ok_iff (present : Bool) :
    (∃ msg', sarToUdh present pdu msg = .ok msg') ↔
      ¬ (present ∧ hasBits (pdu.int .esmClass) esmClassSubmitUdhIndicator) := by
  unfold sarToUdh
  repeat' split
  all_goals simp_all

theorem takeUdh_avoids_iff (esmClass : Nat) :
    Avoids Stop.Bad (takeUdh esmClass msg) ↔
      (hasBits esmClass esmClassSubmitUdhIndicator → msg.msgdata.isSome) := by
  unfold takeUdh
  split
  · rename_i hbits
    cases msg.msgdata with
    | none => simp [hbits]
    | some msgdata =>
      dsimp only
      split <;> simp [hbits, smppEsmeRinvesmclass]
  · rename_i hbits
    simp [hbits]

theorem tlvToMetaData_avoids (h : pdu.tlv.isSome) : Avoids Stop.Bad (tlvToMetaData pdu msg) := by
  obtain ⟨tlv, htlv⟩ := Option.isSome_iff_exists.mp h
  simp [tlvToMetaData, htlv]

theorem boxMetaData_avoids (box : SmppBox) (h : pdu.tlv.isSome) :
    Avoids Stop.Bad (boxMetaData box pdu msg) := by
  unfold boxMetaData
  split
  · exact tlvToMetaData_avoids h
  · simp

theorem messageText_isSome (version : Nat) (h : (pdu.str .shortMessage).isSome) :
    (messageText version pdu).isSome := by
  unfold messageText
  split
  · rename_i hpayload
    exact hpayload.2.2
  · exact h

end

section
variable {size : Nat} [NeZero size] {pdu : SmppPdu size}

theorem afterAddrs_avoids_iff {type : PduType} {msg : Sms} {rest : Sms → Except Stop Sms}
    {convert : Option Octstr → Nat → Except Stop (Option Octstr)} (htype : pdu.type = type)
    (hconvert : ∀ addr ton, Avoids Stop.Bad (convert addr ton)) :
    Avoids Stop.Bad (assertType pdu type >>= fun _ => convertAddrs convert pdu msg >>= rest) ↔
      ∀ msg', convertAddrs convert pdu msg = .ok msg' → Avoids Stop.Bad (rest msg') := by
  simp [Avoids.bind_iff, assertType, htype, convertAddrs_avoids hconvert]

theorem pduToMsg_avoids (smpp : SmppLink) (htype : pdu.type = .deliverSm)
    (hshort : (pdu.str .shortMessage).isSome) (htlv : pdu.tlv.isSome) :
    Avoids Stop.Bad (pduToMsg env smpp pdu) := by
  refine (afterAddrs_avoids_iff htype fun _ _ => convertAddrFromPdu_avoids _ _ _ _).mpr ?_
  intro msg _
  refine Avoids.bind_iff.mpr ⟨sarToUdh_avoids _, fun msg' hmsg' => ?_⟩
  refine Avoids.bind_iff.mpr ⟨?_, fun msg'' _ => tlvToMetaData_avoids htlv⟩
  -- the text is there, whether or not parameters of a segment add a header
  rw [takeUdh_avoids_iff, sarToUdh_msgdata hmsg']
  exact fun _ => messageText_isSome smpp.version hshort

theorem boxPduToMsg_avoids (box : SmppBox) (htype : pdu.type = .submitSm)
    (hshort : (pdu.str .shortMessage).isSome) (htlv : pdu.tlv.isSome) :
    Avoids Stop.Bad (boxPduToMsg env box pdu) := by
  refine (afterAddrs_avoids_iff htype fun _ _ => boxConvertAddrFromPdu_avoids _ _).mpr ?_
  intro msg _
  refine Avoids.bind_iff.mpr ⟨?_, fun msg' _ => ?_⟩
  · exact (takeUdh_avoids_iff _).mpr fun _ => messageText_isSome box.version hshort
  · exact Avoids.bind_iff.mpr ⟨boxMetaData_avoids box htlv, fun _ _ => by simp⟩

theorem dataSmToMsg_avoids_iff (smpp : SmppLink) (htype : pdu.type = .dataSm)
    (htlv : pdu.tlv.isSome) :
    Avoids Stop.Bad (dataSmToMsg env smpp pdu) ↔
      (AddrsAccepted (convertAddrFromPdu env · · smpp.altAddrCharset) pdu →
        HeaderWithoutText pdu → hasSar pdu) := by
  refine (afterAddrs_avoids_iff htype fun _ _ => convertAddrFromPdu_avoids _ _ _ _).trans ?_
  rw [← convertAddrs_isOk_iff, exists_imp]
  refine forall_congr' fun msg => imp_congr_right fun _ => ?_
  rw [Avoids.bind_iff, and_iff_right (sarToUdh_avoids _)]
  constructor
  · intro h hheader
    by_contra hsar
    have hcut := h _ (by simp [sarToUdh, hsar]; rfl)
    have htext := (takeUdh_avoids_iff _).mp (Avoids.bind_iff.mp hcut).1 hheader.1
    rw [hheader.2] at htext
    cases htext
  · intro h msg' hmsg'
    refine Avoids.bind_iff.mpr ⟨?_, fun msg'' _ => tlvToMetaData_avoids htlv⟩
    rw [takeUdh_avoids_iff, sarToUdh_msgdata hmsg']
    intro hbits
    by_contra hnone
    have hsar := h ⟨hbits, by simpa using hnone⟩
    exact (sarToUdh_ok_iff _).mp ⟨msg', hmsg'⟩ ⟨hsar, hbits⟩

theorem boxDataSmToMsg_avoids_iff (box : SmppBox) (htype : pdu.type = .dataSm)
    (htlv : pdu.tlv.isSome) :
    Avoids Stop.Bad (boxDataSmToMsg env box pdu) ↔
      (AddrsAccepted boxConvertAddrFromPdu pdu → ¬ HeaderWithoutText pdu) := by
  refine (afterAddrs_avoids_iff htype fun _ _ => boxConvertAddrFromPdu_avoids _ _).trans ?_
  rw [← convertAddrs_isOk_iff, exists_imp]
  refine forall_congr' fun msg => imp_congr_right fun _ => ?_
  rw [Avoids.bind_iff, and_iff_left, takeUdh_avoids_iff]
  · simp [HeaderWithoutText, Option.isSome_iff_ne_none]
  · exact fun _ _ => Avoids.bind_iff.mpr ⟨boxMetaData_avoids box htlv, fun _ _ => by simp⟩

end

/-- **Assertions.**  The conversions of `deliver_sm` and `submit_sm` never fail; those of
`data_sm` exactly if a header is to be cut off a missing `message_payload`, and the driver's has
no parameters of a segment. -/
theorem unpacked_conversions_avoid_iff (env : SmppEnv) (smpp : SmppLink) (box : SmppBox)
    (tlvs : SmppTlvs) (smscId : Option Octstr) (data : Octstr) (pdu : SmppPdu 2048)
    (hunpack : smppPduUnpack tlvs smscId data = .ok pdu) :
    (pdu.type = .deliverSm → Avoids Stop.Bad (pduToMsg env smpp pdu)) ∧
      (pdu.type = .dataSm →
        (Avoids Stop.Bad (dataSmToMsg env smpp pdu) ↔
          (AddrsAccepted (convertAddrFromPdu env · · smpp.altAddrCharset) pdu →
            HeaderWithoutText pdu → hasSar pdu))) ∧
      (pdu.type = .submitSm → Avoids Stop.Bad (boxPduToMsg env box pdu)) ∧
      (pdu.type = .dataSm →
        (Avoids Stop.Bad (boxDataSmToMsg env box pdu) ↔
          (AddrsAccepted boxConvertAddrFromPdu pdu → ¬ HeaderWithoutText pdu))) := by
  obtain ⟨htlv, hshort⟩ := smppPduUnpack_shape hunpack
  refine ⟨?_, ?_, ?_, ?_⟩ <;> intro htype <;> rw [htype] at htlv hshort
  · exact pduToMsg_avoids env smpp htype (hshort rfl) (htlv rfl)
  · exact dataSmToMsg_avoids_iff env smpp htype (htlv rfl)
  · exact boxPduToMsg_avoids env box htype (hshort rfl) (htlv rfl)
  · exact boxDataSmToMsg_avoids_iff env box htype (htlv rfl)

def plainBox : SmppBox := ⟨0x34, none, none, fun _ => 0⟩

def headerDataSm : Octstr :=
  [0, 0, 1, 3, 0, 0, 0, 0, 0, 0, 0, 1, 0, 0, 0, 0, 0, 0, 49, 0, 0x40, 0, 0]

theorem unpacked_conversions_avoid_payload :
    ∃ pdu, smppPduUnpack ⟨none, none⟩ none (headerDataSm ++ [0x04, 0x24, 0, 1, 0]) = .ok pdu ∧
      pdu.type = .dataSm ∧ Avoids Stop.Bad (dataSmToMsg idleEnv plainLink pdu) ∧
      Avoids Stop.Bad (boxDataSmToMsg idleEnv plainBox pdu) := by
  obtain ⟨pdu, hunpack, htype, hpayload⟩ :
      ∃ pdu, smppPduUnpack ⟨none, none⟩ none (headerDataSm ++ [0x04, 0x24, 0, 1, 0]) = .ok pdu ∧
        pdu.type = .dataSm ∧ pdu.tlvStr .messagePayload = some [0] := by
    decide +kernel
  obtain ⟨-, hdriver, -, hbox⟩ :=
    unpacked_conversions_avoid_iff idleEnv plainLink plainBox ⟨none, none⟩
    none _ pdu hunpack
  have htext : ¬ HeaderWithoutText pdu := by
    intro h
    cases hpayload.symm.trans h.2
  exact ⟨pdu, hunpack, htype, (hdriver htype).mpr fun _ h => absurd h htext,
    (hbox htype).mpr fun _ => htext⟩

/-- Without `message_payload`, both conversions of a `data_sm` fail an assertion. -/
theorem headerDataSm_fails_assertion :
    ∃ pdu, smppPduUnpack ⟨none, none⟩ none headerDataSm = .ok pdu ∧ pdu.type = .dataSm ∧
      dataSmToMsg idleEnv plainLink pdu = .error (.failure .assertion) ∧
      boxDataSmToMsg idleEnv plainBox pdu = .error (.failure .assertion) := by
  decide +kernel

end Kannel
