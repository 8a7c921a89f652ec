import Kannel.Gw.SmsSplitText
import Kannel.Gw.Smsc.SmppMsgSafety

/-!
# A message that comes back

A message goes out as a `submit_sm` and its text comes back in a `deliver_sm`.
-/

namespace Kannel

structure Content where
  msgdata : Option Octstr
  udhdata : Option Octstr
  coding : Int
  mclass : Int
  mwi : Int
  deriving DecidableEq

def Sms.content (msg : Sms) : Content :=
  ⟨msg.msgdata, msg.udhdata, msg.coding, msg.mclass, msg.mwi⟩

def GsmText (text : Octstr) : Prop := ∃ chars, InAlphabet chars ∧ text = utf8Text chars

def WellFormedUdh (udh : Octstr) : Prop :=
  ∃ c rest, udh = c :: rest ∧ c.toNat = rest.length

/-- A coding that fits its text, a well-formed header if any, and a class and an indicator that
are undefined or valid. -/
structure Sendable (msg : Sms) : Prop where
  metaData : msg.metaData = none
  coding :
    (msg.coding = dc7bit ∧ ∀ text, msg.msgdata = some text → GsmText text) ∨
      (msg.coding = dc8bit ∧ msg.mwi = smsParamUndefined) ∨ msg.coding = dcUcs2
  udhdata : ∀ udh, msg.udhdata = some udh → WellFormedUdh udh
  mclass : msg.mclass = smsParamUndefined ∨ (0 ≤ msg.mclass ∧ msg.mclass ≤ 3)
  mwi : msg.mwi = smsParamUndefined ∨ (0 ≤ msg.mwi ∧ msg.mwi ≤ 7)

structure UsesDefaults (smpp : SmppLink) : Prop where
  version : smpp.version = 0x34
  altCharset : smpp.altCharset = none
  altDcs : smpp.altDcs = 0

structure Delivers {size size' : Nat} [NeZero size] [NeZero size'] (submit : SmppPdu size)
    (deliver : SmppPdu size') : Prop where
  type : deliver.type = .deliverSm
  tlv : deliver.tlv.isSome
  esmClass : deliver.int .esmClass = submit.int .esmClass
  dataCoding : deliver.int .dataCoding = submit.int .dataCoding
  smLength : deliver.int .smLength = submit.int .smLength
  shortMessage : deliver.str .shortMessage = submit.str .shortMessage
  messagePayload : deliver.tlvStr .messagePayload = submit.tlvStr .messagePayload

/-- An indicator comes with the seven-bit coding and without a class, and a message with neither
is not put into the layout for a class. -/
def DcsSuffices (msg : Sms) : Prop :=
  (msg.mwi ≠ smsParamUndefined → msg.coding ≠ dcUcs2 ∧ msg.mclass = smsParamUndefined) ∧
    (msg.mwi = smsParamUndefined → msg.mclass = smsParamUndefined → msg.coding ≠ dcUcs2 →
      msg.compress ≠ compressOn → msg.altDcs = smsParamUndefined ∨ msg.altDcs = 0)

section
variable {msg msg' : Sms} {smpp : SmppLink}

theorem Sendable.coding_defined (h : Sendable msg) : msg.coding ≠ smsParamUndefined := by
  rcases h.coding with ⟨hc, -⟩ | ⟨hc, -⟩ | hc <;> rw [hc] <;> decide

theorem Sendable.coding_bounds (h : Sendable msg) : 0 ≤ msg.coding ∧ msg.coding ≤ 2 := by
  rcases h.coding with ⟨hc, -⟩ | ⟨hc, -⟩ | hc <;> rw [hc] <;> decide

theorem Sendable.mclass_bounds (h : Sendable msg) : -1 ≤ msg.mclass ∧ msg.mclass ≤ 3 := by
  have := h.mclass
  simp only [smsParamUndefined, msgParamUndefined] at this
  omega

def returnedCoding (msg : Sms) : Int :=
  if msg.mwi ≠ smsParamUndefined then dc7bit else msg.coding

def returnedMclass (msg : Sms) : Int :=
  if msg.mwi ≠ smsParamUndefined then smsParamUndefined
  else if msg.mclass = smsParamUndefined ∧ msg.coding ≠ dcUcs2 ∧ msg.compress ≠ compressOn ∧
      msg.altDcs ≠ smsParamUndefined ∧ msg.altDcs ≠ 0 then 1
  else msg.mclass

theorem fieldsToDcs_describes (hmsg : Sendable msg) (hmwi : msg.mwi = smsParamUndefined)
    (mode : Int)
    (hmode : msg.mclass = smsParamUndefined → ((mode = 0 ∨ mode = smsParamUndefined) ↔
      (msg.altDcs = smsParamUndefined ∨ msg.altDcs = 0))) :
    Describes (fieldsToDcs msg mode).2 msg.coding (returnedMclass msg) smsParamUndefined := by
  have hgeneral := generalDcs_describes msg hmsg.coding_bounds hmsg.mclass_bounds
  simp only [fieldsToDcs, defaultCoding_of_defined hmsg.coding_defined, if_neg (not_not.mpr hmwi)]
  by_cases hlayout : mode = 0 ∨ mode = smsParamUndefined ∨ msg.coding = dcUcs2 ∨
      msg.compress = compressOn
  · rw [if_pos hlayout]
    have hkept : returnedMclass msg = msg.mclass := by
      simp only [returnedMclass, if_neg (not_not.mpr hmwi)]
      refine if_neg ?_
      rintro ⟨hclass, hucs2, hcompress, hdefined, hzero⟩
      tauto
    rw [hkept]
    exact hgeneral
  · rw [if_neg hlayout]
    have hcoding : 0 ≤ msg.coding ∧ msg.coding ≤ 1 := by
      have hucs2 : msg.coding ≠ 2 := fun h => hlayout (.inr (.inr (.inl h)))
      have := hmsg.coding_bounds
      omega
    have hkept : returnedMclass msg =
        if msg.mclass = smsParamUndefined then 1 else msg.mclass := by
      simp only [returnedMclass, if_neg (not_not.mpr hmwi)]
      by_cases hclass : msg.mclass = smsParamUndefined
      · rw [if_pos hclass, if_pos]
        tauto
      · rw [if_neg hclass, if_neg (fun h => hclass h.1)]
    rw [hkept]
    exact classDcs_describes msg hcoding hmsg.mclass_bounds

theorem submitDcs_msg (hmsg : Sendable msg) : (submitDcs smpp msg).1 = msg := by
  unfold submitDcs
  split_ifs <;> exact fieldsToDcs_msg hmsg.coding_defined _

theorem submitDcs_describes (hlink : UsesDefaults smpp) (hmsg : Sendable msg) :
    Describes (submitDcs smpp msg).2 (returnedCoding msg) (returnedMclass msg) msg.mwi := by
  by_cases hmwi : msg.mwi = smsParamUndefined
  · have hcoding : returnedCoding msg = msg.coding := if_neg (not_not.mpr hmwi)
    rw [hcoding, hmwi]
    unfold submitDcs
    by_cases hclass : msg.mclass = smsParamUndefined
    · rw [if_neg (fun h => h.2 hclass)]
      refine fieldsToDcs_describes hmsg hmwi _ fun _ => ?_
      rw [hlink.altDcs]
      split_ifs with haltDcs
      · tauto
      · tauto
    · rw [if_pos ⟨hmwi, hclass⟩]
      exact fieldsToDcs_describes hmsg hmwi 1 fun h => absurd h hclass
  · have hcoding : returnedCoding msg = dc7bit := if_pos hmwi
    have hmclass : returnedMclass msg = smsParamUndefined := if_pos hmwi
    have hoctet := mwiDcs_describes { msg with coding := defaultCoding msg }
      (hmsg.mwi.resolve_left hmwi)
    have hdcs : ∀ mode, (fieldsToDcs msg mode).2 =
        mwiDcs { msg with coding := defaultCoding msg } := by
      intro mode
      simp only [fieldsToDcs, if_pos hmwi]
    rw [hcoding, hmclass]
    unfold submitDcs
    rw [if_neg (fun h => hmwi h.1), hdcs]
    exact hoctet

theorem dcsSuffices_iff (hmsg : Sendable msg) :
    DcsSuffices msg ↔ returnedCoding msg = msg.coding ∧ returnedMclass msg = msg.mclass := by
  unfold DcsSuffices returnedCoding returnedMclass
  by_cases hmwi : msg.mwi = smsParamUndefined
  · rw [if_neg (not_not.mpr hmwi), if_neg (not_not.mpr hmwi)]
    split_ifs with hclass
    · obtain ⟨hundefined, hucs2, hcompress, hdefined, hzero⟩ := hclass
      have hone : (1 : Int) ≠ msg.mclass := by
        rw [hundefined]
        decide
      tauto
    · tauto
  · rw [if_pos hmwi, if_pos hmwi]
    have hcoding : msg.coding ≠ dcUcs2 ↔ dc7bit = msg.coding := by
      rcases hmsg.coding with ⟨hc, -⟩ | ⟨-, hundefined⟩ | hc
      · rw [hc]
        decide
      · exact absurd hundefined hmwi
      · rw [hc]
        decide
    tauto

end

section
variable {env : SmppEnv} {smpp : SmppLink}

theorem smppValue_of_none (h : msg.metaData = none) (key : String) : smppValue msg key = none := by
  simp [smppValue, h]

def sentText (msg : Sms) : Option Octstr :=
  if msg.coding = dc7bit then msg.msgdata.map charsetUtf8ToGsm else msg.msgdata

def receivedText (coding : Int) (text : Option Octstr) : Option Octstr :=
  if coding = dc7bit then text.map charsetGsmToUtf8 else text

variable {dcs : BitVec 32}

theorem submitText_eq (hlink : UsesDefaults smpp) (hmsg : Sendable msg) {mclass mwi : Int}
    (hdcs : Describes dcs (returnedCoding msg) mclass mwi) :
    submitText env smpp msg dcs = (sentText msg, dcs) := by
  have hdefined := hmsg.coding_defined
  simp only [submitText, sentText, smppValue_of_none hmsg.metaData, hlink.altCharset]
  by_cases hcoding : msg.coding = dc7bit
  · rw [if_pos (.inl hcoding), if_pos hcoding]
    have hreturned : returnedCoding msg = dc7bit := by
      unfold returnedCoding
      split_ifs
      · rfl
      · exact hcoding
    rcases hdcs.2.1 with hplain | ⟨hhigh, -⟩
    · have hzero : dcs = 0 := by
        rw [hreturned] at hplain
        refine BitVec.eq_of_toNat_eq ?_
        simp only [dc7bit] at hplain
        simp only [BitVec.ofNat_eq_ofNat, BitVec.toNat_ofNat]
        omega
      subst hzero
      simp [handleMtDcs]
    · rw [if_pos hhigh]
  · rw [if_neg (by tauto), if_neg hcoding]
    simp

theorem handleMoDcs_reserved (esmClass : Nat) (hhigh : 16 ≤ dcs.toNat)
    (hcoding : msg.coding ≠ smsParamUndefined) :
    handleMoDcs env msg none dcs esmClass =
      { msg with msgdata := receivedText msg.coding msg.msgdata } := by
  unfold handleMoDcs receivedText
  split <;> try omega
  rw [if_neg (fun h => hcoding h.1)]
  by_cases hseven : msg.coding = dc7bit
  · rw [if_pos (.inl hseven), if_pos hseven, ← hseven]
  · rw [if_neg (by tauto), if_neg hseven]

theorem handleMoDcs_eq {coding mclass mwi : Int} (esmClass : Nat)
    (hdcs : Describes dcs coding mclass mwi) (hbounds : 0 ≤ coding ∧ coding ≤ 2)
    (hcoding : msg.coding = smsParamUndefined) (hmclass : msg.mclass = smsParamUndefined)
    (hmwi : msg.mwi = smsParamUndefined) :
    (handleMoDcs env (dcsToFields msg dcs).2 none dcs esmClass).content =
      ⟨receivedText coding msg.msgdata, msg.udhdata, coding, mclass, mwi⟩ := by
  have hfields := (dcsToFields_decodedFields dcs hcoding hmclass hmwi).trans hdcs.2.2
  simp only [Prod.mk.injEq] at hfields
  obtain ⟨hc, hm, hw⟩ := hfields
  have hdata := dcsToFields_msgdata dcs msg
  have hudh := dcsToFields_udhdata dcs msg
  generalize (dcsToFields msg dcs).2 = read at hc hm hw hdata hudh
  rcases hdcs.2.1 with hplain | ⟨-, hhigh⟩
  · have hcases : coding = 0 ∧ dcs.toNat = 0 ∨ coding = 1 ∧ dcs.toNat = 4 ∨
        coding = 2 ∧ dcs.toNat = 8 := by
      omega
    rcases hcases with ⟨rfl, hnat⟩ | ⟨rfl, hnat⟩ | ⟨rfl, hnat⟩ <;>
      simp [handleMoDcs, hnat, Sms.content, receivedText, dc7bit, dc8bit, dcUcs2, hm, hw, hdata,
        hudh]
  · have hdefined : read.coding ≠ smsParamUndefined := by
      rw [smsParamUndefined, msgParamUndefined]
      omega
    rw [handleMoDcs_reserved esmClass hhigh hdefined]
    simp [Sms.content, hc, hm, hw, hdata, hudh]

theorem hasBits_or (a b mask : Nat) :
    hasBits (a ||| b) mask = (hasBits a mask || hasBits b mask) := by
  simp only [hasBits, Nat.and_or_distrib_right]
  by_cases ha : a &&& mask = 0
  · simp [ha]
  · have hor : (a &&& mask) ||| (b &&& mask) ≠ 0 := by
      have hle : a &&& mask ≤ (a &&& mask) ||| (b &&& mask) := Nat.left_le_or
      omega
    simp [ha, hor]

theorem submitEsmClass_udhi (hmsg : Sendable msg) :
    hasBits (submitEsmClass smpp msg) esmClassSubmitUdhIndicator =
      (msg.udhdata.isSome || hasBits (toUlong smpp.esmClass) esmClassSubmitUdhIndicator) := by
  have hrpi : hasBits (if msg.rpi > 0 then esmClassSubmitRpi else 0)
      esmClassSubmitUdhIndicator = false := by
    split_ifs <;> rfl
  rw [submitEsmClass, hasBits_or, hasBits_or, hrpi, Bool.or_false, Bool.or_comm]
  congr 1
  cases hudh : msg.udhdata with
  | none => rfl
  | some udh =>
    obtain ⟨c, rest, rfl, -⟩ := hmsg.udhdata udh hudh
    rw [if_pos (by simp)]
    rfl

theorem prependUdh_eq_ok_iff (hmsg : Sendable msg) (text : Option Octstr) :
    prependUdh msg (sentText msg) = .ok text ↔
      match msg.udhdata with
      | none => text = sentText msg
      | some udh => ∃ sent, sentText msg = some sent ∧ text = some (udh ++ sent) := by
  unfold prependUdh
  cases hudh : msg.udhdata with
  | none => simp [eq_comm]
  | some udh =>
    obtain ⟨c, rest, rfl, -⟩ := hmsg.udhdata udh hudh
    cases hsent : sentText msg with
    | none => simp
    | some sent => simp [eq_comm]

theorem submitBody_fields (hlink : UsesDefaults smpp) (hmsg : Sendable msg) {body : SubmitBody}
    (h : submitBody env smpp msg = .ok (some body)) :
    ∃ text, prependUdh msg (sentText msg) = .ok text ∧
      body.esmClass = submitEsmClass smpp msg ∧ body.dataCoding = (submitDcs smpp msg).2 ∧
      submitLength 0x34 text = some (body.shortMessage, body.messagePayload, body.smLength) := by
  simp only [submitBody, submitDcs_msg hmsg,
    submitText_eq hlink hmsg (submitDcs_describes hlink hmsg), hlink.version] at h
  obtain ⟨text, htext, hbody⟩ := bind_eq_ok_iff.mp h
  simp only [pure, Except.pure, Except.ok.injEq, Option.map_eq_some_iff] at hbody
  obtain ⟨fields, hfields, rfl⟩ := hbody
  exact ⟨text, htext, rfl, rfl, hfields⟩

theorem msgToPdu_fields (hlink : UsesDefaults smpp) (hmsg : Sendable msg) {seqNo : Nat}
    {out : AnySmppPdu} (h : msgToPdu env smpp seqNo msg = .ok (some out)) :
    ∃ text, prependUdh msg (sentText msg) = .ok text ∧
      out.pdu.int .esmClass = submitEsmClass smpp msg ∧
      out.pdu.int .dataCoding = toUlong (submitDcs smpp msg).2.toInt ∧
      submitLength 0x34 text =
        some (out.pdu.str .shortMessage, out.pdu.tlvStr .messagePayload,
          out.pdu.int .smLength) := by
  obtain ⟨dest, body, hbody, hint, hstr, hpayload⟩ := msgToPdu_inversion h
  obtain ⟨text, htext, hesm, hdcs, hlength⟩ := submitBody_fields hlink hmsg hbody
  refine ⟨text, htext, ?_⟩
  rw [hint, hstr, hpayload]
  exact ⟨hesm, by rw [← hdcs]; rfl, hlength⟩

theorem messageText_of_submitLength {size : Nat} [NeZero size] {pdu : SmppPdu size}
    {text : Option Octstr}
    (h : submitLength 0x34 text =
      some (pdu.str .shortMessage, pdu.tlvStr .messagePayload, pdu.int .smLength)) :
    messageText 0x34 pdu = text := by
  unfold submitLength at h
  unfold messageText
  dsimp only at h
  split_ifs at h with hlen
  · simp only [Option.some.injEq, Prod.mk.injEq] at h
    obtain ⟨-, hpayload, hzero⟩ := h
    have htext : text.isSome := by
      cases text with
      | none => simp at hlen
      | some text => rfl
    rw [if_pos ⟨by decide, hzero.symm, hpayload ▸ htext⟩]
    exact hpayload.symm
  · simp only [Option.some.injEq, Prod.mk.injEq] at h
    obtain ⟨hshort, hpayload, -⟩ := h
    rw [if_neg (fun hp => by simp [← hpayload] at hp)]
    exact hshort.symm

theorem dataCodingOf_eq {size : Nat} [NeZero size] {pdu : SmppPdu size} {dcs : BitVec 32}
    (hsmall : dcs.toNat < 256) (h : pdu.int .dataCoding = toUlong dcs.toInt) :
    dataCodingOf pdu = dcs := by
  have hint : dcs.toInt = dcs.toNat := BitVec.toInt_eq_toNat_of_lt (by omega)
  unfold dataCodingOf
  rw [h, toUlong]
  refine BitVec.eq_of_toNat_eq ?_
  rw [BitVec.toNat_ofNat]
  omega

end

section
variable {size : Nat} [NeZero size] {pdu : SmppPdu size} {env : SmppEnv} {smpp : SmppLink}

def textOnly (text : Option Octstr) : Content :=
  ⟨text, none, smsParamUndefined, smsParamUndefined, smsParamUndefined⟩

theorem convertAddrs_content {convert : Option Octstr → Nat → Except Stop (Option Octstr)}
    (h : convertAddrs convert pdu msg = .ok msg') : msg'.content = msg.content := by
  obtain ⟨sender, -, h⟩ := bind_eq_ok_iff.mp h
  split at h
  · cases h
  · obtain ⟨receiver, -, h⟩ := bind_eq_ok_iff.mp h
    cases h
    rfl

theorem tlvToMetaData_content (h : tlvToMetaData pdu msg = .ok msg') :
    msg'.content = msg.content := by
  unfold tlvToMetaData at h
  split at h
  · cases h
  · cases h
    rfl

theorem content_of_pduToMsg {back : Sms} (h : pduToMsg env smpp pdu = .ok back) :
    AddrsAccepted (convertAddrFromPdu env · · smpp.altAddrCharset) pdu ∧
      ∃ base catenated cut : Sms, base.content = textOnly (messageText smpp.version pdu) ∧
        sarToUdh (smpp.version > 0x33 ∧ hasSar pdu) pdu base = .ok catenated ∧
        takeUdh (pdu.int .esmClass) catenated = .ok cut ∧
        back.content =
          (handleMoDcs env (dcsToFields cut (dataCodingOf pdu)).2 smpp.altCharset
            (dataCodingOf pdu) (pdu.int .esmClass)).content := by
  obtain ⟨-, -, h⟩ := bind_eq_ok_iff.mp h
  obtain ⟨msg, hmsg, h⟩ := bind_eq_ok_iff.mp h
  obtain ⟨catenated, hcatenated, h⟩ := bind_eq_ok_iff.mp h
  obtain ⟨cut, hcut, h⟩ := bind_eq_ok_iff.mp h
  refine ⟨convertAddrs_isOk_iff.mp ⟨msg, hmsg⟩, _, catenated, cut, ?_, hcatenated, hcut, ?_⟩
  · have hcontent := convertAddrs_content hmsg
    simp only [Sms.content, Content.mk.injEq] at hcontent
    simp only [Sms.content, textOnly, Content.mk.injEq, true_and]
    exact hcontent.2
  · exact (tlvToMetaData_content h).trans rfl

theorem pduToMsg_of_content {content : Content} (htype : pdu.type = .deliverSm)
    (htlv : pdu.tlv.isSome)
    (haddrs : AddrsAccepted (convertAddrFromPdu env · · smpp.altAddrCharset) pdu)
    (hparts : ∀ base : Sms, base.content = textOnly (messageText smpp.version pdu) →
      ∃ catenated cut : Sms,
        sarToUdh (smpp.version > 0x33 ∧ hasSar pdu) pdu base = .ok catenated ∧
        takeUdh (pdu.int .esmClass) catenated = .ok cut ∧
        (handleMoDcs env (dcsToFields cut (dataCodingOf pdu)).2 smpp.altCharset
          (dataCodingOf pdu) (pdu.int .esmClass)).content = content) :
    ∃ back, pduToMsg env smpp pdu = .ok back ∧ back.content = content := by
  obtain ⟨msg, hmsg⟩ : ∃ msg, convertAddrs (convertAddrFromPdu env · · smpp.altAddrCharset) pdu
    (smsCreate env.id) = .ok msg := convertAddrs_isOk_iff.mpr haddrs
  obtain ⟨dict, hdict⟩ := Option.isSome_iff_exists.mp htlv
  have hfresh : msg.content = textOnly none := convertAddrs_content hmsg
  simp only [Sms.content, textOnly, Content.mk.injEq] at hfresh
  obtain ⟨catenated, cut, hcatenated, hcut, hcontent⟩ := hparts
    { msg with
      binfo := pdu.str .serviceType
      foreignId := pdu.tlvStr .receiptedMessageId
      rpi := rpiOf pdu msg
      msgdata := messageText smpp.version pdu }
    (by simpa only [Sms.content, textOnly, Content.mk.injEq, true_and] using hfresh.2)
  have hassert : assertType pdu .deliverSm = .ok () := if_pos htype
  have hmetaData : ∀ msg, ∃ back, tlvToMetaData pdu msg = .ok back := by
    intro msg
    simp [tlvToMetaData, hdict]
  obtain ⟨back, hback⟩ := hmetaData
    { handleMoDcs env (dcsToFields cut (dataCodingOf pdu)).2 smpp.altCharset (dataCodingOf pdu)
        (pdu.int .esmClass) with
      pid := pdu.int .protocolId
      priority := pdu.int .priorityFlag }
  refine ⟨back, ?_, (tlvToMetaData_content hback).trans hcontent⟩
  refine bind_eq_ok_iff.mpr ⟨(), hassert, ?_⟩
  refine bind_eq_ok_iff.mpr ⟨msg, hmsg, ?_⟩
  refine bind_eq_ok_iff.mpr ⟨catenated, hcatenated, ?_⟩
  exact bind_eq_ok_iff.mpr ⟨cut, hcut, hback⟩

def Unread (msg : Sms) : Prop :=
  msg.coding = smsParamUndefined ∧ msg.mclass = smsParamUndefined ∧ msg.mwi = smsParamUndefined

theorem sarToUdh_unread {present : Bool} (h : sarToUdh present pdu msg = .ok msg')
    (hmsg : Unread msg) : Unread msg' := by
  unfold sarToUdh at h
  repeat' split at h
  all_goals cases h
  all_goals exact hmsg

theorem sarToUdh_udhdata (h : sarToUdh true pdu msg = .ok msg') : msg'.udhdata.isSome := by
  rw [sarToUdh, if_pos rfl] at h
  split at h
  · cases h
  · cases h
    rfl

variable {esmClass : Nat}

theorem takeUdh_unread (h : takeUdh esmClass msg = .ok msg') (hmsg : Unread msg) : Unread msg' := by
  unfold takeUdh at h
  repeat' split at h
  all_goals cases h
  all_goals exact hmsg

theorem takeUdh_udhdata (hbits : hasBits esmClass esmClassSubmitUdhIndicator)
    (h : takeUdh esmClass msg = .ok msg') : msg'.udhdata.isSome := by
  rw [takeUdh] at h
  repeat' split at h
  all_goals cases h
  all_goals rfl

theorem takeUdh_append {udh text : Octstr} (hbits : hasBits esmClass esmClassSubmitUdhIndicator)
    (hudh : WellFormedUdh udh) (htext : msg.msgdata = some (udh ++ text)) :
    takeUdh esmClass msg = .ok { msg with udhdata := some udh, msgdata := some text } := by
  obtain ⟨c, rest, rfl, hc⟩ := hudh
  have hlength : udhl (c :: rest ++ text) = (c :: rest).length := by
    simp [udhl, octstrGetChar, hc]
  rw [takeUdh, if_pos hbits, htext]
  simp only [hlength, List.take_left, List.drop_left]
  rw [if_neg (by simp)]

theorem content_eq_of_describes {coding mclass mwi : Int} {base catenated cut : Sms}
    {text : Option Octstr} {present : Bool} (halt : smpp.altCharset = none)
    (hdcs : Describes (dataCodingOf pdu) coding mclass mwi) (hbounds : 0 ≤ coding ∧ coding ≤ 2)
    (hbase : base.content = textOnly text) (hcatenated : sarToUdh present pdu base = .ok catenated)
    (hcut : takeUdh (pdu.int .esmClass) catenated = .ok cut) :
    (handleMoDcs env (dcsToFields cut (dataCodingOf pdu)).2 smpp.altCharset (dataCodingOf pdu)
        (pdu.int .esmClass)).content =
      ⟨receivedText coding cut.msgdata, cut.udhdata, coding, mclass, mwi⟩ := by
  have hunread : Unread base := by
    simp only [Sms.content, textOnly, Content.mk.injEq] at hbase
    exact hbase.2.2
  obtain ⟨hc, hm, hw⟩ := takeUdh_unread hcut (sarToUdh_unread hcatenated hunread)
  rw [halt]
  exact handleMoDcs_eq (pdu.int .esmClass) hdcs hbounds hc hm hw

end

theorem receivedText_sentText (hmsg : Sendable msg) :
    receivedText msg.coding (sentText msg) = msg.msgdata := by
  unfold receivedText sentText
  by_cases hcoding : msg.coding = dc7bit
  · rw [if_pos hcoding, if_pos hcoding]
    have htext : ∀ text, msg.msgdata = some text → GsmText text := by
      rcases hmsg.coding with ⟨-, htext⟩ | ⟨h8, -⟩ | hucs2
      · exact htext
      · rw [hcoding] at h8
        cases h8
      · rw [hcoding] at hucs2
        cases hucs2
    cases hdata : msg.msgdata with
    | none => rfl
    | some text =>
      obtain ⟨chars, hchars, rfl⟩ := htext text hdata
      exact congrArg some (charsetGsmToUtf8_charsetUtf8ToGsm chars hchars)
  · rw [if_neg hcoding, if_neg hcoding]

theorem returnedCoding_bounds (hmsg : Sendable msg) :
    0 ≤ returnedCoding msg ∧ returnedCoding msg ≤ 2 := by
  unfold returnedCoding
  split_ifs
  · decide
  · exact hmsg.coding_bounds

section
variable {size : Nat} [NeZero size] {env env' : SmppEnv} {smpp : SmppLink} {seqNo : Nat}
  {out : AnySmppPdu} {deliver : SmppPdu size}

structure Arrives (smpp : SmppLink) (msg : Sms) (deliver : SmppPdu size) : Prop where
  text : prependUdh msg (sentText msg) = .ok (messageText 0x34 deliver)
  udhi : hasBits (deliver.int .esmClass) esmClassSubmitUdhIndicator =
    (msg.udhdata.isSome || hasBits (toUlong smpp.esmClass) esmClassSubmitUdhIndicator)
  dcs : Describes (dataCodingOf deliver) (returnedCoding msg) (returnedMclass msg) msg.mwi

section
variable (hlink : UsesDefaults smpp) (hmsg : Sendable msg)
include hlink hmsg

theorem arrives_of_delivers (hout : msgToPdu env smpp seqNo msg = .ok (some out))
    (hback : Delivers out.pdu deliver) :
    Arrives smpp msg deliver := by
  obtain ⟨text, htext, hesm, hcoding, hlength⟩ := msgToPdu_fields hlink hmsg hout
  rw [← hback.shortMessage, ← hback.messagePayload, ← hback.smLength] at hlength
  rw [← hback.dataCoding] at hcoding
  have hdcs := submitDcs_describes hlink hmsg
  refine ⟨?_, ?_, ?_⟩
  · rw [messageText_of_submitLength hlength]
    exact htext
  · rw [hback.esmClass, hesm, submitEsmClass_udhi hmsg]
  · rw [dataCodingOf_eq hdcs.1 hcoding]
    exact hdcs

theorem conditions_of_same (h : Arrives smpp msg deliver) {back : Sms}
    (hpdu : pduToMsg env smpp deliver = .ok back) (hsame : back.content = msg.content) :
    AddrsAccepted (convertAddrFromPdu env · · smpp.altAddrCharset) deliver ∧ ¬ hasSar deliver ∧
      (msg.udhdata = none → ¬ hasBits (toUlong smpp.esmClass) esmClassSubmitUdhIndicator) ∧
      DcsSuffices msg := by
  obtain ⟨haddrs, base, catenated, cut, hbase, hcatenated, hcut, hcontent⟩ :=
    content_of_pduToMsg hpdu
  rw [hsame, content_eq_of_describes hlink.altCharset h.dcs (returnedCoding_bounds hmsg) hbase
    hcatenated hcut] at hcontent
  simp only [Sms.content, Content.mk.injEq] at hcontent
  obtain ⟨-, hudh, hcoding, hmclass, -⟩ := hcontent
  refine ⟨haddrs, ?_, ?_, ?_⟩
  · -- the parameters of a segment exclude a header of the text, and add one
    intro hsar
    have hpresent : decide (smpp.version > 0x33 ∧ hasSar deliver) = true := by
      simp [hlink.version, hsar]
    rw [hpresent] at hcatenated
    have hno : ¬ hasBits (deliver.int .esmClass) esmClassSubmitUdhIndicator :=
      fun hbits => (sarToUdh_ok_iff true).mp ⟨_, hcatenated⟩ ⟨rfl, hbits⟩
    have hadded := sarToUdh_udhdata hcatenated
    rw [takeUdh, if_neg hno] at hcut
    cases hcut
    rw [h.udhi, hudh, hadded] at hno
    exact hno rfl
  · intro hnone hlinkBits
    have hbits : hasBits (deliver.int .esmClass) esmClassSubmitUdhIndicator := by
      rw [h.udhi, hlinkBits, Bool.or_true]
    have hcutUdh := takeUdh_udhdata hbits hcut
    rw [← hudh, hnone] at hcutUdh
    cases hcutUdh
  · exact (dcsSuffices_iff hmsg).mpr ⟨hcoding.symm, hmclass.symm⟩

theorem same_of_conditions (htype : deliver.type = .deliverSm) (htlv : deliver.tlv.isSome)
    (h : Arrives smpp msg deliver)
    (haddrs : AddrsAccepted (convertAddrFromPdu env · · smpp.altAddrCharset) deliver)
    (hsar : ¬ hasSar deliver)
    (hudhi : msg.udhdata = none → ¬ hasBits (toUlong smpp.esmClass) esmClassSubmitUdhIndicator)
    (hdcs : DcsSuffices msg) :
    ∃ back, pduToMsg env smpp deliver = .ok back ∧ back.content = msg.content := by
  obtain ⟨hcoding, hmclass⟩ := (dcsSuffices_iff hmsg).mp hdcs
  refine pduToMsg_of_content htype htlv haddrs fun base hbase => ?_
  have habsent : sarToUdh (smpp.version > 0x33 ∧ hasSar deliver) deliver base = .ok base := by
    simp [sarToUdh, hsar]
  have hdata : base.msgdata = messageText 0x34 deliver := by
    simp only [Sms.content, textOnly, Content.mk.injEq, hlink.version] at hbase
    exact hbase.1
  have htext := (prependUdh_eq_ok_iff hmsg _).mp h.text
  have hcontent : ∀ cut, takeUdh (deliver.int .esmClass) base = .ok cut →
      cut.msgdata = sentText msg → cut.udhdata = msg.udhdata →
      (handleMoDcs env (dcsToFields cut (dataCodingOf deliver)).2 smpp.altCharset
        (dataCodingOf deliver) (deliver.int .esmClass)).content = msg.content := by
    intro cut hcut hsent hheader
    rw [content_eq_of_describes hlink.altCharset h.dcs (returnedCoding_bounds hmsg) hbase habsent
      hcut, hcoding, hmclass, hsent, hheader, receivedText_sentText hmsg]
    rfl
  cases hudh : msg.udhdata with
  | none =>
    rw [hudh] at htext
    have hbits : ¬ hasBits (deliver.int .esmClass) esmClassSubmitUdhIndicator := by
      rw [h.udhi, hudh]
      simpa using hudhi hudh
    have hcut : takeUdh (deliver.int .esmClass) base = .ok base := if_neg hbits
    refine ⟨base, base, habsent, hcut, hcontent base hcut (hdata.trans htext) ?_⟩
    simp only [Sms.content, textOnly, Content.mk.injEq] at hbase
    rw [hbase.2.1, hudh]
  | some udh =>
    rw [hudh] at htext
    obtain ⟨sent, hsent, htext⟩ := htext
    have hbits : hasBits (deliver.int .esmClass) esmClassSubmitUdhIndicator := by
      rw [h.udhi, hudh]
      rfl
    have hcut := takeUdh_append hbits (hmsg.udhdata udh hudh) (hdata.trans htext)
    exact ⟨base, _, habsent, hcut, hcontent _ hcut hsent.symm hudh.symm⟩

end

/-- **Round trip.**  The message is the same if and only if the `deliver_sm` has acceptable
addresses and no parameters of a segment, the link announces no header that is not there, and
the data coding octet has room for all. -/
theorem submit_comes_back_iff (hlink : UsesDefaults smpp) (hmsg : Sendable msg)
    (hout : msgToPdu env smpp seqNo msg = .ok (some out)) (hback : Delivers out.pdu deliver) :
    (∃ back, pduToMsg env' smpp deliver = .ok back ∧ back.content = msg.content) ↔
      AddrsAccepted (convertAddrFromPdu env' · · smpp.altAddrCharset) deliver ∧
        ¬ hasSar deliver ∧
        (msg.udhdata = none → ¬ hasBits (toUlong smpp.esmClass) esmClassSubmitUdhIndicator) ∧
        DcsSuffices msg := by
  have harrives := arrives_of_delivers hlink hmsg hout hback
  constructor
  · rintro ⟨back, hpdu, hsame⟩
    exact conditions_of_same hlink hmsg harrives hpdu hsame
  · rintro ⟨haddrs, hsar, hudhi, hdcs⟩
    exact same_of_conditions hlink hmsg hback.type hback.tlv harrives haddrs hsar hudhi hdcs

end

def deliverSmOf (out : AnySmppPdu) : SmppPdu 2048 :=
  { smppPduCreate .deliverSm 0 with
    int := out.pdu.int, str := out.pdu.str, tlvStr := out.pdu.tlvStr }

theorem delivers_deliverSmOf (out : AnySmppPdu) : Delivers out.pdu (deliverSmOf out) :=
  ⟨rfl, rfl, rfl, rfl, rfl, rfl, rfl⟩

theorem plainLink_usesDefaults : UsesDefaults plainLink := ⟨rfl, rfl, rfl⟩

def greeting : Sms :=
  { smsCreate uuidClear with
    receiver := some (ascii "1"), udhdata := some [2, 9, 0], msgdata := some (ascii "Hi")
    coding := dc7bit }

theorem greeting_sendable : Sendable greeting where
  metaData := rfl
  coding := .inl ⟨rfl, fun text h => ⟨[72, 105], by decide +kernel, (Option.some.inj h).symm⟩⟩
  udhdata udh h := ⟨2, [9, 0], (Option.some.inj h).symm, rfl⟩
  mclass := .inl rfl
  mwi := .inl rfl

theorem submit_comes_back_greeting :
    ∃ out, msgToPdu idleEnv plainLink 1 greeting = .ok (some out) ∧
      Delivers out.pdu (deliverSmOf out) ∧
      ∃ back, pduToMsg idleEnv plainLink (deliverSmOf out) = .ok back ∧
        back.content = greeting.content := by
  obtain ⟨out, hout, hdest, hsource, hton⟩ :
      ∃ out, msgToPdu idleEnv plainLink 1 greeting = .ok (some out) ∧
        (deliverSmOf out).str .destinationAddr = some (ascii "1") ∧
        (deliverSmOf out).str .sourceAddr = none ∧ (deliverSmOf out).int .destAddrTon = 2 := by
    decide +kernel
  refine ⟨out, hout, delivers_deliverSmOf out, ?_⟩
  refine (submit_comes_back_iff plainLink_usesDefaults greeting_sendable hout
    (delivers_deliverSmOf out)).mpr ⟨⟨?_, ?_, ?_⟩, ?_, ?_, ?_⟩
  · rw [hsource]
    rfl
  · rw [hdest]
    exact Option.some_ne_none _
  · rw [hdest, hton]
    rfl
  · exact Bool.false_ne_true
  · intro _
    decide
  · exact ⟨fun h => absurd rfl h, fun _ _ _ _ => .inl rfl⟩

def waitingUcs2 : Sms :=
  { smsCreate uuidClear with
    receiver := some (ascii "1"), msgdata := some [0, 72], coding := dcUcs2, mwi := 0 }

/-- The indicator takes the place of the coding: the text comes back as GSM text. -/
theorem waitingUcs2_comes_back_as_7bit :
    UsesDefaults plainLink ∧ Sendable waitingUcs2 ∧
      ∃ out, msgToPdu idleEnv plainLink 1 waitingUcs2 = .ok (some out) ∧
        Delivers out.pdu (deliverSmOf out) ∧
        ∃ back, pduToMsg idleEnv plainLink (deliverSmOf out) = .ok back ∧
          back.coding = dc7bit ∧ waitingUcs2.coding = dcUcs2 := by
  have hsendable : Sendable waitingUcs2 :=
    ⟨rfl, .inr (.inr rfl), fun udh h => (by cases h), .inl rfl, .inr (by decide)⟩
  obtain ⟨out, hout, hback⟩ : ∃ out, msgToPdu idleEnv plainLink 1 waitingUcs2 = .ok (some out) ∧
      ∃ back, pduToMsg idleEnv plainLink (deliverSmOf out) = .ok back ∧
        back.coding = dc7bit ∧ waitingUcs2.coding = dcUcs2 := by
    decide +kernel
  exact ⟨plainLink_usesDefaults, hsendable, out, hout, delivers_deliverSmOf out, hback⟩

end Kannel
