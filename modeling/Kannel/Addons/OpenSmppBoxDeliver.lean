import Kannel.Addons.OpenSmppBox
import Kannel.Gw.SmsSplitText

/-!
# Outgoing messages of opensmppbox

`msg_to_pdu` converts the text in the one PDU it begins with. A longer message is split, and
each part gets its text as it is in the message.
-/

namespace Kannel
open List

structure DeliverBox where
  version : Nat
  serviceType : Option Octstr
  sourceAddrTon : Int
  sourceAddrNpi : Int
  destAddrTon : Int
  destAddrNpi : Int
  autodetectAddr : Bool
  altCharset : Option Octstr
  altDcs : Int
  priority : Int

def presetAddr (addr : Option Octstr) (ton npi : Int) : SmppAddr :=
  if ton > -1 ∧ npi > -1 then ⟨addr, toUlong ton, toUlong npi⟩
  else ⟨addr, gsmAddrTonNational, gsmAddrNpiE164⟩

def deliverSource (box : DeliverBox) (msg : Sms) : Except Failure SmppAddr :=
  let source := presetAddr msg.sender box.sourceAddrTon box.sourceAddrNpi
  if box.autodetectAddr then
    match source.addr with
    | none => .error .assertion
    | some addr =>
      let alphanumeric :=
        { source with ton := gsmAddrTonAlphanumeric, npi := gsmAddrNpiUnknown }
      if octstrGetChar addr 0 = some 43 then
        if ¬ allDigits addr 1 then .ok alphanumeric
        else .ok { source with addr := some (addr.drop 1), ton := gsmAddrTonInternational }
      else if ¬ allDigits addr 0 then .ok alphanumeric
      else .ok source
  else .ok source

def deliverDest (box : DeliverBox) (msg : Sms) : Except Failure SmppAddr :=
  let dest := presetAddr msg.receiver box.destAddrTon box.destAddrNpi
  match dest.addr with
  | none => .error .assertion
  | some addr =>
    if octstrGetChar addr 0 = some 43 then
      .ok { dest with addr := some (addr.drop 1), ton := gsmAddrTonInternational }
    else .ok dest

def deliverDcs (box : DeliverBox) (msg : Sms) : Sms × BitVec 32 :=
  if msg.mwi = smsParamUndefined ∧ msg.mclass ≠ smsParamUndefined then fieldsToDcs msg 1
  else fieldsToDcs msg (if msg.altDcs ≠ smsParamUndefined then msg.altDcs else box.altDcs)

def deliverText (env : SmppEnv) (box : DeliverBox) (msg : Sms) (dcs : BitVec 32) : Option Octstr :=
  if msg.coding = dc7bit ∨ (msg.coding = smsParamUndefined ∧ (msg.udhdata.getD []).length ≠ 0) then
    if dcs &&& 0xF0 ≠ 0 ∨ (box.altCharset = none ∧ dcs = 0) then msg.msgdata.map charsetUtf8ToGsm
    else
      match box.altCharset with
      | some charset =>
        if dcs = 0 then converted env msg.msgdata (ascii "UTF-8") charset else msg.msgdata
      | none => msg.msgdata
  else msg.msgdata

def withUdh (msg : Sms) (text : Option Octstr) : Except Failure (Option Octstr) :=
  if (msg.udhdata.getD []).length ≠ 0 then
    match text with
    | none => .error .assertion
    | some text => .ok (some (msg.udhdata.getD [] ++ text))
  else .ok text

def deliverEsmClass (msg : Sms) : Nat :=
  (if (msg.udhdata.getD []).length ≠ 0 then esmClassSubmitUdhIndicator else 0) |||
    (if msg.rpi > 0 then esmClassSubmitRpi else 0)

def baseOf : Octstr → Nat
  | 48 :: x :: c :: _ => if (x = 120 ∨ x = 88) ∧ isDigitOf 16 c then 16 else 8
  | 48 :: _ => 8
  | _ => 10

def strtolAnyBase (text : Octstr) : Int :=
  let signed := splitSign (text.dropWhile isspace)
  let base := baseOf signed.2
  let digits := (stripHexMark base signed.2).takeWhile (isDigitOf base)
  max (-2 ^ 63) (min (signed.1 * digitsValue base digits) (2 ^ 63 - 1))

def usesMessagePayload (box : DeliverBox) (msg : Sms) : Bool :=
  box.version > 0x33 ∧ strtolAnyBase (octstrGetCstr (smppValue msg "use_message_payload")) ≠ 0

def maxSmsOctets : Int := 140

def deliverSplitArgs (msgSequence : Nat) : SplitArgs where
  header := none
  footer := none
  nonlastSuffix := none
  splitChars := none
  catenate := true
  msgSequence := msgSequence
  maxMessages := 255
  maxOctets := maxSmsOctets

def deliverHead (box : DeliverBox) (msg : Sms) (dcs : BitVec 32) (source dest : SmppAddr)
    (seqNo : Nat) : SmppPdu 2048 :=
  (((((((((smppPduCreate .deliverSm seqNo).setInt .sourceAddrTon source.ton).setInt
    .sourceAddrNpi source.npi).setInt
    .destAddrTon dest.ton).setInt
    .destAddrNpi dest.npi).setInt
    .dataCoding (toUlong dcs.toInt)).setInt
    .protocolId (if msg.pid ≠ smsParamUndefined then toUlong msg.pid else 0)).setStr
    .sourceAddr source.addr).setStr
    .destinationAddr dest.addr).setStr
    .serviceType (if (msg.binfo.getD []).length ≠ 0 then msg.binfo else box.serviceType)

def deliverRegistered (mask : Int) : Nat :=
  if dlrIsSuccessOrFail mask then 1
  else if dlrIsFail mask ∧ ¬ dlrIsSuccess mask then 2
  else 0

def deliverWhole (box : DeliverBox) (msg : Sms) (text : Option Octstr) (payload : Bool)
    (head : SmppPdu 2048) : SmppPdu 2048 :=
  (((((head.setInt .esmClass (deliverEsmClass msg)).setInt
    .registeredDelivery (deliverRegistered msg.dlrMask)).setInt
    .priorityFlag (if msg.priority ≥ 0 ∧ msg.priority ≤ 3 then toUlong msg.priority
      else toUlong box.priority)).setInt
    .smLength (if payload then 0 else (text.getD []).length)).setStr
    .shortMessage (if payload then none else text)).setTlvStr
    .messagePayload (if payload then text else none)

def deliverPart (msg part : Sms) (head : SmppPdu 2048) : SmppPdu 2048 :=
  (head.setInt .esmClass (deliverEsmClass msg ||| esmClassSubmitUdhIndicator)).setStr
    .shortMessage (some (part.udhdata.getD [] ++ part.msgdata.getD []))

def deliverTlv (box : DeliverBox) (msg : Sms) (pdu : SmppPdu 2048) : AnySmppPdu :=
  if box.version > 0x33 then
    pdu.withTlv (msg.metaData.bind fun data => metaDataGetValues data metadataSmppGroup)
  else ⟨2048, inferInstance, pdu⟩

def boxMsgToPdu (env : SmppEnv) (box : DeliverBox) (draw : Nat → Nat) (msgSequence : Nat)
    (entropy : Nat → Entropy) (msg : Sms) : Except Failure (Option (List AnySmppPdu)) := do
  let source ← deliverSource box msg
  let dest ← deliverDest box msg
  if (dest.addr.getD []).length > 20 ∨ (source.addr.getD []).length > 20 then return none
  let (msg, dcs) := deliverDcs box msg
  let text ← withUdh msg (deliverText env box msg dcs)
  -- the loop of `sms_split` is through after `max_msgs` rounds
  let parts ← (smsSplit 255 (deliverSplitArgs msgSequence) msg entropy).getD (.error .invalid)
  let head := deliverHead box msg dcs source dest
  let payload : Bool := parts.length > 1 ∧ usesMessagePayload box msg
  if parts.length > 1 ∧ ¬ payload then
    return some (parts.mapIdx fun i part =>
      deliverTlv box msg (deliverPart msg part (head (draw (i + 1)))))
  else return some [deliverTlv box msg (deliverWhole box msg text payload (head (draw 0)))]

def payloadOf (pdu : AnySmppPdu) : Octstr :=
  let text := ((pdu.pdu.str .shortMessage).or (pdu.pdu.tlvStr .messagePayload)).getD []
  if hasBits (pdu.pdu.int .esmClass) esmClassSubmitUdhIndicator then
    text.drop (1 + (text.headD 0).toNat)
  else text

theorem high_bits_or {x y : BitVec 32} (h : x &&& 0xF0 ≠ 0 ∨ y &&& 0xF0 ≠ 0) :
    (x ||| y) &&& 0xF0 ≠ 0 := by
  intro hzero
  rw [BitVec.and_or_distrib_right] at hzero
  obtain ⟨hx, hy⟩ := BitVec.or_eq_zero_iff.mp hzero
  rcases h with h | h
  · exact h hx
  · exact h hy

theorem fieldsToDcs_sevenBit {msg : Sms} (h : msg.coding = dc7bit) (mode : Int) :
    (fieldsToDcs msg mode).2 &&& 0xF0 ≠ 0 ∨ (fieldsToDcs msg mode).2 = 0 := by
  have hcoding : defaultCoding msg = dc7bit := by
    rw [defaultCoding, h, if_neg (by decide)]
  unfold fieldsToDcs
  simp only [hcoding]
  split_ifs
  · refine .inl ?_
    unfold mwiDcs
    dsimp only
    split_ifs <;> exact high_bits_or (.inr (by decide))
  · unfold generalDcs
    by_cases hcompress : msg.compress = compressOn
    · refine .inl (high_bits_or (.inl (high_bits_or (.inl ?_))))
      rw [if_pos hcompress]
      decide
    · by_cases hmclass : msg.mclass = smsParamUndefined
      · refine .inr ?_
        simp only [hcompress, hmclass]
        decide
      · refine .inl (high_bits_or (.inl (high_bits_or (.inr ?_))))
        rw [if_pos hmclass]
        exact high_bits_or (.inl (by decide))
  · exact .inl (high_bits_or (.inl (high_bits_or (.inl (by decide)))))

theorem deliverDcs_sevenBit (box : DeliverBox) {msg : Sms} (h : msg.coding = dc7bit) :
    ∃ dcs, deliverDcs box msg = (msg, dcs) ∧ (dcs &&& 0xF0 ≠ 0 ∨ dcs = 0) := by
  have hset : msg.coding ≠ smsParamUndefined := by
    rw [h]
    decide
  unfold deliverDcs
  split <;> exact ⟨_, Prod.ext (fieldsToDcs_msg hset _) rfl, fieldsToDcs_sevenBit h _⟩

theorem deliverText_sevenBit {env : SmppEnv} {box : DeliverBox} {msg : Sms} {dcs : BitVec 32}
    (h : msg.coding = dc7bit) (hcharset : box.altCharset = none)
    (hdcs : dcs &&& 0xF0 ≠ 0 ∨ dcs = 0) :
    deliverText env box msg dcs = msg.msgdata.map charsetUtf8ToGsm := by
  unfold deliverText
  rw [if_pos (.inl h), if_pos]
  rcases hdcs with hdcs | hdcs
  · exact .inl hdcs
  · exact .inr ⟨hcharset, hdcs⟩

section Parts
variable {msgSequence : Nat} {entropy : Nat → Entropy} {msg : Sms}

theorem deliverSplitArgs_plain : (deliverSplitArgs msgSequence).Plain := ⟨rfl, rfl, rfl, rfl⟩

theorem maxPartLen_deliver (hcoding : msg.coding = dc7bit)
    (hudh : (msg.udhdata.getD []).length = 0) :
    maxPartLen (deliverSplitArgs msgSequence) msg =
      ((if smsMsgdataLen msg > 160 then 153 else 160 : Nat) : Int) := by
  have hcut : cutByOctets msg = false := by
    rw [cutByOctets, hcoding]
    rfl
  unfold maxPartLen roomForText
  simp only [hudh, hcut, deliverSplitArgs, maxSmsOctets, catenateUdhLen]
  by_cases hlong : smsMsgdataLen msg > 160
  · simp [hlong]
  · simp [hlong]

theorem splitLoop_many_iff {chars : List Nat} {raw : List Sms} (h : InAlphabet chars)
    (hdata : msg.msgdata = some (utf8Text chars)) (hcoding : msg.coding = dc7bit)
    (hudh : (msg.udhdata.getD []).length = 0)
    (hrun : splitLoop (deliverSplitArgs msgSequence) msg entropy 255 0 msg = some (.ok raw)) :
    raw.length > 1 ↔ smsMsgdataLen msg > 160 := by
  have hcut : cutByOctets msg = false := by
    rw [cutByOctets, hcoding]
    rfl
  have hmax : toUlong (deliverSplitArgs msgSequence).maxMessages = 255 := rfl
  have hroom : maxPartLen (deliverSplitArgs msgSequence) msg =
      ((if smsMsgdataLen msg > 160 then 153 else 160 : Nat) : Int) :=
    maxPartLen_deliver hcoding hudh
  obtain ⟨part, front, back, -, -, ⟨rfl, hlast⟩ | ⟨rest, rfl, hgoes, hrest⟩⟩ :=
    splitLoop_text deliverSplitArgs_plain hroom (by split_ifs <;> omega) h hdata hcut hrun
  · have hshort : ¬ smsMsgdataLen msg > 160 := by
      intro hlong
      rw [if_pos hlong] at hlast
      omega
    simp [hshort]
  · have hrest := length_pos_iff.mpr (splitLoop_ne_nil hrest)
    have hlong : smsMsgdataLen msg > 160 := by
      by_contra hshort
      rw [if_neg hshort] at hgoes
      exact hgoes (.inl (by omega))
    rw [length_cons]
    exact ⟨fun _ => hlong, fun _ => by omega⟩

theorem smsSplit_deliver {parts : List Sms}
    (h : (smsSplit 255 (deliverSplitArgs msgSequence) msg entropy).getD (.error .invalid) =
      .ok parts) :
    ∃ raw, splitLoop (deliverSplitArgs msgSequence) msg entropy 255 0 msg = some (.ok raw) ∧
      parts = catenateParts (deliverSplitArgs msgSequence) raw := by
  cases hrun : smsSplit 255 (deliverSplitArgs msgSequence) msg entropy with
  | none =>
    rw [hrun] at h
    cases h
  | some r =>
    rw [hrun] at h
    cases h
    exact smsSplit_eq_some hrun

end Parts

private theorem code_pos : ∀ c ∈ gsmAlphabet, unicodeToGsm c ≠ [] := by
  decide +kernel

private theorem code_differs : ∀ c ∈ gsmAlphabet,
    unicodeToUtf8 c = unicodeToGsm c ∨ (unicodeToUtf8 c).head? ≠ (unicodeToGsm c).head? := by
  decide +kernel

private theorem code_own : ∀ c ∈ gsmAlphabet,
    unicodeToUtf8 c = unicodeToGsm c → (unicodeToGsm c).length = 1 := by
  decide +kernel

theorem utf8Text_eq_gsmText_iff {front back : List Nat} (h : InAlphabet (front ++ back)) :
    utf8Text front = gsmText (front ++ back) ↔
      back = [] ∧ ∀ c ∈ front, unicodeToUtf8 c = unicodeToGsm c := by
  induction front with
  | nil =>
    cases back with
    | nil => simp [utf8Text, gsmText]
    | cons c back =>
      have hc := code_pos c (h c (by simp))
      simp [utf8Text, gsmText, hc]
  | cons c front ih =>
    have hc : c ∈ gsmAlphabet := h c (by simp)
    have hutf8 : utf8Text (c :: front) = unicodeToUtf8 c ++ utf8Text front := rfl
    have hgsm : gsmText (c :: front ++ back) = unicodeToGsm c ++ gsmText (front ++ back) := rfl
    rw [hutf8, hgsm]
    rcases code_differs c hc with hown | hother
    · rw [hown, append_cancel_left_eq, ih h.tail]
      simp [hown]
    · constructor
      · intro heq
        refine absurd ?_ hother
        obtain ⟨a, code, hcode⟩ := exists_cons_of_ne_nil (code_pos c hc)
        have hne : unicodeToUtf8 c ≠ [] := by
          unfold unicodeToUtf8
          split_ifs <;> simp
        obtain ⟨b, text, htext⟩ := exists_cons_of_ne_nil hne
        rw [hcode, htext] at heq
        rw [hcode, htext, (List.cons.inj heq).1]
        rfl
      · rintro ⟨-, hown⟩
        rw [hown c (by simp)] at hother
        exact absurd rfl hother

section Payload
variable {env : SmppEnv} {box : DeliverBox} {msg : Sms} {head : SmppPdu 2048}

theorem payloadOf_deliverTlv (pdu : SmppPdu 2048) :
    payloadOf (deliverTlv box msg pdu) = payloadOf ⟨2048, inferInstance, pdu⟩ := by
  unfold deliverTlv
  split
  · obtain ⟨hint, hstr, htlv⟩ := withTlv_fields pdu
      (msg.metaData.bind fun data => metaDataGetValues data metadataSmppGroup)
    simp only [payloadOf, hint, hstr, htlv]
  · rfl

theorem payloadOf_deliverWhole (hudh : (msg.udhdata.getD []).length = 0) (text : Octstr)
    (payload : Bool) :
    payloadOf ⟨2048, inferInstance, deliverWhole box msg (some text) payload head⟩ = text := by
  have hesm : hasBits (deliverEsmClass msg) esmClassSubmitUdhIndicator = false := by
    unfold deliverEsmClass
    rw [if_neg (by omega)]
    split_ifs <;> decide
  cases payload <;>
    simp [payloadOf, deliverWhole, SmppPdu.setInt, SmppPdu.setStr, SmppPdu.setTlvStr,
      Function.update, hesm]

theorem catenatedUdh_empty {udhdata : Option Octstr} (h : (udhdata.getD []).length = 0)
    (partNo numMessages msgSequence : Nat) :
    catenatedUdh udhdata partNo numMessages msgSequence =
      5 :: catenationElement partNo numMessages msgSequence := by
  unfold catenatedUdh
  dsimp only
  rw [if_pos h]
  rfl

theorem payloadOf_deliverPart {part : Sms} (hudh : (part.udhdata.getD []).length = 0)
    (partNo numMessages msgSequence : Nat) :
    payloadOf ⟨2048, inferInstance,
      deliverPart msg (prependCatenationUdh part partNo numMessages msgSequence) head⟩ =
      part.msgdata.getD [] := by
  have hesm : hasBits (deliverEsmClass msg ||| esmClassSubmitUdhIndicator)
      esmClassSubmitUdhIndicator = true := by
    unfold deliverEsmClass
    split_ifs <;> decide
  simp [payloadOf, deliverPart, SmppPdu.setInt, SmppPdu.setStr, Function.update, hesm,
    prependCatenationUdh, catenatedUdh_empty hudh, catenationElement]

theorem flatMap_mapIdx {α β γ : Type} (items : List α) (f : Nat → α → β) (g : β → List γ)
    (k : α → List γ) (h : ∀ i, ∀ a ∈ items, g (f i a) = k a) :
    (items.mapIdx f).flatMap g = items.flatMap k := by
  induction items generalizing f with
  | nil => rfl
  | cons a items ih =>
    rw [mapIdx_cons, flatMap_cons, flatMap_cons, h 0 a (by simp),
      ih (fun i => f (i + 1)) fun i b hb => h (i + 1) b (mem_cons_of_mem a hb)]

variable {draw : Nat → Nat} {msgSequence : Nat} {entropy : Nat → Entropy} {text : Octstr}
variable {pdus : List AnySmppPdu}

theorem boxMsgToPdu_payloads (hcoding : msg.coding = dc7bit) (hdata : msg.msgdata = some text)
    (hudh : (msg.udhdata.getD []).length = 0) (hcharset : box.altCharset = none)
    (hpdus : boxMsgToPdu env box draw msgSequence entropy msg = .ok (some pdus)) :
    ∃ raw, splitLoop (deliverSplitArgs msgSequence) msg entropy 255 0 msg = some (.ok raw) ∧
      pdus.flatMap payloadOf =
        if raw.length > 1 ∧ usesMessagePayload box msg = false then textsOf raw
        else charsetUtf8ToGsm text := by
  obtain ⟨dcs, hset, hdcs⟩ := deliverDcs_sevenBit box hcoding
  obtain ⟨source, -, hpdus⟩ := bind_eq_ok_iff.mp hpdus
  obtain ⟨dest, -, hpdus⟩ := bind_eq_ok_iff.mp hpdus
  by_cases hlong : (dest.addr.getD []).length > 20 ∨ (source.addr.getD []).length > 20
  · rw [if_pos hlong] at hpdus
    cases hpdus
  rw [if_neg hlong, hset] at hpdus
  dsimp only at hpdus
  have htext : withUdh msg (deliverText env box msg dcs) = .ok (some (charsetUtf8ToGsm text)) := by
    unfold withUdh
    rw [if_neg (by omega), deliverText_sevenBit hcoding hcharset hdcs, hdata]
    rfl
  rw [htext, ok_bind] at hpdus
  obtain ⟨parts, hparts, hpdus⟩ := bind_eq_ok_iff.mp hpdus
  obtain ⟨raw, hraw, rfl⟩ := smsSplit_deliver hparts
  refine ⟨raw, hraw, ?_⟩
  rw [length_catenateParts] at hpdus
  by_cases hmany : raw.length > 1 ∧ usesMessagePayload box msg = false
  · rw [if_pos (by simp [hmany]), catenateParts, if_pos ⟨rfl, hmany.1⟩] at hpdus
    cases hpdus
    rw [if_pos hmany, mapIdx_mapIdx]
    refine flatMap_mapIdx raw _ _ _ fun i part hpart => ?_
    have hpartUdh : (part.udhdata.getD []).length = 0 := by
      rw [(partOf_splitLoop hraw part hpart).udhdata, hudh]
    exact (payloadOf_deliverTlv _).trans (payloadOf_deliverPart hpartUdh _ _ _)
  · have hwhole : ¬ (raw.length > 1 ∧
        ¬ decide (raw.length > 1 ∧ usesMessagePayload box msg = true) = true) := by
      intro h
      refine hmany ⟨h.1, ?_⟩
      by_contra huses
      exact h.2 (decide_eq_true ⟨h.1, by simpa using huses⟩)
    rw [if_neg hwhole] at hpdus
    cases hpdus
    rw [if_neg hmany, flatMap_singleton, payloadOf_deliverTlv, payloadOf_deliverWhole hudh]

theorem textsOf_parts_iff {chars : List Nat} {raw : List Sms} (h : InAlphabet chars)
    (hcoding : msg.coding = dc7bit) (hdata : msg.msgdata = some (utf8Text chars))
    (hudh : (msg.udhdata.getD []).length = 0) (hlong : smsMsgdataLen msg > 160)
    (hrun : splitLoop (deliverSplitArgs msgSequence) msg entropy 255 0 msg = some (.ok raw)) :
    textsOf raw = gsmText chars ↔ gsmText chars = utf8Text chars ∧ chars.length ≤ 255 * 153 := by
  have hcut : cutByOctets msg = false := by
    rw [cutByOctets, hcoding]
    rfl
  have hroom : maxPartLen (deliverSplitArgs msgSequence) msg = (153 : Nat) := by
    rw [maxPartLen_deliver hcoding hudh, if_pos hlong]
  have hown : gsmText chars = utf8Text chars ↔ ∀ c ∈ chars, unicodeToUtf8 c = unicodeToGsm c := by
    have hnil : InAlphabet (chars ++ []) := by rwa [append_nil]
    have hiff := utf8Text_eq_gsmText_iff hnil
    rw [append_nil] at hiff
    rw [eq_comm, hiff]
    exact ⟨fun h => h.2, fun h => ⟨rfl, h⟩⟩
  have hone : (∀ c ∈ chars, unicodeToUtf8 c = unicodeToGsm c) → OneCode chars :=
    fun hfixed c hc => code_own c (h c hc) (hfixed c hc)
  constructor
  · intro heq
    obtain ⟨front, back, rfl, htexts, hcodes, hcount⟩ :=
      splitLoop_texts deliverSplitArgs_plain hroom (by omega) h hdata hcut hrun
    obtain ⟨rfl, hfixed⟩ := (utf8Text_eq_gsmText_iff h).mp (htexts.symm.trans heq)
    rw [append_nil] at hown hone ⊢
    refine ⟨hown.mpr hfixed, ?_⟩
    rw [(hone hfixed).length_gsmText] at hcodes
    omega
  · rintro ⟨hsame, hfits⟩
    rw [hsame]
    exact splitLoop_whole deliverSplitArgs_plain hroom (by omega) h (hone (hown.mp hsame)) hdata
      hcoding rfl (by omega) (by omega) hrun

/-- **What reaches the client** are the codes of the text exactly if there are at most 160, or
it goes into the payload, or every character is its own code and 255 parts hold them. -/
theorem boxMsgToPdu_delivers_iff {chars : List Nat} (hchars : InAlphabet chars)
    (hdata : msg.msgdata = some (utf8Text chars)) (hcoding : msg.coding = dc7bit)
    (hudh : (msg.udhdata.getD []).length = 0) (hcharset : box.altCharset = none)
    (hpdus : boxMsgToPdu env box draw msgSequence entropy msg = .ok (some pdus)) :
    pdus.flatMap payloadOf = charsetUtf8ToGsm (utf8Text chars) ↔
      smsMsgdataLen msg ≤ 160 ∨ usesMessagePayload box msg = true ∨
        (charsetUtf8ToGsm (utf8Text chars) = utf8Text chars ∧ chars.length ≤ 255 * 153) := by
  obtain ⟨raw, hraw, hpayloads⟩ := boxMsgToPdu_payloads hcoding hdata hudh hcharset hpdus
  rw [hpayloads, charsetUtf8ToGsm_utf8Text hchars]
  by_cases hshort : smsMsgdataLen msg ≤ 160
  · have hone : ¬ raw.length > 1 := by
      rw [splitLoop_many_iff hchars hdata hcoding hudh hraw]
      omega
    simp [hone, hshort]
  · have hlong : smsMsgdataLen msg > 160 := by omega
    have hmany := (splitLoop_many_iff hchars hdata hcoding hudh hraw).mpr hlong
    cases huses : usesMessagePayload box msg with
    | true => simp
    | false =>
      rw [if_pos ⟨hmany, rfl⟩, textsOf_parts_iff hchars hcoding hdata hudh hlong hraw]
      simp [hshort]

end Payload

def plainDeliverBox : DeliverBox where
  version := 0x34
  serviceType := none
  sourceAddrTon := -1
  sourceAddrNpi := -1
  destAddrTon := -1
  destAddrNpi := -1
  autodetectAddr := true
  altCharset := none
  altDcs := 0
  priority := 0

def incomingText (chars : List Nat) : Sms :=
  { smsCreate uuidClear with
    sender := some (ascii "123"), receiver := some (ascii "45"), coding := dc7bit
    msgdata := some (utf8Text chars) }

def incomingPdus (chars : List Nat) : Except Failure (Option (List AnySmppPdu)) :=
  boxMsgToPdu idleEnv plainDeliverBox id 0 (fun _ => .random uuidClear) (incomingText chars)

theorem shortIncoming_delivered :
    ∃ pdus, incomingPdus [72, 64] = .ok (some pdus) ∧
      pdus.flatMap payloadOf = charsetUtf8ToGsm (utf8Text [72, 64]) := by
  obtain ⟨pdus, hok⟩ : ∃ pdus, incomingPdus [72, 64] = .ok (some pdus) := by decide +kernel
  have halphabet : InAlphabet [72, 64] := by decide +kernel
  have hshort : smsMsgdataLen (incomingText [72, 64]) ≤ 160 := by decide +kernel
  exact ⟨pdus, hok, (boxMsgToPdu_delivers_iff halphabet rfl rfl rfl rfl hok).mpr (.inl hshort)⟩

def longChars : List Nat := 64 :: replicate 160 97

/-- The parts of this text begin with `@` and not with its code, which is zero. -/
theorem longIncoming_not_converted :
    InAlphabet longChars ∧ ∃ pdus, incomingPdus longChars = .ok (some pdus) ∧
      pdus.flatMap payloadOf ≠ charsetUtf8ToGsm (utf8Text longChars) := by
  decide +kernel

end Kannel
