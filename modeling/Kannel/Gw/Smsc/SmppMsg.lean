import Kannel.Gw.Dlr
import Kannel.Gw.SmsDcs
import Kannel.Gw.Smsc.SmppPdu

/-!
# Messages and SMPP PDUs

A message becomes a `submit_sm`, and a `deliver_sm` or `data_sm` a message, with its addresses
normalised, its header cut off and its text converted.
-/

namespace Kannel

inductive Stop
  | failure (f : Failure)
  | refusal (reason : Nat)
  deriving DecidableEq

def smppEsmeRinvsrcadr : Nat := 0x0A

def smppEsmeRinvdstadr : Nat := 0x0B

def smppEsmeRinvesmclass : Nat := 0x43

def smppEsmeRinvtlvval : Nat := 0xC4

def gsmAddrTonInternational : Nat := 1

def gsmAddrTonNational : Nat := 2

def gsmAddrTonAlphanumeric : Nat := 5

def gsmAddrNpiUnknown : Nat := 0

def gsmAddrNpiE164 : Nat := 1

def esmClassSubmitUdhIndicator : Nat := 0x40

def esmClassSubmitRpi : Nat := 0x80

def hasBits (flags mask : Nat) : Bool := flags &&& mask ≠ 0

structure SmppEnv where
  now : Int
  id : Uuid
  iconv : (charsetFrom charsetTo : Octstr) → Octstr → Option Octstr
  smppTime : Int → Octstr

structure SmppLink where
  version : Nat
  serviceType : Option Octstr
  sourceAddrTon : Int
  sourceAddrNpi : Int
  destAddrTon : Int
  destAddrNpi : Int
  autodetectAddr : Bool
  altCharset : Option Octstr
  altAddrCharset : Option Octstr
  altDcs : Int
  esmClass : Int
  validityperiod : Int
  priority : Int
  constants : List (Octstr × Octstr)

def smppDefaultCharset : Octstr := ascii "UTF-8"

def smppDefaultUcs2Charset : Octstr := ascii "UTF-16BE"

def charsetConvert (env : SmppEnv) (string : Option Octstr) (charsetFrom charsetTo : Octstr) :
    Option Octstr :=
  match string with
  | none => none
  | some string =>
    if string.length < 1 ∨ equalIgnoringCase charsetFrom charsetTo then some string
    else env.iconv charsetFrom charsetTo string

def converted (env : SmppEnv) (string : Option Octstr) (charsetFrom charsetTo : Octstr) :
    Option Octstr :=
  (charsetConvert env string charsetFrom charsetTo).or string

def convertedKorean (string : Option Octstr)
    (convert : Octstr → Option Octstr) : Option Octstr :=
  (convert (ascii "KSC_5601")).or ((convert (ascii "KSC5636")).or string)

def handleMtDcs (env : SmppEnv) (shortMessage : Option Octstr) (internal : Octstr)
    (dataCoding : Int) : Option Octstr :=
  match dataCoding with
  | 0x01 => converted env shortMessage internal (ascii "ASCII")
  | 0x03 => converted env shortMessage internal (ascii "LATIN1")
  | 0x02 | 0x04 => shortMessage
  | 0x05 => converted env shortMessage internal (ascii "JIS_X0208-1990")
  | 0x06 => converted env shortMessage internal (ascii "ISO-8859-5")
  | 0x07 => converted env shortMessage internal (ascii "ISO-8859-8")
  | 0x08 => converted env shortMessage internal smppDefaultUcs2Charset
  | 0x0D => converted env shortMessage internal (ascii "JIS_X0212-1990")
  | 0x0E => convertedKorean shortMessage (charsetConvert env shortMessage internal)
  | _ => shortMessage.map charsetUtf8ToGsm

def fromCharset (env : SmppEnv) (msg : Sms) (charset : Octstr) : Sms :=
  { msg with msgdata := converted env msg.msgdata charset smppDefaultCharset, coding := dc7bit }

def handleMoDcs (env : SmppEnv) (msg : Sms) (altCharset : Option Octstr) (dataCoding : BitVec 32)
    (esmClass : Nat) : Sms :=
  match dataCoding.toNat with
  | 0x00 =>
    match altCharset with
    | some charset =>
      if msg.coding ≠ dc8bit then fromCharset env msg charset
      else { msg with msgdata := msg.msgdata.map charsetGsmToUtf8, coding := dc7bit }
    | none => { msg with msgdata := msg.msgdata.map charsetGsmToUtf8, coding := dc7bit }
  | 0x01 => { msg with coding := dc7bit }
  | 0x03 => fromCharset env msg (ascii "ISO-8859-1")
  | 0x02 | 0x04 => { msg with coding := dc8bit }
  | 0x05 => fromCharset env msg (ascii "JIS_X0208-1990")
  | 0x06 => fromCharset env msg (ascii "ISO-8859-5")
  | 0x07 => fromCharset env msg (ascii "ISO-8859-8")
  | 0x08 => { msg with coding := dcUcs2 }
  | 0x0D => fromCharset env msg (ascii "JIS_X0212-1990")
  | 0x0E =>
    { msg with
      msgdata := convertedKorean msg.msgdata
        (charsetConvert env msg.msgdata · smppDefaultCharset)
      coding := dc7bit }
  | _ =>
    if msg.coding = smsParamUndefined ∧ hasBits esmClass esmClassSubmitUdhIndicator then
      { msg with coding := dc8bit }
    else if msg.coding = dc7bit ∨ msg.coding = smsParamUndefined then
      { msg with coding := dc7bit, msgdata := msg.msgdata.map charsetGsmToUtf8 }
    else msg

def allDigits (addr : Octstr) (pos : Nat) : Bool := ((addr.drop pos).take 256).all isdigit

def internationalDigits (addr : Octstr) : Bool :=
  if octstrGetChar addr 0 = some 43 then allDigits addr 1 else allDigits addr 0

def withPlus (addr : Octstr) : Octstr :=
  let addr := if octstrSearch addr (ascii "00") 0 = some 0 then addr.drop 2 else addr
  if octstrGetChar addr 0 = some 43 then addr else 43 :: addr

def convertAddrFromPdu (env : SmppEnv) (addr : Option Octstr) (ton : Nat)
    (altAddrCharset : Option Octstr) : Except Stop (Option Octstr) :=
  match addr with
  | none => .ok none
  | some addr =>
    if ton = gsmAddrTonInternational then
      if addr.length ≥ 7 ∧ ¬ internationalDigits addr then .error (.refusal smppEsmeRinvsrcadr)
      else .ok (some (withPlus addr))
    else if ton = gsmAddrTonAlphanumeric then
      if addr.length > 11 then .error (.refusal smppEsmeRinvsrcadr)
      else
        match altAddrCharset with
        | none => .ok (some addr)
        | some charset =>
          if equalIgnoringCase charset (ascii "gsm") then .ok (some (charsetGsmToUtf8 addr))
          else .ok (converted env (some addr) charset smppDefaultCharset)
    else .ok (some addr)

variable {size : Nat} [NeZero size]

def assertType (pdu : SmppPdu size) (type : PduType) : Except Stop Unit :=
  if pdu.type = type then .ok () else .error (.failure .assertion)

def convertAddrs (convert : Option Octstr → Nat → Except Stop (Option Octstr))
    (pdu : SmppPdu size) (msg : Sms) : Except Stop Sms := do
  let sender ← convert (pdu.str .sourceAddr) (pdu.int .sourceAddrTon)
  if pdu.str .destinationAddr = none then throw (.refusal smppEsmeRinvdstadr)
  let receiver ← convert (pdu.str .destinationAddr) (pdu.int .destAddrTon)
  return { msg with sender := sender, receiver := receiver }

def hasSar (pdu : SmppPdu size) : Bool :=
  pdu.tlvInt .sarMsgRefNum ≥ 0 ∧ pdu.tlvInt .sarSegmentSeqnum > 0 ∧ pdu.tlvInt .sarTotalSegments > 0

def sarToUdh (present : Bool) (pdu : SmppPdu size) (msg : Sms) : Except Stop Sms :=
  if present then
    if hasBits (pdu.int .esmClass) esmClassSubmitUdhIndicator then
      .error (.refusal smppEsmeRinvtlvval)
    else
      .ok (prependCatenationUdh msg (pdu.tlvInt .sarSegmentSeqnum).toNat
        (pdu.tlvInt .sarTotalSegments).toNat (pdu.tlvInt .sarMsgRefNum).toNat)
  else .ok msg

def udhl (msgdata : Octstr) : Nat :=
  match octstrGetChar msgdata 0 with
  | none => 0
  | some c => c.toNat + 1

def takeUdh (esmClass : Nat) (msg : Sms) : Except Stop Sms :=
  if hasBits esmClass esmClassSubmitUdhIndicator then
    match msg.msgdata with
    | none => .error (.failure .assertion)
    | some msgdata =>
      if udhl msgdata > msgdata.length then .error (.refusal smppEsmeRinvesmclass)
      else
        .ok { msg with
          udhdata := some (msgdata.take (udhl msgdata))
          msgdata := some (msgdata.drop (udhl msgdata)) }
  else .ok msg

def metadataSmppGroup : CString := ⟨ascii "smpp", by decide⟩

def tlvToMetaData (pdu : SmppPdu size) (msg : Sms) : Except Stop Sms :=
  match pdu.tlv with
  | none => .error (.failure .outside)
  | some tlv =>
    let data := msg.metaData.getD []
    .ok { msg with metaData := some (metaDataSetValues data tlv metadataSmppGroup true).2.1 }

def dataCodingOf (pdu : SmppPdu size) : BitVec 32 := BitVec.ofNat 32 (pdu.int .dataCoding)

def messageText (version : Nat) (pdu : SmppPdu size) : Option Octstr :=
  if version > 0x33 ∧ pdu.int .smLength = 0 ∧ (pdu.tlvStr .messagePayload).isSome then
    pdu.tlvStr .messagePayload
  else pdu.str .shortMessage

def rpiOf (pdu : SmppPdu size) (msg : Sms) : Int :=
  if hasBits (pdu.int .esmClass) esmClassSubmitRpi then 1 else msg.rpi

def pduToMsg (env : SmppEnv) (smpp : SmppLink) (pdu : SmppPdu size) : Except Stop Sms := do
  assertType pdu .deliverSm
  let msg := smsCreate env.id
  let msg ← convertAddrs (convertAddrFromPdu env · · smpp.altAddrCharset) pdu msg
  let msg := { msg with
    binfo := pdu.str .serviceType
    foreignId := pdu.tlvStr .receiptedMessageId
    rpi := rpiOf pdu msg
    msgdata := messageText smpp.version pdu }
  let msg ← sarToUdh (smpp.version > 0x33 ∧ hasSar pdu) pdu msg
  let msg ← takeUdh (pdu.int .esmClass) msg
  let msg := (dcsToFields msg (dataCodingOf pdu)).2
  let msg := handleMoDcs env msg smpp.altCharset (dataCodingOf pdu) (pdu.int .esmClass)
  let msg := { msg with pid := pdu.int .protocolId, priority := pdu.int .priorityFlag }
  tlvToMetaData pdu msg

def dataSmToMsg (env : SmppEnv) (smpp : SmppLink) (pdu : SmppPdu size) : Except Stop Sms := do
  assertType pdu .dataSm
  let msg := smsCreate env.id
  let msg ← convertAddrs (convertAddrFromPdu env · · smpp.altAddrCharset) pdu msg
  let msg := { msg with
    binfo :=
      if smpp.version = 0x50 ∧ (pdu.tlvStr .billingIdentification).isSome then
        pdu.tlvStr .billingIdentification
      else pdu.str .serviceType
    foreignId := pdu.tlvStr .receiptedMessageId
    rpi := rpiOf pdu msg
    msgdata := pdu.tlvStr .messagePayload }
  let msg ← sarToUdh (hasSar pdu) pdu msg
  let msg ← takeUdh (pdu.int .esmClass) msg
  let msg := (dcsToFields msg (dataCodingOf pdu)).2
  let msg := handleMoDcs env msg smpp.altCharset (dataCodingOf pdu) (pdu.int .esmClass)
  tlvToMetaData pdu msg

def smppValue (msg : Sms) (key : String) : Option Octstr :=
  msg.metaData.bind fun data => metaDataGetValue data metadataSmppGroup (ascii key)

def atoi (value : Octstr) : Int := toInt (atol (octstrGetCstr (some value)))

structure SmppAddr where
  addr : Option Octstr
  ton : Nat
  npi : Nat

def tonNpi (msg : Sms) (addr : Option Octstr) (ton npi : Int) (tonKey npiKey : String) :
    SmppAddr × Bool :=
  let preset : SmppAddr :=
    if ton > -1 ∧ npi > -1 then ⟨addr, toUlong ton, toUlong npi⟩
    else ⟨addr, gsmAddrTonNational, gsmAddrNpiE164⟩
  let tonValue := smppValue msg tonKey
  let npiValue := smppValue msg npiKey
  ({ preset with
      ton := (tonValue.map fun v => toUlong (atoi v)).getD preset.ton
      npi := (npiValue.map fun v => toUlong (atoi v)).getD preset.npi },
    tonValue.isSome || npiValue.isSome)

def alphanumericAddr (env : SmppEnv) (smpp : SmppLink) (addr : Octstr) : SmppAddr where
  addr :=
    match smpp.altAddrCharset with
    | none => some addr
    | some charset =>
      if equalIgnoringCase charset (ascii "gsm") then
        some (charsetUtf8ToGsm (addr.map fun c => if c = 64 then 63 else c))
      else converted env (some addr) smppDefaultCharset charset
  ton := gsmAddrTonAlphanumeric
  npi := gsmAddrNpiUnknown

def sourceAddr (env : SmppEnv) (smpp : SmppLink) (msg : Sms) : SmppAddr :=
  let (source, forced) :=
    tonNpi msg msg.sender smpp.sourceAddrTon smpp.sourceAddrNpi "source_addr_ton" "source_addr_npi"
  match source.addr with
  | none => source
  | some addr =>
    if ¬ forced ∧ smpp.autodetectAddr then
      if octstrGetChar addr 0 = some 43 then
        if allDigits addr 1 then
          { source with addr := some (addr.drop 1), ton := gsmAddrTonInternational }
        else alphanumericAddr env smpp addr
      else if allDigits addr 0 then source
      else alphanumericAddr env smpp addr
    else source

def destAddr (smpp : SmppLink) (msg : Sms) : Except Stop SmppAddr :=
  let (dest, forced) :=
    tonNpi msg msg.receiver smpp.destAddrTon smpp.destAddrNpi "dest_addr_ton" "dest_addr_npi"
  if forced then .ok dest
  else
    match dest.addr with
    | none => .error (.failure .assertion)
    | some addr =>
      if octstrGetChar addr 0 = some 43 then
        .ok { dest with addr := some (addr.drop 1), ton := gsmAddrTonInternational }
      else .ok dest

def submitDcs (smpp : SmppLink) (msg : Sms) : Sms × BitVec 32 :=
  if msg.mwi = smsParamUndefined ∧ msg.mclass ≠ smsParamUndefined then fieldsToDcs msg 1
  else fieldsToDcs msg (if msg.altDcs ≠ smsParamUndefined then msg.altDcs else smpp.altDcs)

def submitText (env : SmppEnv) (smpp : SmppLink) (msg : Sms) (dcs : BitVec 32) :
    Option Octstr × BitVec 32 :=
  let dataCoding : Int := ((smppValue msg "data_coding").map atoi).getD (-1)
  if msg.coding = dc7bit ∨ (msg.coding = smsParamUndefined ∧ (msg.udhdata.getD []).length = 0) then
    if dcs &&& 0xF0 ≠ 0 then (msg.msgdata.map charsetUtf8ToGsm, dcs)
    else if dcs = 0 then
      match smpp.altCharset with
      | none =>
        (handleMtDcs env msg.msgdata smppDefaultCharset dataCoding,
          if dataCoding ≠ -1 then BitVec.ofInt 32 dataCoding else dcs)
      | some charset => (converted env msg.msgdata smppDefaultCharset charset, dcs)
    else (msg.msgdata, dcs)
  else if msg.coding = dcUcs2 ∧ dataCoding > 0x04 ∧ dataCoding ≠ 0x08 then
    (handleMtDcs env msg.msgdata smppDefaultUcs2Charset dataCoding, BitVec.ofInt 32 dataCoding)
  else (msg.msgdata, dcs)

def submitEsmClass (smpp : SmppLink) (msg : Sms) : Nat :=
  toUlong smpp.esmClass |||
    (if (msg.udhdata.getD []).length ≠ 0 then esmClassSubmitUdhIndicator else 0) |||
    (if msg.rpi > 0 then esmClassSubmitRpi else 0)

def prependUdh (msg : Sms) (text : Option Octstr) : Except Stop (Option Octstr) :=
  if (msg.udhdata.getD []).length ≠ 0 then
    match text with
    | none => .error (.failure .assertion)
    | some text => .ok (some (msg.udhdata.getD [] ++ text))
  else .ok text

def submitLength (version : Nat) (text : Option Octstr) :
    Option (Option Octstr × Option Octstr × Nat) :=
  let len := (text.getD []).length
  if len > 254 then if version > 0x33 then some (none, text, 0) else none
  else some (text, none, len)

def dlrIsSuccess (dlr : Int) : Bool := dlr ≠ -1 ∧ dlrFlags dlr &&& 0x01 ≠ 0

def dlrIsFail (dlr : Int) : Bool := dlr ≠ -1 ∧ dlrFlags dlr &&& 0x62 ≠ 0

def dlrIsBuffered (dlr : Int) : Bool := dlr ≠ -1 ∧ dlrFlags dlr &&& 0x04 ≠ 0

def registeredDelivery (mask : Int) : Nat :=
  (if dlrIsFail mask ∧ ¬ dlrIsSuccess mask then 2 else if dlrIsSuccessOrFail mask then 1 else 0) +
    if dlrIsBuffered mask then 16 else 0

def smppTlvAddConstant (constants : List (Octstr × Octstr)) (tlv : Option ValueDict) :
    Option ValueDict :=
  constants.foldl
    (fun tlv constant =>
      let dict := tlv.getD (ValueDict.of (dictCreate Octstr 1024))
      if (dict.get constant.1).isNone then some (dict.put constant.1 (some constant.2))
      else some dict)
    tlv

structure AnySmppPdu where
  size : Nat
  nonzero : NeZero size
  pdu : SmppPdu size

instance anySmppPdu_neZero (pdu : AnySmppPdu) : NeZero pdu.size := pdu.nonzero

def SmppPdu.withTlv (pdu : SmppPdu size) (tlv : Option ValueDict) : AnySmppPdu :=
  match tlv with
  | none => ⟨size, inferInstance, { pdu with tlv := none }⟩
  | some values =>
    ⟨values.size, values.nonzero,
      { type := pdu.type, int := pdu.int, str := pdu.str, tlvInt := pdu.tlvInt,
        tlvStr := pdu.tlvStr, tlv := some values.dict }⟩

structure SubmitBody where
  esmClass : Nat
  dataCoding : BitVec 32
  smLength : Nat
  shortMessage : Option Octstr
  messagePayload : Option Octstr

def submitBody (env : SmppEnv) (smpp : SmppLink) (msg : Sms) : Except Stop (Option SubmitBody) := do
  let (msg, dcs) := submitDcs smpp msg
  let (text, dcs) := submitText env smpp msg dcs
  let text ← prependUdh msg text
  return (submitLength smpp.version text).map fun (shortMessage, messagePayload, smLength) =>
    { esmClass := submitEsmClass smpp msg
      dataCoding := dcs
      smLength := smLength
      shortMessage := shortMessage
      messagePayload := messagePayload }

def submitTimes (env : SmppEnv) (smpp : SmppLink) (msg : Sms) : Option Octstr × Option Octstr :=
  let validity : Int :=
    if msg.validity ≠ smsParamUndefined then msg.validity
    else if smpp.validityperiod ≠ smsParamUndefined then env.now + smpp.validityperiod * 60
    else smsParamUndefined
  (if validity ≠ smsParamUndefined then some (env.smppTime validity) else none,
    if msg.deferred ≠ smsParamUndefined then some (env.smppTime msg.deferred) else none)

def submitInt (smpp : SmppLink) (msg : Sms) (seqNo : Nat) (source dest : SmppAddr)
    (body : SubmitBody) : IntField → Nat
  | .commandId => PduType.submitSm.id
  | .sequenceNumber => seqNo
  | .sourceAddrTon => source.ton
  | .sourceAddrNpi => source.npi
  | .destAddrTon => dest.ton
  | .destAddrNpi => dest.npi
  | .esmClass => body.esmClass
  | .protocolId => if msg.pid ≠ smsParamUndefined then toUlong msg.pid else 0
  | .priorityFlag =>
    if msg.priority ≥ 0 ∧ msg.priority ≤ 3 then toUlong msg.priority else toUlong smpp.priority
  | .registeredDelivery => registeredDelivery msg.dlrMask
  | .dataCoding => toUlong body.dataCoding.toInt
  | .smLength => body.smLength
  | _ => 0

def submitStr (env : SmppEnv) (smpp : SmppLink) (msg : Sms) (source dest : SmppAddr)
    (body : SubmitBody) : StrField → Option Octstr
  | .serviceType =>
    if (msg.binfo.getD []).length ≠ 0 then
      if smpp.version = 0x50 then none else msg.binfo
    else smpp.serviceType
  | .sourceAddr => source.addr
  | .destinationAddr => dest.addr
  | .scheduleDeliveryTime => (submitTimes env smpp msg).2
  | .validityPeriod => (submitTimes env smpp msg).1
  | .shortMessage => body.shortMessage
  | _ => none

def msgToPdu (env : SmppEnv) (smpp : SmppLink) (seqNo : Nat) (msg : Sms) :
    Except Stop (Option AnySmppPdu) := do
  let source := sourceAddr env smpp msg
  let dest ← destAddr smpp msg
  if (dest.addr.getD []).length > 20 ∨ (source.addr.getD []).length > 20 then return none
  let some body ← submitBody env smpp msg | return none
  let pdu : SmppPdu 2048 :=
    { type := .submitSm
      int := submitInt smpp msg seqNo source dest body
      str := submitStr env smpp msg source dest body
      tlvInt := fun name =>
        if name = .moreMessagesToSend ∧ smpp.version > 0x33 ∧ msg.msgLeft > 0 then 1 else -1
      tlvStr := fun name =>
        match name with
        | .messagePayload => body.messagePayload
        | .billingIdentification =>
          if (msg.binfo.getD []).length ≠ 0 ∧ smpp.version = 0x50 then msg.binfo else none
        | _ => none
      tlv := none }
  let values := msg.metaData.bind fun data => metaDataGetValues data metadataSmppGroup
  return some (pdu.withTlv (smppTlvAddConstant smpp.constants values))

theorem withTlv_fields (pdu : SmppPdu size) (tlv : Option ValueDict) :
    (pdu.withTlv tlv).pdu.int = pdu.int ∧ (pdu.withTlv tlv).pdu.str = pdu.str ∧
      (pdu.withTlv tlv).pdu.tlvStr = pdu.tlvStr := by
  cases tlv <;> exact ⟨rfl, rfl, rfl⟩

theorem msgToPdu_inversion {env : SmppEnv} {smpp : SmppLink} {seqNo : Nat} {msg : Sms}
    {out : AnySmppPdu} (h : msgToPdu env smpp seqNo msg = .ok (some out)) :
    ∃ dest body, submitBody env smpp msg = .ok (some body) ∧
      out.pdu.int = submitInt smpp msg seqNo (sourceAddr env smpp msg) dest body ∧
      out.pdu.str = submitStr env smpp msg (sourceAddr env smpp msg) dest body ∧
      out.pdu.tlvStr .messagePayload = body.messagePayload := by
  obtain ⟨dest, -, h⟩ := bind_eq_ok_iff.mp h
  by_cases hlong : (dest.addr.getD []).length > 20 ∨
      ((sourceAddr env smpp msg).addr.getD []).length > 20
  · rw [if_pos hlong] at h
    cases h
  · rw [if_neg hlong] at h
    obtain ⟨body, hbody, h⟩ := bind_eq_ok_iff.mp h
    cases body with
    | none => cases h
    | some body =>
      simp only [pure, Except.pure, Except.ok.injEq, Option.some.injEq] at h
      subst h
      refine ⟨dest, body, hbody, ?_⟩
      rw [(withTlv_fields _ _).1, (withTlv_fields _ _).2.1, (withTlv_fields _ _).2.2]
      exact ⟨rfl, rfl, rfl⟩

theorem msgToPdu_sequenceNumber {env : SmppEnv} {smpp : SmppLink} {seqNo : Nat} {msg : Sms}
    {out : AnySmppPdu} (h : msgToPdu env smpp seqNo msg = .ok (some out)) :
    out.pdu.int .sequenceNumber = seqNo := by
  obtain ⟨dest, body, -, hint, -⟩ := msgToPdu_inversion h
  rw [hint]
  rfl

def idleEnv : SmppEnv := ⟨0, uuidClear, fun _ _ _ => none, fun _ => []⟩

def plainLink : SmppLink where
  version := 0x34
  serviceType := none
  sourceAddrTon := -1
  sourceAddrNpi := -1
  destAddrTon := -1
  destAddrNpi := -1
  autodetectAddr := false
  altCharset := none
  altAddrCharset := none
  altDcs := 0
  esmClass := 3
  validityperiod := -1
  priority := 0
  constants := []

end Kannel
