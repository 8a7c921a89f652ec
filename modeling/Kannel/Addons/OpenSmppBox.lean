import Kannel.Gw.Smsc.SmppMsg

/-!
# Incoming messages of opensmppbox

What clients of the box send in. The conversions are copies of the driver's that have drifted
apart.
-/

namespace Kannel

variable {size : Nat} [NeZero size]

structure SmppBox where
  version : Nat
  altCharset : Option Octstr
  smsService : Option Octstr
  timestampToMinutes : Octstr → Int

def boxConvertAddrFromPdu (addr : Option Octstr) (ton : Nat) : Except Stop (Option Octstr) :=
  match addr with
  | none => .ok none
  | some addr =>
    if ton = gsmAddrTonInternational then
      if addr.length < 7 ∨ ¬ internationalDigits addr then .error (.refusal smppEsmeRinvsrcadr)
      else .ok (some (withPlus addr))
    else if ton = gsmAddrTonAlphanumeric ∧ addr.length > 11 then
      .error (.refusal smppEsmeRinvsrcadr)
    else .ok (some addr)

def toUcs2 (env : SmppEnv) (msg : Sms) (charset : Octstr) : Sms :=
  { msg with msgdata := converted env msg.msgdata charset (ascii "UCS-2BE"), coding := dcUcs2 }

def boxHandleDcs (env : SmppEnv) (fromAlternative : Octstr → Option Octstr) (box : SmppBox)
    (msg : Sms) (dataCoding : BitVec 32) (esmClass : Nat) : Sms :=
  match dataCoding.toNat with
  | 0x00 =>
    match box.altCharset with
    | some charset =>
      if msg.coding ≠ dc8bit then
        { msg with msgdata := fromAlternative charset, coding := dc7bit }
      else { msg with msgdata := msg.msgdata.map charsetGsmToUtf8, coding := dc7bit }
    | none => { msg with msgdata := msg.msgdata.map charsetGsmToUtf8, coding := dc7bit }
  | 0x01 | 0x03 => { msg with coding := dc7bit }
  | 0x02 | 0x04 => { msg with coding := dc8bit }
  | 0x05 => msg
  | 0x06 => toUcs2 env msg (ascii "ISO-8859-5")
  | 0x07 => toUcs2 env msg (ascii "ISO-8859-8")
  | 0x08 => { msg with coding := dcUcs2 }
  | _ =>
    if msg.coding = smsParamUndefined ∧ hasBits esmClass esmClassSubmitUdhIndicator then
      { msg with coding := dc8bit }
    else if msg.coding = dc7bit ∨ msg.coding = smsParamUndefined then
      { msg with coding := dc7bit, msgdata := msg.msgdata.map charsetGsmToUtf8 }
    else msg

def boxDlrMask (registeredDelivery : Nat) : Int :=
  match registeredDelivery &&& 0x03 with
  | 1 => 0x13
  | 2 => 0x12
  | _ => 0

def boxMetaData (box : SmppBox) (pdu : SmppPdu size) (msg : Sms) : Except Stop Sms :=
  if box.version > 0x33 then tlvToMetaData pdu msg else .ok msg

def boxTime (env : SmppEnv) (box : SmppBox) (timestamp : Option Octstr) (undefined : Int) : Int :=
  match timestamp with
  | none => undefined
  | some timestamp => env.now + box.timestampToMinutes timestamp * 60

def boxPduToMsg (env : SmppEnv) (box : SmppBox) (pdu : SmppPdu size) : Except Stop Sms := do
  assertType pdu .submitSm
  let msg := { smsCreate env.id with smsType := mtPush }
  let msg ← convertAddrs boxConvertAddrFromPdu pdu msg
  let msg := { msg with
    service := box.smsService
    binfo := pdu.str .serviceType
    rpi := rpiOf pdu msg
    msgdata := messageText box.version pdu }
  let msg ← takeUdh (pdu.int .esmClass) msg
  let msg := (dcsToFields msg (dataCodingOf pdu)).2
  let msg := boxHandleDcs env (converted env msg.msgdata · (ascii "UTF-8")) box msg
    (dataCodingOf pdu) (pdu.int .esmClass)
  let msg := { msg with
    pid := pdu.int .protocolId
    priority := pdu.int .priorityFlag
    dlrMask := boxDlrMask (pdu.int .registeredDelivery)
    smsType := if hasBits (pdu.int .esmClass) 0x0C then reportMo else msg.smsType }
  let msg ← boxMetaData box pdu msg
  return { msg with
    time := env.now
    validity := boxTime env box (pdu.str .validityPeriod) msg.validity
    deferred := boxTime env box (pdu.str .scheduleDeliveryTime) msg.deferred }

def boxDataSmToMsg (env : SmppEnv) (box : SmppBox) (pdu : SmppPdu size) : Except Stop Sms := do
  assertType pdu .dataSm
  let msg := { smsCreate env.id with smsType := mtPush }
  let msg ← convertAddrs boxConvertAddrFromPdu pdu msg
  let msg := { msg with
    binfo := pdu.str .serviceType
    rpi := rpiOf pdu msg
    msgdata := pdu.tlvStr .messagePayload }
  let msg ← takeUdh (pdu.int .esmClass) msg
  let msg := (dcsToFields msg (dataCodingOf pdu)).2
  let msg := boxHandleDcs env (converted env msg.msgdata (ascii "UTF-8") ·) box msg
    (dataCodingOf pdu) (pdu.int .esmClass)
  let msg ← boxMetaData box pdu msg
  return { msg with time := env.now }

end Kannel
