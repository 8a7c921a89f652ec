import Kannel.Gwlib.Uuid

/-!
# Messages and their packed form

The functions of `msg.c` are generated from the field lists of `msg-decl.h`: a declaration is a
list of field kinds here, its values a typed tuple. The parser keeps its position in an `int`
and takes announced lengths at face value.
-/

namespace Kannel

inductive FieldKind
  | integer | octstr | uuid | void
  deriving DecidableEq, Repr

@[reducible] def FieldKind.Val : FieldKind → Type
  | .integer => Int
  | .octstr => Option Octstr
  | .uuid => Uuid
  | .void => Option Nat

@[reducible] def Fields : List FieldKind → Type
  | [] => Unit
  | k :: ks => k.Val × Fields ks

structure Heartbeat where
  load : Int
  deriving DecidableEq

structure Admin where
  command : Int
  boxcId : Option Octstr
  httpPort : Int
  deriving DecidableEq

structure Sms where
  sender : Option Octstr
  receiver : Option Octstr
  udhdata : Option Octstr
  msgdata : Option Octstr
  time : Int
  smscId : Option Octstr
  smscNumber : Option Octstr
  foreignId : Option Octstr
  service : Option Octstr
  account : Option Octstr
  id : Uuid
  smsType : Int
  mclass : Int
  mwi : Int
  coding : Int
  compress : Int
  validity : Int
  deferred : Int
  dlrMask : Int
  dlrUrl : Option Octstr
  pid : Int
  altDcs : Int
  rpi : Int
  charset : Option Octstr
  boxcId : Option Octstr
  binfo : Option Octstr
  msgLeft : Int
  splitParts : Option Nat
  priority : Int
  resendTry : Int
  resendTime : Int
  metaData : Option Octstr
  deriving DecidableEq

structure Ack where
  nack : Int
  time : Int
  id : Uuid
  deriving DecidableEq

structure WdpDatagram where
  sourceAddress : Option Octstr
  sourcePort : Int
  destinationAddress : Option Octstr
  destinationPort : Int
  userData : Option Octstr
  deriving DecidableEq

inductive MsgType
  | heartbeat | admin | sms | ack | wdpDatagram
  deriving DecidableEq, Repr

inductive Msg
  | heartbeat (m : Heartbeat)
  | admin (m : Admin)
  | sms (m : Sms)
  | ack (m : Ack)
  | wdpDatagram (m : WdpDatagram)
  deriving DecidableEq

def msgParamUndefined : Int := -1

def mtReply : Int := 1

def mtPush : Int := 2

def reportMo : Int := 3

def reportMt : Int := 4

def smsCreate (id : Uuid) : Sms where
  sender := none
  receiver := none
  udhdata := none
  msgdata := none
  time := msgParamUndefined
  smscId := none
  smscNumber := none
  foreignId := none
  service := none
  account := none
  id := id
  smsType := msgParamUndefined
  mclass := msgParamUndefined
  mwi := msgParamUndefined
  coding := msgParamUndefined
  compress := msgParamUndefined
  validity := msgParamUndefined
  deferred := msgParamUndefined
  dlrMask := msgParamUndefined
  dlrUrl := none
  pid := msgParamUndefined
  altDcs := msgParamUndefined
  rpi := msgParamUndefined
  charset := none
  boxcId := none
  binfo := none
  msgLeft := msgParamUndefined
  splitParts := none
  priority := msgParamUndefined
  resendTry := msgParamUndefined
  resendTime := msgParamUndefined
  metaData := none

def MsgType.code : MsgType → Int
  | .heartbeat => 0
  | .admin => 1
  | .sms => 2
  | .ack => 3
  | .wdpDatagram => 4

def MsgType.ofCode : Int → Option MsgType
  | 0 => some .heartbeat
  | 1 => some .admin
  | 2 => some .sms
  | 3 => some .ack
  | 4 => some .wdpDatagram
  | _ => none

@[reducible] def MsgType.decl : MsgType → List FieldKind
  | .heartbeat => [.integer]
  | .admin => [.integer, .octstr, .integer]
  | .sms =>
    [.octstr, .octstr, .octstr, .octstr, .integer, .octstr, .octstr, .octstr, .octstr, .octstr,
      .uuid, .integer, .integer, .integer, .integer, .integer, .integer, .integer, .integer,
      .octstr, .integer, .integer, .integer, .octstr, .octstr, .octstr, .integer, .void,
      .integer, .integer, .integer, .octstr]
  | .ack => [.integer, .integer, .uuid]
  | .wdpDatagram => [.octstr, .integer, .octstr, .integer, .octstr]

@[reducible] def Msg.type : Msg → MsgType
  | .heartbeat _ => .heartbeat
  | .admin _ => .admin
  | .sms _ => .sms
  | .ack _ => .ack
  | .wdpDatagram _ => .wdpDatagram

def Msg.fields : (m : Msg) → Fields m.type.decl
  | .heartbeat m => (m.load, ())
  | .admin m => (m.command, m.boxcId, m.httpPort, ())
  | .sms m =>
    (m.sender, m.receiver, m.udhdata, m.msgdata, m.time, m.smscId, m.smscNumber, m.foreignId,
      m.service, m.account, m.id, m.smsType, m.mclass, m.mwi, m.coding, m.compress, m.validity,
      m.deferred, m.dlrMask, m.dlrUrl, m.pid, m.altDcs, m.rpi, m.charset, m.boxcId, m.binfo,
      m.msgLeft, m.splitParts, m.priority, m.resendTry, m.resendTime, m.metaData, ())
  | .ack m => (m.nack, m.time, m.id, ())
  | .wdpDatagram m =>
    (m.sourceAddress, m.sourcePort, m.destinationAddress, m.destinationPort, m.userData, ())

def Msg.ofFields : (t : MsgType) → Fields t.decl → Msg
  | .heartbeat, (load, ()) => .heartbeat ⟨load⟩
  | .admin, (command, boxcId, httpPort, ()) => .admin ⟨command, boxcId, httpPort⟩
  | .sms, (sender, receiver, udhdata, msgdata, time, smscId, smscNumber, foreignId, service,
      account, id, smsType, mclass, mwi, coding, compress, validity, deferred, dlrMask, dlrUrl,
      pid, altDcs, rpi, charset, boxcId, binfo, msgLeft, splitParts, priority, resendTry,
      resendTime, metaData, ()) =>
      .sms ⟨sender, receiver, udhdata, msgdata, time, smscId, smscNumber, foreignId, service,
        account, id, smsType, mclass, mwi, coding, compress, validity, deferred, dlrMask, dlrUrl,
        pid, altDcs, rpi, charset, boxcId, binfo, msgLeft, splitParts, priority, resendTry,
        resendTime, metaData⟩
  | .ack, (nack, time, id, ()) => .ack ⟨nack, time, id⟩
  | .wdpDatagram, (sourceAddress, sourcePort, destinationAddress, destinationPort, userData, ()) =>
    .wdpDatagram ⟨sourceAddress, sourcePort, destinationAddress, destinationPort, userData⟩

def appendInteger (os : Octstr) (i : Int) : Octstr :=
  os ++ encodeNetworkLong (toUlong i)

def appendString (os : Octstr) : Option Octstr → Octstr
  | none => appendInteger os (-1)
  | some field => appendInteger os field.length ++ field

def appendUuid (os : Octstr) (id : Uuid) : Octstr :=
  appendInteger os uuidStrLen ++ uuidUnparse id

def packField (os : Octstr) : (k : FieldKind) → k.Val → Octstr
  | .integer, i => appendInteger os i
  | .octstr, field => appendString os field
  | .uuid, id => appendUuid os id
  | .void, _ => os

def packFields : (ks : List FieldKind) → Fields ks → Octstr → Octstr
  | [], _, os => os
  | k :: ks, (v, vs), os => packFields ks vs (packField os k v)

def msgPack (msg : Msg) : Octstr :=
  packFields msg.type.decl msg.fields (appendInteger [] msg.type.code)

def parseInteger (packed : Octstr) (off : Int) : Except Failure (Int × Int) :=
  if off < 0 then .error .assertion
  else if off + 4 > intMax then .error .overflow
  else if off + 4 > packed.length then .error .invalid
  else .ok (decodeNetworkLong (octstrGetManyChars packed off.toNat 4), off + 4)

def parseString (packed : Octstr) (off : Int) : Except Failure (Option Octstr × Int) := do
  let (len, off) ← parseInteger packed off
  if len = -1 then return (none, off)
  let os ← octstrCopy packed off len
  return (some os, toInt (off + len))

def parseUuid (packed : Octstr) (off : Int) : Except Failure (Uuid × Int) := do
  let (tmp, off) ← parseString packed off
  match uuidParse (octstrGetCstr tmp) with
  | none => .error .invalid
  | some id => return (id, off)

def parseField (packed : Octstr) (off : Int) : (k : FieldKind) → Except Failure (k.Val × Int)
  | .integer => parseInteger packed off
  | .octstr => parseString packed off
  | .uuid => parseUuid packed off
  | .void => .ok (none, off)

def parseFields (packed : Octstr) : (ks : List FieldKind) → Int → Except Failure (Fields ks × Int)
  | [], off => .ok ((), off)
  | k :: ks, off => do
    let (v, off) ← parseField packed off k
    let (vs, off) ← parseFields packed ks off
    return ((v, vs), off)

def msgUnpack (os : Octstr) : Except Failure Msg := do
  let (i, off) ← parseInteger os 0
  match MsgType.ofCode i with
  | none => .error .invalid
  | some t => do
    let (vs, _) ← parseFields os t.decl off
    return Msg.ofFields t vs

end Kannel
