import Kannel.Gw.Smsc.SmppPduDef
import Kannel.Lib.Tlv

/-!
# Packing and unpacking SMPP PDUs

The layouts of `smpp_pdu.def` are expanded to create, pack and unpack a PDU. Parameters of the
PDU, configured and unknown ones each advance the position in their own way.
-/

namespace Kannel

variable {size : Nat} [NeZero size]

structure SmppPdu (size : Nat) [NeZero size] where
  type : PduType
  int : IntField → Nat
  str : StrField → Option Octstr
  tlvInt : TlvInt → Int
  tlvStr : TlvStr → Option Octstr
  tlv : Option (Dict Octstr size)

def SmppPdu.setInt (pdu : SmppPdu size) (name : IntField) (val : Nat) : SmppPdu size :=
  { pdu with int := Function.update pdu.int name val }

def SmppPdu.setStr (pdu : SmppPdu size) (name : StrField) (val : Option Octstr) : SmppPdu size :=
  { pdu with str := Function.update pdu.str name val }

def SmppPdu.setTlvInt (pdu : SmppPdu size) (name : TlvInt) (val : Int) : SmppPdu size :=
  { pdu with tlvInt := Function.update pdu.tlvInt name val }

def SmppPdu.setTlvStr (pdu : SmppPdu size) (name : TlvStr) (val : Option Octstr) : SmppPdu size :=
  { pdu with tlvStr := Function.update pdu.tlvStr name val }

def smppPduCreate (type : PduType) (seqNo : Nat) : SmppPdu 2048 where
  type := type
  int name :=
    match name with
    | .commandId => type.id
    | .sequenceNumber => seqNo
    | _ => 0
  str _ := none
  tlvInt _ := -1
  tlvStr _ := none
  tlv := type.optional.map fun _ => dictCreate Octstr 1024

inductive SmppTlvType
  | octets | nulterminated | integer
  deriving DecidableEq, Repr

structure SmppTlv where
  name : Octstr
  tag : Int
  length : Int
  type : SmppTlvType

structure SmppTlvs where
  byTag : Option (Dict (Dict SmppTlv 2048) 2048)
  byName : Option (Dict (Dict SmppTlv 2048) 2048)

def defaultSmscId : Octstr := [100, 101, 102, 59, 97, 117, 108, 116]

def lookupTlv (dicts : Option (Dict (Dict SmppTlv 2048) 2048)) (smscId : Option Octstr)
    (key : Octstr) : Option SmppTlv :=
  dicts.bind fun dicts =>
    let find (id : Octstr) := (dictGet dicts id).bind (dictGet · key)
    (smscId.bind find).or (find defaultSmscId)

def smppTlvGetByName (tlvs : SmppTlvs) (smscId : Option Octstr) (name : Octstr) : Option SmppTlv :=
  lookupTlv tlvs.byName smscId name

def smppTlvGetByTag (tlvs : SmppTlvs) (smscId : Option Octstr) (tag : Nat) : Option SmppTlv :=
  lookupTlv tlvs.byTag smscId (formatDecimal tag)

def encodedInteger (u : Nat) (octets : Int) : Octstr := BigEndian.octets octets.toNat u

def leadingNumber : Nat → Octstr → Nat
  | n, [] => n
  | n, c :: cs =>
    if 48 ≤ c ∧ c ≤ 57 then leadingNumber (n * 10 + (c.toNat - 48)) cs else n

def atol (cstr : Octstr) : Int :=
  match cstr.dropWhile fun c => c = 32 ∨ (9 ≤ c ∧ c ≤ 13) with
  | 45 :: cs => max (-2 ^ 63) (-(leadingNumber 0 cs : Int))
  | 43 :: cs => min (2 ^ 63 - 1) (leadingNumber 0 cs)
  | cs => min (2 ^ 63 - 1) (leadingNumber 0 cs)

def fixLength (pdu : SmppPdu size) : Mandatory → SmppPdu size
  | .octets name fieldGivingOctets =>
    pdu.setInt fieldGivingOctets ((pdu.str name).getD []).length
  | _ => pdu

def fixLengths (pdu : SmppPdu size) : SmppPdu size := pdu.type.mandatory.foldl fixLength pdu

def packNulterminated (maxOctets : Nat) (field : Option Octstr) : Octstr :=
  match field with
  | none => [0]
  | some field => (if field.length ≥ maxOctets then field.take (maxOctets - 1) else field) ++ [0]

def packMandatory (pdu : SmppPdu size) : Mandatory → Octstr
  | .integer name octets => encodedInteger (pdu.int name) octets
  | .nulterminated name maxOctets => packNulterminated maxOctets (pdu.str name)
  | .octets name _ => (pdu.str name).getD []

def packOptional (pdu : SmppPdu size) : Optional → Option Tlv.Frame
  | .integer name octets =>
    if pdu.tlvInt name ≥ 0 then
      some ⟨name.tag, octets, encodedInteger (toUlong (pdu.tlvInt name)) octets⟩
    else none
  | .nulterminated name maxLen =>
    (pdu.tlvStr name).map fun field =>
      ⟨name.tag, if field.length > maxLen then maxLen else field.length + 1,
        packNulterminated maxLen (some field)⟩
  | .octets name minLen maxLen =>
    (pdu.tlvStr name).bind fun field =>
      if field.length > maxLen ∨ field.length < minLen then none
      else some ⟨name.tag, field.length, field⟩

def packConfigured (tlv : SmppTlv) (val : Option Octstr) : Option Tlv.Frame :=
  match tlv.type with
  | .integer =>
    some ⟨toUlong tlv.tag, toUlong tlv.length,
      encodedInteger (toUlong (atol (octstrGetCstr val))) tlv.length⟩
  | .octets =>
    let val := val.getD []
    if val.length > toUlong tlv.length then none
    else some ⟨toUlong tlv.tag, val.length, val⟩
  | .nulterminated =>
    let val := val.getD []
    if val.length > toUlong tlv.length then none
    else some ⟨toUlong tlv.tag, val.length + 1, val ++ [0]⟩

def configuredValues (tlvs : SmppTlvs) (smscId : Option Octstr) (dict : Dict Octstr size) :
    List (SmppTlv × Option Octstr) :=
  (dictKeys dict).filterMap fun key =>
    (smppTlvGetByName tlvs smscId key).map fun tlv => (tlv, dictGet dict key)

def packDict (tlvs : SmppTlvs) (smscId : Option Octstr) : Option (Dict Octstr size) → List Tlv.Frame
  | none => []
  | some dict =>
    (configuredValues tlvs smscId dict).filterMap fun entry => packConfigured entry.1 entry.2

def packOptionals (tlvs : SmppTlvs) (smscId : Option Octstr) (pdu : SmppPdu size) :
    List Tlv.Frame :=
  match pdu.type.optional with
  | none => []
  | some options =>
    options.filterMap (packOptional pdu) ++ packDict tlvs smscId pdu.tlv

def packMandatories (pdu : SmppPdu size) : Octstr :=
  pdu.type.mandatory.flatMap (packMandatory (fixLengths pdu))

def smppPduPack (tlvs : SmppTlvs) (smscId : Option Octstr) (pdu : SmppPdu size) : Octstr :=
  let os := packMandatories pdu ++ (packOptionals tlvs smscId pdu).flatMap Tlv.Frame.octets
  encodedInteger (os.length + 4) 4 ++ os

def decodeInteger (os : Octstr) (pos octets : Nat) : Int :=
  if os.length < pos + octets then -1
  else toLong (BigEndian.value (octstrGetManyChars os pos octets))

def copyUntilNul (os : Octstr) (pos maxOctets : Nat) : Option (Option Octstr × Nat) :=
  match octstrSearchChar os 0 pos with
  | none => none
  | some nul =>
    if pos + maxOctets < nul then none
    else some (if nul - pos > 0 then some ((os.drop pos).take (nul - pos)) else none, nul + 1)

structure Unpacking where
  pos : Nat
  pdu : SmppPdu 2048

def unpackMandatory (data : Octstr) (s : Unpacking) : Mandatory → Except Failure Unpacking
  | .integer name octets =>
    let val := decodeInteger data s.pos octets
    if val = -1 then .error .invalid
    else .ok ⟨s.pos + octets, s.pdu.setInt name (toUlong val)⟩
  | .nulterminated name maxOctets =>
    match copyUntilNul data s.pos maxOctets with
    | some (val, pos) => .ok ⟨pos, s.pdu.setStr name val⟩
    | none => .ok ⟨s.pos, s.pdu.setStr name none⟩
  | .octets name fieldGivingOctets => do
    let len := s.pdu.int fieldGivingOctets
    let val ← octstrCopy data s.pos (toLong len)
    if len ≠ val.length then .error .invalid
    else return ⟨s.pos + len, s.pdu.setStr name (some val)⟩

def putTlv (tlv : Option SmppTlv) (val : Option Octstr) (pdu : SmppPdu 2048) : SmppPdu 2048 :=
  match tlv, pdu.tlv with
  | some tlv, some dict => { pdu with tlv := some (dictPut dict tlv.name val) }
  | _, _ => pdu

def readOptional (data : Octstr) (s : Unpacking) (optLen : Nat) (tlv : Option SmppTlv) :
    Optional → Except Failure Unpacking
  | .integer name octets =>
    if optLen > octets then .ok ⟨s.pos + optLen, s.pdu⟩
    else
      let val := decodeInteger data s.pos optLen
      if val = -1 then .error .invalid
      else .ok ⟨s.pos + optLen, putTlv tlv (some (formatDecimal val)) (s.pdu.setTlvInt name val)⟩
  | .nulterminated name maxLen =>
    if optLen > maxLen ∨ s.pos + optLen > data.length then .ok ⟨s.pos + optLen, s.pdu⟩
    else
      match copyUntilNul data s.pos optLen with
      | some (val, pos) => .ok ⟨pos, putTlv tlv val (s.pdu.setTlvStr name val)⟩
      | none => .ok ⟨s.pos, putTlv tlv none (s.pdu.setTlvStr name none)⟩
  | .octets name minLen maxLen =>
    if optLen < minLen ∨ optLen > maxLen ∨ s.pos + optLen > data.length then
      .ok ⟨s.pos + optLen, s.pdu⟩
    else do
      let val ← octstrCopy data s.pos optLen
      return ⟨s.pos + optLen, putTlv tlv (some val) (s.pdu.setTlvStr name (some val))⟩

def readConfigured (data : Octstr) (s : Unpacking) (optLen : Nat) (tlv : SmppTlv) :
    Except Failure Unpacking :=
  if optLen > toUlong tlv.length then .ok ⟨s.pos + optLen, s.pdu⟩
  else
    match tlv.type with
    | .integer =>
      let val := decodeInteger data s.pos optLen
      if val = -1 then .error .invalid
      else .ok ⟨s.pos + optLen, putTlv (some tlv) (some (formatDecimal val)) s.pdu⟩
    | .octets => do
      let val ← octstrCopy data s.pos optLen
      return ⟨s.pos + optLen, putTlv (some tlv) (some val) s.pdu⟩
    | .nulterminated =>
      match copyUntilNul data s.pos optLen with
      | some (val, pos) => .ok ⟨pos, putTlv (some tlv) val s.pdu⟩
      | none => .ok s

def optionalRound (tlvs : SmppTlvs) (smscId : Option Octstr) (options : List Optional)
    (data : Octstr) (s : Unpacking) : Except Failure Unpacking :=
  let optTag := (decodeInteger data s.pos 2).toNat
  let optLen := (decodeInteger data (s.pos + 2) 2).toNat
  let tlv := smppTlvGetByTag tlvs smscId optTag
  let s := { s with pos := s.pos + 4 }
  match options.find? (·.tag = optTag), tlv with
  | some option, tlv => readOptional data s optLen tlv option
  | none, some tlv => readConfigured data s optLen tlv
  | none, none => .ok ⟨s.pos + optLen, s.pdu⟩

def optionalLoop (tlvs : SmppTlvs) (smscId : Option Octstr) (options : List Optional)
    (data : Octstr) : Nat → Unpacking → Except Failure Unpacking
  | 0, s => .ok s
  | fuel+1, s =>
    if s.pos + 4 ≤ data.length then do
      let s ← optionalRound tlvs smscId options data s
      optionalLoop tlvs smscId options data fuel s
    else .ok s

def unpackMandatories (data : Octstr) (type : PduType) : Except Failure Unpacking :=
  type.mandatory.foldlM (unpackMandatory data) ⟨0, smppPduCreate type 0⟩

def smppPduUnpack (tlvs : SmppTlvs) (smscId : Option Octstr) (dataWithoutLen : Octstr) :
    Except Failure (SmppPdu 2048) :=
  if dataWithoutLen.length < 4 then .error .invalid
  else
    match PduType.ofId (toUlong (decodeInteger dataWithoutLen 0 4)) with
    | none => .error .invalid
    | some type => do
      let s ← unpackMandatories dataWithoutLen type
      match type.optional with
      | none => return s.pdu
      | some options => do
        let s ← optionalLoop tlvs smscId options dataWithoutLen dataWithoutLen.length s
        return s.pdu

end Kannel
