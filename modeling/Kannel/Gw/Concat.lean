import Kannel.Gw.StoreFile

/-!
# Reassembling incoming messages

`concat_handling_check_and_handle` files a part under its addresses, reference and header, and
joins the parts when the last has arrived. Reading behind a shorter array is `outside`.
-/

namespace Kannel

structure ConcatMsg where
  refnum : Int
  totalParts : Nat
  numParts : Int
  udh : Octstr
  trecv : Nat
  key : Octstr
  ack : AckStatus
  parts : List (Option Sms)
  smscId : Octstr
  parts_len : parts.length = totalParts

inductive ConcatReturn
  | error | complete | pending | none
  deriving DecidableEq, Repr

def charAt (ostr : Octstr) (pos : Nat) : Int :=
  match octstrGetChar ostr pos with
  | some c => c.toNat
  | none => -1

structure ElementWalk where
  pos : Nat
  c : Int
  iel : Nat

def walkElements (udh : Octstr) : Nat → ElementWalk → ElementWalk
  | 0, w => w
  | fuel+1, w =>
    if w.pos < udh.length - 1 then
      let iel := (charAt udh (w.pos + 1)).toNat
      let c := charAt udh w.pos
      if c = 0 ∨ c = 8 then { w with c := c, iel := iel }
      else walkElements udh fuel { pos := w.pos + (iel + 2), c := c, iel := iel }
    else w

structure ConcatInfo where
  refnum : Int
  totalParts : Nat
  part : Nat
  udh : Octstr
  part_pos : 1 ≤ part
  part_le : part ≤ totalParts

def extractUdh (udhdata : Octstr) (pos iel : Nat) : Octstr :=
  let udh := octstrDelete udhdata pos (iel + 2)
  if udh.length ≤ 1 then octstrDelete udh 0 udh.length
  else octstrSetChar udh 0 (udh.length - 1)

def concatInfo (udhdata : Octstr) : Option ConcatInfo :=
  let w := walkElements udhdata udhdata.length { pos := 1, c := -1, iel := 0 }
  if w.pos ≥ udhdata.length then none
  else
    let sixteenbit := if w.c = 8 then 1 else 0
    let refnum :=
      if w.c = 8 then charAt udhdata (w.pos + 2) * 256 + charAt udhdata (w.pos + 3)
      else charAt udhdata (w.pos + 2)
    let totalparts := charAt udhdata (w.pos + 3 + sixteenbit)
    let part := charAt udhdata (w.pos + 4 + sixteenbit)
    if h : part < 1 ∨ part > totalparts then none
    else
      some
        { refnum := refnum
          totalParts := totalparts.toNat
          part := part.toNat
          udh := extractUdh udhdata w.pos w.iel
          part_pos := by omega
          part_le := by omega }

def concatKey (msg : Sms) (smscid : Octstr) (info : ConcatInfo) : Octstr :=
  let quote (text : Octstr) : Octstr := 39 :: text ++ [39]
  [32].intercalate
    [quote (formatString msg.sender), quote (formatString msg.receiver), quote smscid,
      quote (formatDecimal info.refnum), quote (formatDecimal info.totalParts),
      quote (octstrBinaryToHex info.udh)]

def newConcatMsg (info : ConcatInfo) (key smscid : Octstr) : ConcatMsg where
  refnum := info.refnum
  totalParts := info.totalParts
  numParts := 0
  udh := info.udh
  trecv := 0
  key := key
  ack := .success
  parts := List.replicate info.totalParts none
  smscId := smscid
  parts_len := List.length_replicate

def ConcatMsg.enter (cmsg : ConcatMsg) (part : Nat) (msg : Sms) (now : Nat) : ConcatMsg :=
  { cmsg with
    numParts := cmsg.numParts + 1
    trecv := now
    parts := cmsg.parts.set (part - 1) (some msg)
    parts_len := by rw [List.length_set, cmsg.parts_len] }

def appendParts : Option Octstr → List (Option Sms) → Except Failure (Option Octstr)
  | msgdata, [] => .ok msgdata
  | _, none :: _ => .error .outside
  | none, some _ :: _ => .error .assertion
  | some msgdata, some part :: parts => appendParts (some (msgdata ++ part.msgdata.getD [])) parts

def joinParts (entropy : Entropy) : List (Option Sms) → Except Failure Sms
  | some first :: parts => do
    let msgdata ← appendParts first.msgdata parts
    return { first with id := uuidGenerate entropy, msgdata := msgdata }
  | _ => .error .outside

/-- The return value, the message left in `*pmsg`, and those given to `store_save` and
`store_save_ack`. -/
structure ConcatOutcome where
  ret : ConcatReturn
  pmsg : Option Sms
  saved : Option Sms
  acked : List (Sms × AckStatus)
  deriving DecidableEq

def ConcatOutcome.untouched (msg : Sms) : ConcatOutcome := ⟨.none, some msg, none, []⟩

variable {size : Nat} [NeZero size]

def destroyConcatMsg (cmsg : ConcatMsg) : List (Sms × AckStatus) :=
  (cmsg.parts.filterMap id).map fun part => (part, cmsg.ack)

def completeConcatMsg (env : Surroundings) (storeSave : Sms → Bool) (table : Dict ConcatMsg size)
    (key : Octstr) (cmsg : ConcatMsg) : Except Failure (ConcatOutcome × Dict ConcatMsg size) := do
  let msg ← joinParts env.entropy cmsg.parts
  let msg := stamp env msg
  let table := dictPut table key (some cmsg)
  if storeSave msg then
    let whole := { msg with udhdata := some cmsg.udh }
    return (⟨.complete, some whole, some msg, destroyConcatMsg cmsg⟩, dictPut table cmsg.key none)
  else return (⟨.error, none, some msg, []⟩, table)

def fileConcatPart (env : Surroundings) (storeSave : Sms → Bool) (table : Dict ConcatMsg size)
    (msg : Sms) (smscid : Octstr) (info : ConcatInfo) :
    Except Failure (ConcatOutcome × Dict ConcatMsg size) :=
  let key := concatKey msg smscid info
  let cmsg := (dictGet table key).getD (newConcatMsg info key smscid)
  match cmsg.parts[info.part - 1]? with
  | none => .error .outside
  | some (some _) => .ok (⟨.pending, none, none, [(msg, .success)]⟩, table)
  | some none =>
    let cmsg := cmsg.enter info.part msg env.now
    if cmsg.numParts < cmsg.totalParts then
      .ok (⟨.pending, none, none, []⟩, dictPut table key (some cmsg))
    else completeConcatMsg env storeSave table key cmsg

structure ConcatState (size : Nat) [NeZero size] where
  handleConcatenatedMo : Bool
  incomingConcatMsgs : Option (Dict ConcatMsg size)

def concatHandlingCheckAndHandle (env : Surroundings) (storeSave : Sms → Bool)
    (state : ConcatState size) (msg : Sms) (smscid : Option Octstr) :
    Except Failure (ConcatOutcome × ConcatState size) :=
  match state.incomingConcatMsgs, msg.udhdata.bind concatInfo, smscid with
  | some table, some info, some smscid =>
    if state.handleConcatenatedMo then do
      let (outcome, table) ← fileConcatPart env storeSave table msg smscid info
      return (outcome, { state with incomingConcatMsgs := some table })
    else .ok (.untouched msg, state)
  | _, _, _ => .ok (.untouched msg, state)

end Kannel
