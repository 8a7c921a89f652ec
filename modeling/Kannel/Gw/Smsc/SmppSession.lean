import Kannel.Gw.Smsc.SmppMsg
import Kannel.Gwlib.Counter
import Kannel.Lib.Machine
import Kannel.Lib.MaxQueue

/-!
# The session of an SMPP link

`io_thread` binds, reads PDUs, sends messages and remembers them under their sequence numbers.
`pending_submits` counts the answers it waits for; `-1` says that the link is not bound. Timing
does not appear.
-/

namespace Kannel

inductive SmscStatus
  | connecting | active | activeRecv | reconnecting | disconnected
  deriving DecidableEq, Repr

inductive FailReason
  | shutdown | rejected | malformed | temporarily
  deriving DecidableEq, Repr

structure MsgObject where
  ref : Nat
  sms : Sms
  deriving DecidableEq

inductive Report
  | sent (msg : MsgObject)
  | failed (msg : MsgObject) (reason : FailReason)
  deriving DecidableEq

def Report.msg : Report → MsgObject
  | .sent msg => msg
  | .failed msg _ => msg

structure SmppSent where
  sentTime : Int
  msg : MsgObject
  deriving DecidableEq

inductive Phase
  | closed | opened | unbinding | broken
  deriving DecidableEq, Repr

structure SessionConf where
  link : SmppLink
  waitAck : Int
  waitAckAction : Int
  smppMsgIdType : Int
  retry : Bool

instance doubled_neZero {n : Nat} [NeZero n] : NeZero (n * 2) :=
  ⟨Nat.mul_ne_zero (NeZero.ne n) (by decide)⟩

structure Smpp (maxPendingSubmits : Nat) [NeZero maxPendingSubmits] where
  status : SmscStatus
  quitting : Bool
  pendingSubmits : Int
  msgsToSend : List MsgObject
  sentMsgs : Dict SmppSent (maxPendingSubmits * 2)
  messageIdCounter : Nat
  throttlingErrTime : Int
  phase : Phase
  queued : Nat
  numbered : Nat
  taken : List Nat
  reports : List Report

variable {maxPendingSubmits : Nat} [NeZero maxPendingSubmits]

def smppCreate (maxPendingSubmits : Nat) [NeZero maxPendingSubmits] : Smpp maxPendingSubmits where
  status := .connecting
  quitting := false
  pendingSubmits := -1
  msgsToSend := []
  sentMsgs := dictCreate SmppSent maxPendingSubmits
  messageIdCounter := 1
  throttlingErrTime := 0
  phase := .closed
  queued := 0
  numbered := 0
  taken := []
  reports := []

namespace Smpp

def isActive (s : Smpp maxPendingSubmits) : Bool := s.status = .active ∨ s.status = .activeRecv

def report (s : Smpp maxPendingSubmits) (r : Report) : Smpp maxPendingSubmits :=
  { s with reports := r :: s.reports }

def increaseMessageId (s : Smpp maxPendingSubmits) : Nat × Smpp maxPendingSubmits :=
  let (seq, counter) := counterIncreaseWith s.messageIdCounter 1
  (seq, { s with messageIdCounter := counter, numbered := s.numbered + 1 })

def lowerPriority (a b : MsgObject) : Bool :=
  a.sms.priority < b.sms.priority ∨ (a.sms.priority = b.sms.priority ∧ a.sms.time < b.sms.time)

def removeMsg (s : Smpp maxPendingSubmits) : Option (MsgObject × Smpp maxPendingSubmits) :=
  (MaxQueue.pop lowerPriority s.msgsToSend).map fun (msg, rest) =>
    (msg, { s with msgsToSend := rest, taken := msg.ref :: s.taken })

def seqKey (seq : Nat) : Octstr := formatDecimal (toLong seq)

def removeSent (s : Smpp maxPendingSubmits) (key : Octstr) :
    Option SmppSent × Smpp maxPendingSubmits :=
  let (sent, sentMsgs) := dictRemove s.sentMsgs key
  (sent, { s with sentMsgs := sentMsgs })

structure SendRound where
  limited : Bool
  env : SmppEnv
  written : Bool

def sendLoop (conf : SessionConf) (round : Nat → SendRound) :
    Nat → Smpp maxPendingSubmits → Except Stop (Bool × Smpp maxPendingSubmits)
  | 0, s => .ok (true, s)
  | fuel+1, s =>
    if s.pendingSubmits < maxPendingSubmits ∧ ¬ (round fuel).limited then
      match s.removeMsg with
      | none => .ok (true, s)
      | some (msg, s) => do
        let (seq, s) := s.increaseMessageId
        match ← msgToPdu (round fuel).env conf.link seq msg.sms with
        | none => sendLoop conf round fuel (s.report (.failed msg .malformed))
        | some out =>
          if (round fuel).written then
            sendLoop conf round fuel
              { s with
                sentMsgs := dictPut s.sentMsgs (seqKey (out.pdu.int .sequenceNumber))
                  (some ⟨(round fuel).env.now, msg⟩)
                pendingSubmits := s.pendingSubmits + 1 }
          else .ok (false, s.report (.failed msg .temporarily))
    else .ok (true, s)

def sendMessages (conf : SessionConf) (round : Nat → SendRound) (s : Smpp maxPendingSubmits) :
    Except Stop (Bool × Smpp maxPendingSubmits) :=
  if s.pendingSubmits = -1 then .ok (true, s) else sendLoop conf round s.msgsToSend.length s

def failureReasonOf (status : Nat) : FailReason :=
  -- `SMPP_ESME_RSYSERR`, `RMSGQFUL`, `RTHROTTLED` and `RX_T_APPN`
  if status = 0x08 ∨ status = 0x14 ∨ status = 0x58 ∨ status = 0x64 then .temporarily
  else .rejected

def throttlingAfter (now : Int) (status : Nat) : Int := if status = 0x58 then now else 0

def strtoll (text : Octstr) (base : Nat) : Int :=
  let signed := splitSign (text.dropWhile isspace)
  let digits := stripHexMark base signed.2
  max (-2 ^ 63) (min (2 ^ 63 - 1) (signed.1 * digitsValue base (digits.takeWhile (isDigitOf base))))

def messageIdOf (smppMsgIdType : Int) (messageId : Octstr) : Octstr :=
  if smppMsgIdType = -1 then messageId
  else
    let base := if fieldBits smppMsgIdType &&& 0x01 ≠ 0 ∨ ¬ messageId.all isdigit then 16 else 10
    formatDecimal (toUlong (strtoll (octstrGetCstr (some messageId)) base))

def smppRespGroup : CString := ⟨ascii "smpp_resp", by decide⟩

def withRespTlvs {size : Nat} [NeZero size] (pdu : SmppPdu size) (sms : Sms) : Sms :=
  let data := sms.metaData.getD []
  { sms with
    metaData := some (match pdu.tlv with
      | none => data
      | some tlv => (metaDataSetValues data tlv smppRespGroup true).2.1) }

def submitSmResp {size : Nat} [NeZero size] (conf : SessionConf) (now : Int) (pdu : SmppPdu size)
    (s : Smpp maxPendingSubmits) : Smpp maxPendingSubmits :=
  match s.removeSent (seqKey (pdu.int .sequenceNumber)) with
  | (none, s) => s
  | (some sent, s) =>
    let sms := withRespTlvs pdu sent.msg.sms
    let commandStatus := pdu.int .commandStatus
    let s := { s with pendingSubmits := s.pendingSubmits - 1 }
    if commandStatus ≠ 0 then
      { s with throttlingErrTime := throttlingAfter now commandStatus }.report
        (.failed ⟨sent.msg.ref, sms⟩ (failureReasonOf commandStatus))
    else
      match pdu.str .messageId with
      | some messageId =>
        let foreignId := some (messageIdOf conf.smppMsgIdType messageId)
        s.report (.sent ⟨sent.msg.ref, { sms with foreignId := foreignId }⟩)
      | none => s.report (.sent ⟨sent.msg.ref, sms⟩)

def genericNack {size : Nat} [NeZero size] (now : Int) (pdu : SmppPdu size)
    (s : Smpp maxPendingSubmits) : Smpp maxPendingSubmits :=
  match s.removeSent (seqKey (pdu.int .sequenceNumber)) with
  | (none, s) => s
  | (some sent, s) =>
    let commandStatus := pdu.int .commandStatus
    { s with
      throttlingErrTime := throttlingAfter now commandStatus
      pendingSubmits := s.pendingSubmits - 1 }.report
      (.failed sent.msg (failureReasonOf commandStatus))

def loginRejected (conf : SessionConf) (commandStatus : Nat) (s : Smpp maxPendingSubmits) :
    Smpp maxPendingSubmits :=
  -- `SMPP_ESME_RINVSYSID`, `RINVPASWD` and `RINVSYSTYP`
  let hopeless := commandStatus = 0x0F ∨ commandStatus = 0x0E ∨ commandStatus = 0x53
  { s with
    status := .disconnected
    quitting := s.quitting || (!conf.retry && hopeless) }

def loggedIn (commandStatus : Nat) : Bool :=
  -- `SMPP_ESME_RALYBND`
  commandStatus = 0 ∨ commandStatus = 0x05

def handlePdu {size : Nat} [NeZero size] (conf : SessionConf) (now : Int) (written : Bool)
    (pdu : SmppPdu size) (s : Smpp maxPendingSubmits) : Bool × Smpp maxPendingSubmits :=
  match pdu.type with
  | .dataSm | .deliverSm | .enquireLink => if s.isActive then (written, s) else (true, s)
  | .enquireLinkResp => (true, s)
  | .submitSmResp =>
    if s.status = .active then (true, s.submitSmResp conf now pdu) else (true, s)
  | .bindTransmitterResp | .bindTransceiverResp =>
    if s.isActive then (true, s)
    else if loggedIn (pdu.int .commandStatus) then
      (true, { s with pendingSubmits := 0, status := .active })
    else (true, s.loginRejected conf (pdu.int .commandStatus))
  | .bindReceiverResp =>
    if s.isActive then (true, s)
    else if loggedIn (pdu.int .commandStatus) then (true, { s with status := .activeRecv })
    else (true, s.loginRejected conf (pdu.int .commandStatus))
  | .unbind =>
    if s.isActive then (written, { s with status := .disconnected, pendingSubmits := -1 })
    else (true, s)
  | .unbindResp => if s.isActive then (true, { s with status := .disconnected }) else (true, s)
  | .genericNack => if s.isActive then (true, s.genericNack now pdu) else (true, s)
  | _ => (written, s)

def waitackReconnect : Int := 0x00

def waitackRequeue : Int := 0x01

def waitackNeverExpire : Int := 0x02

def cleanupLoop (conf : SessionConf) (now : Int) :
    List Octstr → Smpp maxPendingSubmits → Bool × Smpp maxPendingSubmits
  | [], s => (false, s)
  | key :: keys, s =>
    match dictGet s.sentMsgs key with
    | none => cleanupLoop conf now keys s
    | some sent =>
      if now - sent.sentTime > conf.waitAck then
        if conf.waitAckAction = waitackReconnect then (true, s)
        else if conf.waitAckAction = waitackRequeue then
          match s.removeSent key with
          | (none, s) => cleanupLoop conf now keys s
          | (some sent, s) =>
            cleanupLoop conf now keys
              ({ s with pendingSubmits := s.pendingSubmits - 1 }.report
                (.failed sent.msg .temporarily))
        else (false, s)
      else cleanupLoop conf now keys s

def doQueueCleanup (conf : SessionConf) (now : Int) (s : Smpp maxPendingSubmits) :
    Bool × Smpp maxPendingSubmits :=
  if s.pendingSubmits ≤ 0 ∨ conf.waitAckAction = waitackNeverExpire then (false, s)
  else cleanupLoop conf now (dictKeys s.sentMsgs) s

def flushMsgs (reason : FailReason) (s : Smpp maxPendingSubmits) : Smpp maxPendingSubmits :=
  let msgs := MaxQueue.popAll lowerPriority s.msgsToSend.length s.msgsToSend
  msgs.foldl
    (fun s msg => { s with taken := msg.ref :: s.taken }.report (.failed msg reason))
    { s with msgsToSend := [] }

def flushKey (reason : FailReason) (s : Smpp maxPendingSubmits) (key : Octstr) :
    Smpp maxPendingSubmits :=
  match s.removeSent key with
  | (none, s) => s
  | (some sent, s) => s.report (.failed sent.msg reason)

def flush (s : Smpp maxPendingSubmits) : Smpp maxPendingSubmits :=
  let s := if s.quitting then s else { s with status := .reconnecting }
  let reason := if s.quitting then FailReason.shutdown else .temporarily
  let s := s.flushMsgs reason
  (dictKeys s.sentMsgs).foldl (flushKey reason) s

end Smpp

inductive SessionAction
  | queue (sms : Sms)
  | shutdown
  | connect (connected written : Bool)
  | pdu (now : Int) (written : Bool) (pdu : SmppPdu 2048)
  | wrongLength (written : Bool)
  | lose
  | enquireLink (written : Bool)
  | cleanup (now : Int)
  | send (now : Int) (round : Nat → Smpp.SendRound)
  | unbind (written : Bool)
  | flush

namespace Smpp

def leave (s : Smpp maxPendingSubmits) : Smpp maxPendingSubmits := { s with phase := .broken }

def leaveIf (c : Bool) (s : Smpp maxPendingSubmits) : Smpp maxPendingSubmits :=
  if c then s.leave else s

def numberAndWrite (written : Bool) (s : Smpp maxPendingSubmits) : Smpp maxPendingSubmits :=
  (s.increaseMessageId.2).leaveIf (!written)

def loopStep (conf : SessionConf) (s : Smpp maxPendingSubmits) :
    SessionAction → Option (Smpp maxPendingSubmits)
  | .pdu now written pdu =>
    let (ok, s) := s.handlePdu conf now written pdu
    some (s.leaveIf (!ok || s.status = .disconnected))
  | .wrongLength written => some (s.leaveIf (!written))
  | .lose => some s.leave
  | .enquireLink written => if s.isActive then some (s.numberAndWrite written) else none
  | .cleanup now =>
    let (reconnect, s) := s.doQueueCleanup conf now
    some (s.leaveIf reconnect)
  | .send now round =>
    -- `SMPP_THROTTLING_SLEEP_TIME`
    if now - s.throttlingErrTime > 1 then
      match { s with throttlingErrTime := 0 }.sendMessages conf round with
      | .error _ => none
      | .ok (ok, s) => some (s.leaveIf (!ok))
    else some s
  | .unbind written =>
    if s.quitting then
      if s.isActive then some ({ s with phase := .unbinding }.numberAndWrite written)
      else some s.leave
    else none
  | _ => none

def unbindingStep (conf : SessionConf) (s : Smpp maxPendingSubmits) :
    SessionAction → Option (Smpp maxPendingSubmits)
  | .pdu now written pdu =>
    let (_, s) := s.handlePdu conf now written pdu
    some (s.leaveIf (!s.isActive))
  | .lose => some s.leave
  | _ => none

end Smpp

def sessionStep (conf : SessionConf) (s : Smpp maxPendingSubmits) (action : SessionAction) :
    Option (Smpp maxPendingSubmits) :=
  match action, s.phase with
  | .queue sms, _ =>
    some { s with msgsToSend := s.msgsToSend ++ [⟨s.queued, sms⟩], queued := s.queued + 1 }
  | .shutdown, _ => some { s with quitting := true }
  | .connect connected written, .closed =>
    if s.quitting then none
    else
      let s := { s with pendingSubmits := -1, phase := .opened }
      if connected then some (s.numberAndWrite written) else some s.leave
  | .flush, .broken => some { s.flush with phase := .closed }
  | action, .opened => s.loopStep conf action
  | action, .unbinding => s.unbindingStep conf action
  | _, _ => none

end Kannel
