import Kannel.Addons.RabbitMqBox
import Kannel.Gw.BbBoxcReceiver
import Kannel.Lib.Machine

/-!
# The reader thread of rabbitmqbox

`reader_thread` publishes what it reads but never answers; the bearerbox keeps a message, and a
permit of it, until it is acknowledged.
-/

namespace Kannel
open Machine Boxc

def hasConcatUdh (msg : Sms) : Option (Nat × Nat × Nat) :=
  match msg.udhdata with
  | some (0x05 :: 0x00 :: 0x03 :: ref :: total :: part :: _) =>
    some (ref.toNat, total.toNat, part.toNat)
  | some (0x06 :: 0x08 :: 0x04 :: high :: low :: total :: part :: _) =>
    some (high.toNat <<< 8 ||| low.toNat, total.toNat, part.toNat)
  | _ => none

structure MultipartMsg where
  parts : List Sms
  created : Int
  total : Nat

def textOfPart (parts : List Sms) (number : Nat) : Option (Option Octstr) :=
  (parts.find? fun part => (hasConcatUdh part).any fun udh => udh.2.2 = number).map (·.msgdata)

def assembleLoop (parts : List Sms) (total : Nat) : (left : Nat) → Octstr → Option Octstr
  | 0, msgdata => some msgdata
  | left + 1, msgdata =>
    match textOfPart parts (total - left) with
    | some text => assembleLoop parts total left (msgdata ++ text.getD [])
    | none => none

def assembleMultipart (mp : MultipartMsg) (entropy : Entropy) : Except Failure (Option Sms) :=
  match mp.parts with
  | [] => .ok none
  | first :: _ =>
    if mp.total ≠ 0 ∧ first.msgdata = none ∧ (textOfPart mp.parts 1).isSome then .error .assertion
    else .ok ((assembleLoop mp.parts mp.total mp.total []).map fun msgdata =>
      { first with
        id := uuidGenerate entropy
        udhdata := none
        msgdata := first.msgdata.map fun _ => msgdata })

instance multipart_neZero : NeZero (64 * 2) := ⟨by decide⟩

abbrev MultipartStore := Dict MultipartMsg (64 * 2)

structure ReaderConf where
  disableMultipartCatenation : Bool
  multipartTimeout : Int

def handleMultipartMo (conf : ReaderConf) (store : MultipartStore) (msg : Sms) (now : Int)
    (entropy : Entropy) : Except Failure (Option Sms × MultipartStore) :=
  if conf.disableMultipartCatenation then .ok (some msg, store)
  else match hasConcatUdh msg with
    | none => .ok (some msg, store)
    | some (ref, total, _) => do
      let key := formatString msg.sender ++ [45] ++ formatDecimal ref
      let mp := (dictGet store key).getD ⟨[], now, total⟩
      let mp := { mp with parts := mp.parts ++ [msg] }
      if mp.parts.length = mp.total then
        return (← assembleMultipart mp entropy, (dictRemove store key).2)
      else return (none, dictPut store key (some mp))

def cleanupExpiredMultipart (conf : ReaderConf) (store : MultipartStore) (now : Int) :
    MultipartStore :=
  (dictKeys store).foldl
    (fun store key =>
      match dictGet store key with
      | some mp =>
        if now - mp.created > conf.multipartTimeout then (dictRemove store key).2 else store
      | none => store)
    store

inductive BoxMessage
  | sms (msg : Sms)
  | admin (restart : Bool)

structure RmqOutcome where
  connected : Bool
  reconnected : Bool
  accepted : Bool
  now : Int
  entropy : Entropy

structure RmqReader where
  boxRunning : Bool
  boxRestart : Bool
  multipartStore : MultipartStore
  published : List (PublishedAs × Octstr)
  written : List Ack

def publish (outcome : RmqOutcome) (queue : PublishedAs) (json : Octstr) (reader : RmqReader) :
    RmqReader :=
  if ¬ outcome.connected ∧ ¬ outcome.reconnected then reader
  else if outcome.accepted then
    { reader with published := reader.published ++ [(queue, json)] }
  else reader

def moType : Int := 0

def readMessage (conf : ReaderConf) (outcome : RmqOutcome) (reader : RmqReader) :
    BoxMessage → RmqReader
  | .sms msg =>
    if msg.smsType = moType then
      match handleMultipartMo conf reader.multipartStore msg outcome.now outcome.entropy with
      | .error _ => { reader with boxRunning := false }
      | .ok (none, store) => { reader with multipartStore := store }
      | .ok (some assembled, store) =>
        publish outcome .mo (msgToJson assembled .mo outcome.now)
          { reader with multipartStore := store }
    else if msg.smsType = reportMo then
      publish outcome .dlr (msgToJson msg .dlr outcome.now) reader
    else reader
  | .admin restart =>
    { reader with boxRunning := false, boxRestart := reader.boxRestart || restart }

theorem written_readMessage (conf : ReaderConf) (outcome : RmqOutcome) (reader : RmqReader)
    (message : BoxMessage) :
    (readMessage conf outcome reader message).written = reader.written := by
  have hpublish : ∀ queue json (reader : RmqReader),
      (publish outcome queue json reader).written = reader.written := by
    intro queue json reader
    unfold publish
    split_ifs <;> rfl
  cases message with
  | admin restart => rfl
  | sms msg =>
    simp only [readMessage]
    by_cases hmo : msg.smsType = moType
    · rw [if_pos hmo]
      split
      · rfl
      · rfl
      · exact hpublish _ _ _
    · rw [if_neg hmo]
      by_cases hreport : msg.smsType = reportMo
      · rw [if_pos hreport]
        exact hpublish _ _ _
      · rw [if_neg hreport]

def ackFailedTmp : Int := 2

/-- The bearerbox's end with its store, what is on the way, and the reader. `acksRead` counts
the acknowledgements read, `delivered` are the ids of what was published. -/
structure RmqSystem where
  conn : Boxc
  store : List Uuid
  wire : List BoxMessage
  acksRead : Nat
  reader : RmqReader
  read : List Sms
  delivered : List Uuid

inductive RmqAction
  | arrive (msg : Sms)
  | endProducing
  | sender (restart : Bool)
  | receiveAck | receiver
  | read (outcome : RmqOutcome)
  | timeout (now : Int)
  | stop (restart : Bool)

namespace RmqSystem

def start (maxPending : Nat) : RmqSystem where
  conn := opened maxPending
  store := []
  wire := []
  acksRead := 0
  reader := ⟨true, false, dictCreate MultipartMsg 64, [], []⟩
  read := []
  delivered := []

def onWire (conn conn' : Boxc) (restart : Bool) : List BoxMessage :=
  match conn.sender, conn'.sender with
  | .sending msg, .idle => [.sms msg]
  | .waiting, .left => [.admin restart]
  | _, _ => []

def readFrom (conf : ReaderConf) (s : RmqSystem) (outcome : RmqOutcome) (message : BoxMessage)
    (rest : List BoxMessage) : RmqSystem :=
  let reader := readMessage conf outcome s.reader message
  let msgs := match message with
    | .sms msg => [msg]
    | .admin _ => []
  { s with
    wire := rest
    reader := reader
    read := s.read ++ msgs
    delivered :=
      if reader.published.length ≠ s.reader.published.length then s.delivered ++ msgs.map (·.id)
      else s.delivered }

def step (conf : ReaderConf) (maxPending : Nat) (s : RmqSystem) (a : RmqAction) :
    Option RmqSystem :=
  if s.reader.boxRunning = false then none
  else match a with
    | .arrive msg =>
      some { s with
        store := s.store ++ [msg.id]
        conn := { s.conn with incoming := s.conn.incoming ++ [msg] } }
    | .endProducing => some { s with conn := { s.conn with producing := false } }
    | .sender restart => do
      let (conn, given) ← s.conn.senderStep false true
      some { s with
        conn := { conn with incoming := conn.incoming ++ given }
        wire := s.wire ++ onWire s.conn conn restart }
    | .receiveAck => do
      let ack ← s.reader.written[s.acksRead]?
      let (conn, settled) ← s.conn.acknowledge ack.id (ack.nack = ackFailedTmp)
      some { s with
        conn := conn
        acksRead := s.acksRead + 1
        store := s.store.filter fun id => id ∉ settled }
    | .receiver => do
      let (conn, given) ← s.conn.receiverStep maxPending false
      some { s with conn := { conn with incoming := conn.incoming ++ given } }
    | .read outcome =>
      match s.wire with
      | message :: rest => some (s.readFrom conf outcome message rest)
      | [] => none
    | .timeout now =>
      some { s with reader := { s.reader with
        multipartStore := cleanupExpiredMultipart conf s.reader.multipartStore now } }
    | .stop restart =>
      some { s with reader := { s.reader with
        boxRunning := false, boxRestart := s.reader.boxRestart || restart } }

section Property
variable (conf : ReaderConf) (maxPending : Nat)

def Answered (s : RmqSystem) : Prop :=
  ∀ id, (s.reader.written.map (·.id)).count id = (s.read.map (·.id)).count id

def BlockedForEver (s : RmqSystem) : Prop :=
  s.reader.boxRunning = true ∧ ∃ msg, s.conn.sender = .pushing msg ∧
    ∀ trace s', Run (step conf maxPending) s trace s' → s'.conn.sender = .pushing msg

def StaysStored (s : RmqSystem) (id : Uuid) : Prop :=
  ∀ trace s', Run (step conf maxPending) s trace s' → id ∈ s'.store

/-- Every message is answered, the sender is not blocked for ever, and what is published
does not stay in the store. -/
def Served (s : RmqSystem) : Prop :=
  s.Answered ∧ ¬ s.BlockedForEver conf maxPending ∧
    ∀ id ∈ s.delivered, ¬ s.StaysStored conf maxPending id

end Property

def ReadsMessage (s : RmqSystem) : RmqAction → Prop
  | .read _ => ∃ msg rest, s.wire = .sms msg :: rest
  | _ => False

def GoesBeyond (s : RmqSystem) : RmqAction → Prop
  | .sender _ => ∃ msg, s.conn.sender = .taken msg ∧ s.conn.pending = 0
  | _ => False

structure Silent (s : RmqSystem) : Prop where
  written : s.reader.written = []
  reading : s.conn.receiver = .reading
  alive : s.conn.alive = true

variable {conf : ReaderConf} {maxPending : Nat} {s s' : RmqSystem}

theorem step_running {a : RmqAction} (h : s.step conf maxPending a = some s') :
    s.reader.boxRunning = true := by
  unfold step at h
  split_ifs at h with hstopped
  simpa using hstopped

inductive Move (conf : ReaderConf) (s : RmqSystem) : RmqAction → RmqSystem → Prop
  | arrive (msg : Sms) :
      Move conf s (.arrive msg) { s with
        store := s.store ++ [msg.id]
        conn := { s.conn with incoming := s.conn.incoming ++ [msg] } }
  | endProducing : Move conf s .endProducing { s with conn := { s.conn with producing := false } }
  | sender {conn : Boxc} {given : List Sms} (restart : Bool)
      (h : s.conn.senderStep false true = some (conn, given)) :
      Move conf s (.sender restart) { s with
        conn := { conn with incoming := conn.incoming ++ given }
        wire := s.wire ++ onWire s.conn conn restart }
  | read {message : BoxMessage} {rest : List BoxMessage} (outcome : RmqOutcome)
      (h : s.wire = message :: rest) :
      Move conf s (.read outcome) (s.readFrom conf outcome message rest)
  | timeout (now : Int) :
      Move conf s (.timeout now) { s with reader := { s.reader with
        multipartStore := cleanupExpiredMultipart conf s.reader.multipartStore now } }
  | stop (restart : Bool) :
      Move conf s (.stop restart) { s with reader := { s.reader with
        boxRunning := false, boxRestart := s.reader.boxRestart || restart } }

theorem Move.of_step {a : RmqAction} (hs : s.Silent) (h : s.step conf maxPending a = some s') :
    Move conf s a s' := by
  have hrunning := step_running h
  unfold step at h
  rw [if_neg (by simp [hrunning])] at h
  cases a with
  | arrive msg =>
    cases h
    exact .arrive msg
  | endProducing =>
    cases h
    exact .endProducing
  | sender restart =>
    obtain ⟨⟨conn, given⟩, hstep, h⟩ := Option.bind_eq_some_iff.mp h
    cases h
    exact .sender restart hstep
  | receiveAck =>
    obtain ⟨ack, hack, h⟩ := Option.bind_eq_some_iff.mp h
    rw [hs.written] at hack
    cases hack
  | receiver =>
    obtain ⟨⟨conn, given⟩, hstep, h⟩ := Option.bind_eq_some_iff.mp h
    simp [receiverStep, hs.reading, hs.alive] at hstep
  | read outcome =>
    dsimp only at h
    split at h
    · rename_i hwire
      cases h
      exact .read outcome hwire
    · cases h
  | timeout now =>
    cases h
    exact .timeout now
  | stop restart =>
    cases h
    exact .stop restart

section Silence
variable {conf : ReaderConf} {maxPending : Nat} {s s' : RmqSystem} {a : RmqAction}

theorem Move.silent (h : Move conf s a s') (hs : s.Silent) : s'.Silent := by
  cases h with
  | arrive | endProducing | timeout | stop => exact ⟨hs.written, hs.reading, hs.alive⟩
  | sender restart hstep =>
    obtain ⟨hreceiver, halive, -⟩ := (SenderMove.of_senderStep hstep).frame
    exact ⟨hs.written, hreceiver.trans hs.reading, halive.trans hs.alive⟩
  | read outcome =>
    refine ⟨?_, hs.reading, hs.alive⟩
    exact (written_readMessage conf outcome s.reader _).trans hs.written

theorem silent_start (maxPending : Nat) : (start maxPending).Silent := ⟨rfl, rfl, rfl⟩

theorem Move.blocked {msg : Sms} (h : Move conf s a s') (hpushing : s.conn.sender = .pushing msg)
    (hpermits : s.conn.pending = 0) :
    s'.conn.sender = .pushing msg ∧ s'.conn.pending = 0 := by
  cases h with
  | arrive | endProducing | timeout | stop | read => exact ⟨hpushing, hpermits⟩
  | sender restart hstep => simp [senderStep, hpushing, hpermits] at hstep

theorem Move.stored {id : Uuid} (h : Move conf s a s') (hmem : id ∈ s.store) : id ∈ s'.store := by
  cases h with
  | arrive => exact List.mem_append_left _ hmem
  | endProducing | timeout | stop | read | sender => exact hmem

theorem blockedForEver_of_blocked {msg : Sms} (hs : s.Silent)
    (hrunning : s.reader.boxRunning = true) (hpushing : s.conn.sender = .pushing msg)
    (hpermits : s.conn.pending = 0) : s.BlockedForEver conf maxPending := by
  refine ⟨hrunning, msg, hpushing, ?_⟩
  intro trace s' hrun
  have hall := hrun.invariant
    (I := fun s => s.Silent ∧ s.conn.sender = .pushing msg ∧ s.conn.pending = 0)
    ⟨hs, hpushing, hpermits⟩ ?_
  · exact hall.2.1
  · rintro s a s' ⟨hs, hpushing, hpermits⟩ h
    have hmove := Move.of_step hs h
    exact ⟨hmove.silent hs, hmove.blocked hpushing hpermits⟩

theorem staysStored_of_mem {id : Uuid} (hs : s.Silent) (hmem : id ∈ s.store) :
    s.StaysStored conf maxPending id := by
  intro trace s' hrun
  have hall := hrun.invariant (I := fun s => s.Silent ∧ id ∈ s.store) ⟨hs, hmem⟩ ?_
  · exact hall.2
  · rintro s a s' ⟨hs, hmem⟩ h
    have hmove := Move.of_step hs h
    exact ⟨hmove.silent hs, hmove.stored hmem⟩

theorem silent_of_run {trace : List (RmqSystem × RmqAction)}
    (hrun : Run (step conf maxPending) (start maxPending) trace s) : s.Silent :=
  hrun.invariant (silent_start maxPending) fun _ _ _ hs h => (Move.of_step hs h).silent hs

structure Unread (s : RmqSystem) : Prop extends s.Silent where
  read : s.read = []
  delivered : s.delivered = []
  permit : ∀ msg, s.conn.sender = .pushing msg → 0 < s.conn.pending

theorem Unread.served (hs : s.Unread) : s.Served conf maxPending := by
  refine ⟨?_, ?_, ?_⟩
  · intro id
    rw [hs.written, hs.read]
    rfl
  · rintro ⟨hrunning, msg, hpushing, hever⟩
    have hpermit := hs.permit msg hpushing
    obtain ⟨s', hstep, hsender⟩ : ∃ s', s.step conf maxPending (.sender false) = some s' ∧
        s'.conn.sender = .sending msg := by
      unfold step
      rw [if_neg (by simp [hrunning])]
      simp [senderStep, hpushing, hpermit]
    have hagain := hever _ s' (Run.start.next hstep)
    rw [hsender] at hagain
    cases hagain
  · rw [hs.delivered]
    intro id hid
    cases hid

theorem permit_sender {conn conn' : Boxc} {given : List Sms} (h : SenderMove false conn conn' given)
    (hbeyond : ∀ msg, conn.sender = .taken msg → conn.pending ≠ 0) :
    ∀ msg, conn'.sender = .pushing msg → 0 < conn'.pending := by
  intro msg hpushing
  cases h with
  | leave | wait | consume | finish | down | write | fail | remove | missing | up | giveBack =>
    cases hpushing
  | put h =>
    cases hpushing
    exact Nat.pos_of_ne_zero (hbeyond msg h)

theorem Move.unread (h : Move conf s a s') (hs : s.Unread) (hreads : ¬ s.ReadsMessage a)
    (hbeyond : ¬ s.GoesBeyond a) : s'.Unread := by
  have hsilent := h.silent hs.toSilent
  cases h with
  | arrive | endProducing | timeout | stop => exact ⟨hsilent, hs.read, hs.delivered, hs.permit⟩
  | sender restart hstep =>
    have hpermit := permit_sender (SenderMove.of_senderStep hstep)
      fun msg htaken hpermits => hbeyond ⟨msg, htaken, hpermits⟩
    exact ⟨hsilent, hs.read, hs.delivered, hpermit⟩
  | @read message rest outcome hwire =>
    cases message with
    | sms msg => exact absurd ⟨msg, rest, hwire⟩ hreads
    | admin restart =>
      refine ⟨hsilent, ?_, ?_, hs.permit⟩
      · simp [readFrom, hs.read]
      · simp [readFrom, readMessage, hs.delivered]

theorem Move.not_answered (h : Move conf s a s') (hs : s.Unread) (hreads : s.ReadsMessage a) :
    ¬ s'.Answered := by
  have hsilent := h.silent hs.toSilent
  cases h with
  | arrive | endProducing | sender | timeout | stop => cases hreads
  | read outcome hwire =>
    obtain ⟨msg, rest, hsms⟩ := hreads
    cases hwire.symm.trans hsms
    intro hanswered
    have hcount := hanswered msg.id
    rw [hsilent.written] at hcount
    simp [readFrom, hs.read] at hcount

theorem Move.goesBeyond (h : Move conf s a s') (hs : s.Silent) (hbeyond : s.GoesBeyond a)
    (hrunning : s.reader.boxRunning = true) : s'.BlockedForEver conf maxPending := by
  have hsilent := h.silent hs
  cases h with
  | arrive | endProducing | read | timeout | stop => cases hbeyond
  | sender restart hstep =>
    obtain ⟨msg, htaken, hpermits⟩ := hbeyond
    simp only [senderStep, htaken, Option.some.injEq, Prod.mk.injEq] at hstep
    obtain ⟨rfl, rfl⟩ := hstep
    exact blockedForEver_of_blocked hsilent hrunning rfl hpermits

end Silence

/-- **The reader serves the bearerbox** throughout a run exactly if it reads no message and the
sender enters none when its permits are used up. -/
theorem served_throughout_iff {conf : ReaderConf} {maxPending : Nat} {s : RmqSystem}
    {trace : List (RmqSystem × RmqAction)}
    (hrun : Run (step conf maxPending) (start maxPending) trace s) :
    ((∀ p ∈ trace, p.1.Served conf maxPending) ∧ s.Served conf maxPending) ↔
      ∀ p ∈ trace, ¬ p.1.ReadsMessage p.2 ∧ ¬ p.1.GoesBeyond p.2 := by
  apply hrun.throughout_iff_of_invariant (I := Unread) (P := fun s => s.Served conf maxPending)
    (C := fun s a => ¬ s.ReadsMessage a ∧ ¬ s.GoesBeyond a)
  · exact ⟨silent_start maxPending, rfl, rfl, fun msg h => nomatch h⟩
  · exact fun s hs => hs.served
  · exact fun s a s' hs hC h => (Move.of_step hs.toSilent h).unread hs hC.1 hC.2
  · rintro s a s' hs hC h ⟨hanswered, hblocked, -⟩
    have hmove := Move.of_step hs.toSilent h
    rw [not_and_or, not_not, not_not] at hC
    rcases hC with hreads | hbeyond
    · exact hmove.not_answered hs hreads hanswered
    · exact hblocked (hmove.goesBeyond hs.toSilent hbeyond (step_running h))

def incomingMsg (octet : UInt8) : Sms :=
  { smsCreate ⟨List.replicate 16 octet, List.length_replicate⟩ with
    smsType := moType, msgdata := some (ascii "hello") }

def plainConf : ReaderConf := ⟨false, 300⟩

def oneWritten : List RmqAction :=
  [.arrive (incomingMsg 1), .sender false, .sender false, .sender false, .sender false,
    .sender false, .timeout 0]

theorem oneWritten_served : ∃ trace s, Run (step plainConf 2) (start 2) trace s ∧
    s.Served plainConf 2 ∧ s.wire.length = 1 := by
  obtain ⟨trace, s, hrun, hsteps, hwire⟩ : ∃ trace s, Run (step plainConf 2) (start 2) trace s ∧
      (∀ p ∈ trace, (match p.2 with
        | .read _ => false
        | _ => decide (p.1.conn.pending ≠ 0)) = true) ∧ s.wire.length = 1 :=
    exists_run oneWritten (by decide +kernel)
  refine ⟨trace, s, hrun, ((served_throughout_iff hrun).mpr ?_).2, hwire⟩
  rintro ⟨s, a⟩ hp
  have hstep := hsteps _ hp
  cases a with
  | read outcome => cases hstep
  | arrive | endProducing | receiveAck | receiver | timeout | stop => exact ⟨id, id⟩
  | sender restart =>
    refine ⟨id, ?_⟩
    rintro ⟨msg, -, hpermits⟩
    exact of_decide_eq_true hstep hpermits

def allAccepted : RmqOutcome := ⟨true, true, true, 0, .random uuidClear⟩

def onePublished : List RmqAction :=
  [.arrive (incomingMsg 1), .sender false, .sender false, .sender false, .sender false,
    .sender false, .read allAccepted, .arrive (incomingMsg 2), .sender false, .sender false,
    .sender false]

/-- The first message stays in the store, and the sender is blocked for ever with the second. -/
theorem onePublished_not_served : ∃ trace s, Run (step plainConf 1) (start 1) trace s ∧
    ¬ s.Answered ∧ s.BlockedForEver plainConf 1 ∧
      ∃ id ∈ s.delivered, s.StaysStored plainConf 1 id := by
  obtain ⟨trace, s, hrun, hread, hrunning, hpushing, hpermits, hdelivered, hstored⟩ :
      ∃ trace s, Run (step plainConf 1) (start 1) trace s ∧ s.read = [incomingMsg 1] ∧
        s.reader.boxRunning = true ∧ s.conn.sender = .pushing (incomingMsg 2) ∧
        s.conn.pending = 0 ∧ (incomingMsg 1).id ∈ s.delivered ∧ (incomingMsg 1).id ∈ s.store :=
    exists_run onePublished (by decide +kernel)
  have hs := silent_of_run hrun
  refine ⟨trace, s, hrun, ?_, blockedForEver_of_blocked hs hrunning hpushing hpermits, _,
    hdelivered,
    staysStored_of_mem hs hstored⟩
  intro hanswered
  have hcount := hanswered (incomingMsg 1).id
  rw [hs.written, hread] at hcount
  simp at hcount

end RmqSystem
end Kannel
