import Kannel.Gw.SmsBoxHandle
import Kannel.Gw.SmsSplitParts
import Kannel.Gw.StoreFile

/-!
# Delayed replies to sendsms requests

With `immediate-sendsms-reply` off, `smsbox_req_handle` puts the client into `client_dict` under
the identifier of the message before it writes anything, and the first acknowledgement of that
identifier answers the client.  `ReplyState` is the state the two threads share: the one that
writes the messages and then finishes the request, and the one that reads acknowledgements, among
them those of other requests.

A request that is refused or rejected is answered when it is finished.  For one that is accepted
everything depends on a message with the identifier being written: the entry for `max-messages = 0`
writes nothing and leaves the client in the dictionary for good.
-/

namespace Kannel
open List
open Machine (of_guard)

inductive Refusal
  | badRequest | unsupportedMediaType
  deriving DecidableEq, Repr

def Refusal.status : Refusal → Int
  | .badRequest => httpBadRequest
  | .unsupportedMediaType => 415

inductive SendsmsRequest
  | refused (refusal : Refusal) (answer : Octstr)
  | fields (r : SendsmsFields)

def smsboxReqSendsms (r : SendsmsFields) : SendsmsRequest :=
  match r.toNumbers with
  | none => .refused .badRequest (ascii "Missing receiver number, rejected")
  | some [] => .refused .badRequest (ascii "Empty receiver number not allowed, rejected")
  | some _ => .fields { r with receiver := none }

def answerRequest (conf : HandleConf) (env : HandleEnv) (t : UrlTranslation) (counter : Nat) :
    SendsmsRequest → Except Failure Handled
  | .refused refusal answer => .ok ⟨refusal.status, answer, none, []⟩
  | .fields r => smsboxReqHandle conf env t counter r

def ackReply (nack : Int) : Int × Octstr :=
  if nack = AckStatus.success.code then (httpAccepted, ascii "0: Accepted for delivery")
  else if nack = AckStatus.buffered.code then (httpAccepted, ascii "3: Queued for later delivery")
  else if nack = AckStatus.failed.code then (403, ascii "Not routable. Do not try again.")
  else (503, ascii "Temporal failure, try again later.")

section Machine
variable {κ : Type}

structure HttpReply (κ : Type) where
  client : κ
  status : Int
  answer : Octstr

def delayedHttpReply (clientDict : Dict κ 64) (id : Uuid) (nack : Int) :
    List (HttpReply κ) × Dict κ 64 :=
  let removed := dictRemove clientDict (uuidUnparse id)
  ((removed.1.map fun c => ⟨c, (ackReply nack).1, (ackReply nack).2⟩).toList, removed.2)

theorem dictGet_empty (client : κ) (key : Octstr) : dictGet (dictCreate κ 32) key ≠ some client :=
  (Option.some_ne_none client).symm

structure ReplyState (κ : Type) where
  clientDict : Dict κ 64
  toWrite : List Uuid
  unacked : List Uuid
  finished : Bool
  replies : List (HttpReply κ)

inductive ReplyAction (κ : Type)
  | write
  | ack (i : Nat) (nack : Int)
  | finish
  | otherPut (id : Uuid) (client : κ)
  | otherAck (id : Uuid) (nack : Int)

namespace ReplyState

def start (client : κ) (handled : Handled) (clientDict : Dict κ 64) : ReplyState κ where
  clientDict := match handled.stored with
    | some id => dictPut clientDict (uuidUnparse id) (some client)
    | none => clientDict
  toWrite := handled.written.map Sms.id
  unacked := []
  finished := false
  replies := []

def finish (client : κ) (handled : Handled) (s : ReplyState κ) : ReplyState κ :=
  { s with
    finished := true
    clientDict := match handled.stored with
      | some id =>
        if handled.status = httpInternalServerError then
          (dictRemove s.clientDict (uuidUnparse id)).2
        else s.clientDict
      | none => s.clientDict
    replies :=
      if handled.status = httpAccepted then s.replies
      else s.replies ++ [⟨client, handled.status, handled.answer⟩] }

def reply (s : ReplyState κ) (id : Uuid) (nack : Int) : ReplyState κ :=
  { s with
    clientDict := (delayedHttpReply s.clientDict id nack).2
    replies := s.replies ++ (delayedHttpReply s.clientDict id nack).1 }

theorem dictGet_reply (s : ReplyState κ) (id : Uuid) (nack : Int) (key : Octstr) :
    dictGet (s.reply id nack).clientDict key =
      if key = uuidUnparse id then none else dictGet s.clientDict key :=
  dictGet_dictRemove s.clientDict (uuidUnparse id) key

variable [DecidableEq κ]

def step (client : κ) (handled : Handled) (s : ReplyState κ) : ReplyAction κ → Option (ReplyState κ)
  | .write =>
    match s.toWrite with
    | [] => none
    | id :: rest => some { s with toWrite := rest, unacked := s.unacked ++ [id] }
  | .ack i nack =>
    s.unacked[i]?.map fun id => { s with unacked := s.unacked.eraseIdx i }.reply id nack
  | .finish =>
    if s.toWrite = [] ∧ s.finished = false then some (s.finish client handled) else none
  | .otherPut id other =>
    if handled.stored ≠ some id ∧ other ≠ client then
      some { s with clientDict := dictPut s.clientDict (uuidUnparse id) (some other) }
    else none
  | .otherAck id nack => if handled.stored ≠ some id then some (s.reply id nack) else none

def repliesTo (client : κ) (s : ReplyState κ) : Nat := s.replies.countP (·.client = client)

def AnsweredOnce (client : κ) (s : ReplyState κ) : Prop :=
  s.repliesTo client ≤ 1 ∧ (s.finished = true ∧ s.unacked = [] → s.repliesTo client = 1)

end ReplyState

variable [DecidableEq κ]

def RepliesOnce (client : κ) (conf : HandleConf) (env : HandleEnv) (t : UrlTranslation)
    (counter : Nat) (request : SendsmsRequest) : Prop :=
  ∃ handled, answerRequest conf env t counter request = .ok handled ∧
    ∀ clientDict : Dict κ 64, (∀ key, dictGet clientDict key ≠ some client) →
      ∀ trace s, Machine.Run (ReplyState.step client handled)
        (ReplyState.start client handled clientDict) trace s → s.AnsweredOnce client

namespace ReplyState

variable {client : κ} {handled : Handled} {s s' : ReplyState κ}

theorem repliesTo_reply (client : κ) (s : ReplyState κ) (id : Uuid) (nack : Int) :
    (s.reply id nack).repliesTo client =
      s.repliesTo client +
        if dictGet s.clientDict (uuidUnparse id) = some client then 1 else 0 := by
  unfold repliesTo reply delayedHttpReply
  dsimp only
  rw [dictRemove_fst]
  cases dictGet s.clientDict (uuidUnparse id) with
  | none => simp
  | some other => simp [countP_cons]

structure RefusedInv (client : κ) (s : ReplyState κ) : Prop where
  nowhere : ∀ key, dictGet s.clientDict key ≠ some client
  toWrite : s.toWrite = []
  unacked : s.unacked = []
  replied : s.repliesTo client = if s.finished then 1 else 0

variable {a : ReplyAction κ}

theorem refusedInv_step (hstored : handled.stored = none) (hstatus : handled.status ≠ httpAccepted)
    (hs : s.RefusedInv client) (h : s.step client handled a = some s') :
    s'.RefusedInv client := by
  cases a with
  | write => simp [step, hs.toWrite] at h
  | ack i nack => simp [step, hs.unacked] at h
  | finish =>
    obtain ⟨⟨-, hopen⟩, rfl⟩ := of_guard h
    refine ⟨?_, hs.toWrite, hs.unacked, ?_⟩
    · intro key
      simpa [finish, hstored] using hs.nowhere key
    · have hbefore := hs.replied
      rw [hopen] at hbefore
      simpa [finish, hstatus, repliesTo, countP_append] using hbefore
  | otherPut id other =>
    obtain ⟨⟨-, hother⟩, rfl⟩ := of_guard h
    refine ⟨fun key => ?_, hs.toWrite, hs.unacked, hs.replied⟩
    rw [dictGet_dictPut]
    split_ifs
    · simpa using hother
    · exact hs.nowhere key
  | otherAck id nack =>
    obtain ⟨-, rfl⟩ := of_guard h
    refine ⟨fun key => ?_, hs.toWrite, hs.unacked, ?_⟩
    · rw [dictGet_reply]
      split_ifs
      · exact (Option.some_ne_none client).symm
      · exact hs.nowhere key
    · rw [repliesTo_reply, if_neg (hs.nowhere _)]
      exact hs.replied

structure AcceptedInv (client : κ) (id : Uuid) (s : ReplyState κ) : Prop where
  elsewhere : ∀ key, key ≠ uuidUnparse id → dictGet s.clientDict key ≠ some client
  written : s.finished = true → s.toWrite = []
  outcome :
    (s.repliesTo client = 0 ∧ dictGet s.clientDict (uuidUnparse id) = some client ∧
        id ∈ s.toWrite ++ s.unacked) ∨
      (s.repliesTo client = 1 ∧ dictGet s.clientDict (uuidUnparse id) ≠ some client)

theorem AcceptedInv.reply_other {id id' : Uuid} (hs : s.AcceptedInv client id) (hne : id' ≠ id)
    {unacked : List Uuid} (hmem : id ∈ s.unacked → id ∈ unacked) (nack : Int) :
    ({ s with unacked := unacked }.reply id' nack).AcceptedInv client id := by
  have hkey : uuidUnparse id' ≠ uuidUnparse id := uuidUnparse_injective.ne hne
  have hcount : ({ s with unacked := unacked }.reply id' nack).repliesTo client =
      s.repliesTo client := by
    rw [repliesTo_reply, if_neg (hs.elsewhere _ hkey)]
    rfl
  refine ⟨fun key hne' => ?_, hs.written, ?_⟩
  · rw [dictGet_reply]
    split_ifs
    · exact (Option.some_ne_none client).symm
    · exact hs.elsewhere key hne'
  · rw [hcount, dictGet_reply, if_neg hkey.symm]
    refine hs.outcome.imp (fun ⟨hzero, hwaits, hin⟩ => ⟨hzero, hwaits, ?_⟩) fun hdone => hdone
    exact mem_append.mpr ((mem_append.mp hin).imp_right hmem)

variable {id : Uuid}

theorem AcceptedInv.reply_own (hs : s.AcceptedInv client id) (unacked : List Uuid) (nack : Int) :
    ({ s with unacked := unacked }.reply id nack).AcceptedInv client id := by
  refine ⟨fun key hne => ?_, hs.written, .inr ⟨?_, ?_⟩⟩
  · rw [dictGet_reply, if_neg hne]
    exact hs.elsewhere key hne
  · rw [repliesTo_reply]
    rcases hs.outcome with ⟨hzero, hwaits, -⟩ | ⟨hone, hgone⟩
    · rw [if_pos hwaits]
      exact congrArg (· + 1) hzero
    · rw [if_neg hgone]
      exact hone
  · rw [dictGet_reply, if_pos rfl]
    exact (Option.some_ne_none client).symm

theorem acceptedInv_step (hstored : handled.stored = some id)
    (hstatus : handled.status = httpAccepted) (hs : s.AcceptedInv client id)
    (h : s.step client handled a = some s') : s'.AcceptedInv client id := by
  cases a with
  | write =>
    simp only [step] at h
    split at h
    · cases h
    · rename_i x rest htoWrite
      obtain rfl := Option.some.inj h
      refine ⟨hs.elsewhere, fun hfinished => ?_, ?_⟩
      · rw [hs.written hfinished] at htoWrite
        cases htoWrite
      · refine hs.outcome.imp (fun ⟨hzero, hwaits, hin⟩ => ⟨hzero, hwaits, ?_⟩) fun hdone => hdone
        rw [htoWrite] at hin
        simp only [cons_append, mem_cons, mem_append, not_mem_nil, or_false] at hin ⊢
        tauto
  | ack i nack =>
    obtain ⟨x, hx, rfl⟩ := Option.map_eq_some_iff.mp h
    by_cases hxid : x = id
    · subst hxid
      exact hs.reply_own _ nack
    · refine hs.reply_other hxid (fun hin => ?_) nack
      obtain ⟨j, hj⟩ := mem_iff_getElem?.mp hin
      refine mem_eraseIdx_iff_getElem?.mpr ⟨j, ?_, hj⟩
      rintro rfl
      exact hxid (Option.some.inj (hx.symm.trans hj))
  | finish =>
    obtain ⟨⟨hwritten, -⟩, rfl⟩ := of_guard h
    have hdict : (s.finish client handled).clientDict = s.clientDict := by
      simp [finish, hstored, hstatus, (by decide : httpAccepted ≠ httpInternalServerError)]
    have hreplies : (s.finish client handled).replies = s.replies := if_pos hstatus
    refine ⟨?_, fun _ => hwritten, ?_⟩
    · rw [hdict]
      exact hs.elsewhere
    · rw [hdict, repliesTo, hreplies]
      exact hs.outcome
  | otherPut id' other =>
    obtain ⟨⟨hid, hother⟩, rfl⟩ := of_guard h
    have hne : uuidUnparse id' ≠ uuidUnparse id := by
      rintro heq
      exact hid (hstored.trans (congrArg some (uuidUnparse_injective heq).symm))
    refine ⟨fun key hkey => ?_, hs.written, ?_⟩
    · rw [dictGet_dictPut]
      split_ifs
      · simpa using hother
      · exact hs.elsewhere key hkey
    · rw [dictGet_dictPut, if_neg hne.symm]
      exact hs.outcome
  | otherAck id' nack =>
    obtain ⟨hid, rfl⟩ := of_guard h
    have hne : id' ≠ id := by
      rintro rfl
      exact hid hstored
    exact hs.reply_other hne (fun hin => hin) nack

variable {clientDict : Dict κ 64} {trace : List (ReplyState κ × ReplyAction κ)}

theorem answeredOnce_of_refused (hfree : ∀ key, dictGet clientDict key ≠ some client)
    (hstored : handled.stored = none) (hwritten : handled.written = [])
    (hstatus : handled.status ≠ httpAccepted)
    (hrun : Machine.Run (step client handled) (start client handled clientDict) trace s) :
    s.AnsweredOnce client := by
  have hstart : (start client handled clientDict).RefusedInv client := by
    refine ⟨?_, by simp [start, hwritten], rfl, rfl⟩
    intro key
    simpa [start, hstored] using hfree key
  have hinv := hrun.invariant hstart fun _ _ _ hs h => refusedInv_step hstored hstatus hs h
  refine ⟨?_, fun ⟨hfinished, _⟩ => ?_⟩
  · rw [hinv.replied]
    split_ifs <;> omega
  · rw [hinv.replied, if_pos hfinished]

theorem answeredOnce_of_accepted (hfree : ∀ key, dictGet clientDict key ≠ some client)
    (hstored : handled.stored = some id) (hwritten : id ∈ handled.written.map Sms.id)
    (hstatus : handled.status = httpAccepted)
    (hrun : Machine.Run (step client handled) (start client handled clientDict) trace s) :
    s.AnsweredOnce client := by
  have hdict : (start client handled clientDict).clientDict =
      dictPut clientDict (uuidUnparse id) (some client) := by
    simp [start, hstored]
  have hstart : (start client handled clientDict).AcceptedInv client id := by
    refine ⟨fun key hne => ?_, (fun hfinished => by cases hfinished), .inl ⟨rfl, ?_, ?_⟩⟩
    · rw [hdict, dictGet_dictPut, if_neg hne]
      exact hfree key
    · rw [hdict, dictGet_dictPut, if_pos rfl]
    · exact mem_append_left _ hwritten
  have hinv := hrun.invariant hstart fun _ _ _ hs h => acceptedInv_step hstored hstatus hs h
  refine ⟨?_, fun ⟨hfinished, hunacked⟩ => ?_⟩
  · rcases hinv.outcome with hzero | hone <;> omega
  · rcases hinv.outcome with ⟨-, -, hin⟩ | ⟨hone, -⟩
    · rw [hinv.written hfinished, hunacked] at hin
      exact absurd hin not_mem_nil
    · exact hone

theorem not_answeredOnce_of_nothing (client : κ) (clientDict : Dict κ 64)
    (hwritten : handled.written = []) (hstatus : handled.status = httpAccepted) :
    ∃ trace s, Machine.Run (step client handled) (start client handled clientDict) trace s ∧
      ¬ s.AnsweredOnce client := by
  have hfinish : step client handled (start client handled clientDict) .finish =
      some ((start client handled clientDict).finish client handled) := by
    simp [step, start, hwritten]
  refine ⟨_, _, Machine.Run.start.next hfinish, fun hanswered => ?_⟩
  have hone := hanswered.2 ⟨rfl, rfl⟩
  simp [repliesTo, finish, hstatus, start] at hone

end ReplyState

/-- `sms_split` has room for the parts: the message may be cut, the length of a part is small
enough for an `int`, and the suffix fits into a part. -/
structure RoomToSplit (conf : SendConf) (t : UrlTranslation) (msg : Sms) : Prop where
  positive : 0 < maxMsgs (some t)
  maxLength : toInt conf.smsMaxLength < 2 ^ 28
  suffix : ((t.splitSuffix.getD []).length : Int) ≤ maxPartLen (splitArgs conf (some t) 0) msg

/-- The user may send a message, and it is sent whole or there is room to split it. -/
def CanSend (conf : SendConf) (t : UrlTranslation) (msg : Sms) : Prop :=
  maxMsgs (some t) ≠ 0 ∧ (sendsWhole (some t) = true ∨ RoomToSplit conf t msg)

/-- The requests of which it is shown that they are answered: those that are refused or rejected,
and those whose message can be sent. -/
def Answerable (conf : HandleConf) (env : HandleEnv) (t : UrlTranslation) :
    SendsmsRequest → Prop
  | .refused _ _ => True
  | .fields r => ∃ receivers, requestReceivers r = .ok receivers ∧
      ∀ lists msg, checkedRequest conf env t r receivers = .ok (lists, msg) →
        CanSend conf.toSendConf t msg

section Sending
variable {conf : SendConf} {t : UrlTranslation} {msg : Sms} {entropy : Nat → Entropy}

/-- What `sms_split` reads of a message. -/
structure SamePayload (msg msg' : Sms) : Prop where
  smsType : msg'.smsType = msg.smsType
  coding : msg'.coding = msg.coding
  udhdata : msg'.udhdata = msg.udhdata
  msgdata : msg'.msgdata = msg.msgdata

theorem maxPartLen_congr {msg' : Sms} (h : SamePayload msg msg') (args : SplitArgs) :
    maxPartLen args msg' = maxPartLen args msg := by
  have hlen : smsMsgdataLen msg' = smsMsgdataLen msg := by
    rw [smsMsgdataLen, h.msgdata, h.coding, smsMsgdataLen]
  have hroom : roomForText args msg' = roomForText args msg := by
    funext udhLen
    rw [roomForText, cutByOctets, h.coding, roomForText, cutByOctets]
  rw [maxPartLen, hlen, hroom, h.udhdata, maxPartLen]

theorem CanSend.congr {msg' : Sms} (hsame : SamePayload msg msg') (h : CanSend conf t msg) :
    CanSend conf t msg' := by
  refine ⟨h.1, h.2.imp_right fun hroom => ⟨hroom.positive, hroom.maxLength, ?_⟩⟩
  rw [maxPartLen_congr hsame]
  exact hroom.suffix

theorem samePayload_withDlrSettings (trans : Option UrlTranslation) (msg : Sms) :
    SamePayload msg (withDlrSettings trans msg) := by
  unfold withDlrSettings
  cases trans with
  | none => exact ⟨rfl, rfl, rfl, rfl⟩
  | some t =>
    dsimp only
    split_ifs <;> exact ⟨rfl, rfl, rfl, rfl⟩

theorem samePayload_withBoxcId (conf : SendConf) (msg : Sms) :
    SamePayload msg (withBoxcId conf msg) := by
  unfold withBoxcId
  split_ifs <;> exact ⟨rfl, rfl, rfl, rfl⟩

theorem SamePayload.trans {a b c : Sms} (h : SamePayload a b) (h' : SamePayload b c) :
    SamePayload a c :=
  ⟨h'.smsType.trans h.smsType, h'.coding.trans h.coding, h'.udhdata.trans h.udhdata,
    h'.msgdata.trans h.msgdata⟩

theorem RoomToSplit.cutRoom_range (h : RoomToSplit conf t msg) (sequence : Nat) :
    0 ≤ cutRoom (splitArgs conf (some t) sequence) msg ∧
      cutRoom (splitArgs conf (some t) sequence) msg < 2 ^ 29 := by
  obtain ⟨hpos, hlt⟩ := @maxPartLen_range (splitArgs conf (some t) 0) msg h.maxLength
  have hsuffix := h.suffix
  have hroom : cutRoom (splitArgs conf (some t) sequence) msg =
      toInt (maxPartLen (splitArgs conf (some t) 0) msg - (t.splitSuffix.getD []).length) := rfl
  rw [hroom, toInt_of_fits (by omega) (by omega)]
  omega

theorem length_splitLoop_le {args : SplitArgs} {orig temp : Sms} {fuel msgno n : Nat}
    {parts : List Sms} (hn : toUlong args.maxMessages = msgno + n) (hpos : 0 < n)
    (h : splitLoop args orig entropy fuel msgno temp = some (.ok parts)) : parts.length ≤ n := by
  induction fuel generalizing msgno n temp parts with
  | zero => cases h
  | succ fuel ih =>
    obtain ⟨_, _, part, -, -, ⟨-, rfl⟩ | ⟨hgoes, more, rfl, hmore⟩⟩ := splitLoop_inv h
    · exact hpos
    · -- a round that is not the last one leaves a number for another
      have hnot := of_decide_eq_false hgoes
      obtain ⟨m, rfl⟩ : ∃ m, n = m + 1 := ⟨n - 1, by omega⟩
      have hm : 0 < m := by omega
      have hle := ih (by omega) hm hmore
      rw [length_cons]
      omega

theorem messageParts_returns (entropy : Nat → Entropy) (sequence : Nat)
    (hmax : maxMsgs (some t) ≠ 0)
    (hroom : sendsWhole (some t) = true ∨ RoomToSplit conf t msg) (hdata : msg.msgdata.isSome) :
    ∃ parts, messageParts conf (some t) entropy sequence msg hmax = .ok parts ∧
      parts.length < 2 ^ 31 := by
  unfold messageParts
  split_ifs with hwhole
  · exact ⟨[msg], rfl, by norm_num⟩
  · have hroom := hroom.resolve_left hwhole
    have hrange := (maxMsgs_range (some t)).2
    have hpositive := hroom.positive
    have hulong : (toUlong (maxMsgs (some t)) : Int) = maxMsgs (some t) := by
      unfold toUlong
      omega
    have hpos : 0 < toUlong (maxMsgs (some t)) := by omega
    let args := splitArgs conf (some t) sequence
    have hsome : (smsSplit (toUlong (maxMsgs (some t))) args msg entropy).isSome :=
      smsSplit_terminates rfl hpos
    obtain ⟨r, hr⟩ := Option.isSome_iff_exists.mp hsome
    obtain ⟨raw, hraw, rfl⟩ := Option.map_eq_some_iff.mp hr
    obtain ⟨hnonneg, hlt⟩ := hroom.cutRoom_range sequence
    obtain ⟨len, hlen⟩ := Int.eq_ofNat_of_zero_le hnonneg
    obtain ⟨parts, rfl⟩ := splitLoop_ok hlen hdata (.inr (by omega)) hraw
    refine ⟨catenateParts args parts, Option.get_of_eq_some hsome hr, ?_⟩
    have hle : parts.length ≤ toUlong (maxMsgs (some t)) :=
      length_splitLoop_le (Nat.zero_add _).symm hpos hraw
    rw [length_catenateParts]
    omega

/-- `send_message` returns for a message that can be sent, and its count is not -1. -/
theorem sendMessage_returns (entropy : Nat → Entropy) (counter : Nat) (hpush : msg.smsType = mtPush)
    (hdata : msg.msgdata.isSome) (hsend : CanSend conf t msg) :
    ∃ sent, sendMessage conf (some t) entropy counter msg = .ok sent ∧ sent.count ≠ -1 ∧
      SamePayload msg sent.msg := by
  have hboxed := samePayload_withBoxcId conf msg
  have hprepared := hboxed.trans (samePayload_withDlrSettings (some t) (withBoxcId conf msg))
  have hreply : withReplyText conf (some t) (withBoxcId conf msg) = some (withBoxcId conf msg) := by
    rw [withReplyText, if_neg]
    rintro ⟨-, htype⟩
    exact absurd ((hboxed.smsType.symm.trans htype).symm.trans hpush) (by decide)
  let prepared := withDlrSettings (some t) (withBoxcId conf msg)
  have hdata' : prepared.msgdata.isSome := hprepared.msgdata ▸ hdata
  obtain ⟨parts, hparts, hlength⟩ := messageParts_returns entropy
    (nextSequence (some t) counter).2 hsend.1 (hsend.congr hprepared).2 hdata'
  obtain ⟨text, htext⟩ := Option.isSome_iff_exists.mp hdata'
  have hwritten : ∃ written, writtenMessages (some t) prepared parts = .ok written := by
    unfold writtenMessages
    split_ifs
    · rw [htext]
      exact ⟨_, rfl⟩
    · exact ⟨_, rfl⟩
  obtain ⟨written, hwritten⟩ := hwritten
  refine ⟨⟨toInt parts.length, written, prepared, (nextSequence (some t) counter).1,
    parts.length - 1⟩, ?_, ?_, hprepared⟩
  · rw [sendMessage, dif_neg hsend.1, hreply]
    dsimp only
    rw [hparts, ok_bind, hwritten]
    rfl
  · dsimp only
    rw [toInt_of_fits (by omega) (by omega)]
    omega

theorem sendToAll_returns (env : HandleEnv) (i drawn counter : Nat) (allowed : List Octstr)
    (hpush : msg.smsType = mtPush) (hdata : msg.msgdata.isSome) (hsend : CanSend conf t msg) :
    ∃ sents, sendToAll conf env t i drawn counter msg allowed = .ok sents ∧
      ∀ p ∈ sents, p.2.count ≠ -1 := by
  induction allowed generalizing i drawn counter msg with
  | nil => exact ⟨[], rfl, by simp⟩
  | cons receiv allowed ih =>
    have hsame : SamePayload msg { msg with receiver := some receiv, time := env.clock i } :=
      ⟨rfl, rfl, rfl, rfl⟩
    obtain ⟨sent, hsent, hcount, hpayload⟩ := sendMessage_returns
      (fun round => env.entropy (drawn + round)) counter (hsame.smsType.trans hpush)
      (hsame.msgdata ▸ hdata) (hsend.congr hsame)
    have hnext := hsame.trans hpayload
    obtain ⟨rest, hrest, hcounts⟩ := ih (i + 1) (drawn + sent.drawn)
      sent.counter (hnext.smsType.trans hpush) (hnext.msgdata ▸ hdata) (hsend.congr hnext)
    refine ⟨(receiv, sent) :: rest, ?_, ?_⟩
    · rw [sendToAll, hsent, ok_bind, hrest]
      rfl
    · intro p hp
      rcases mem_cons.mp hp with rfl | hp
      · exact hcount
      · exact hcounts p hp

end Sending

theorem Refusal.status_ne (refusal : Refusal) : refusal.status ≠ httpAccepted := by
  cases refusal <;> decide

section Theorem
variable {conf : HandleConf} {env : HandleEnv} {t : UrlTranslation} {counter : Nat}
  {r : SendsmsFields} {receivers : List Octstr} {lists : Screened} {msg : Sms} {handled : Handled}

theorem requestMessage_text (h : requestMessage conf env t r = .ok msg) : msg.msgdata.isSome := by
  iterate 14 obtain ⟨_, -, h⟩ := bind_eq_ok_iff.mp h
  split at h
  · cases h
  · cases h
    rfl

theorem checkedRequest_text (h : checkedRequest conf env t r receivers = .ok (lists, msg)) :
    msg.msgdata.isSome := by
  obtain ⟨_, -, h⟩ := bind_eq_ok_iff.mp h
  obtain ⟨_, -, h⟩ := bind_eq_ok_iff.mp h
  obtain ⟨msg', hmsg, h⟩ := bind_eq_ok_iff.mp h
  cases h
  exact requestMessage_text hmsg

theorem id_mem_written (hmax : maxMsgs (some t) ≠ 0)
    (hchecked : checkedRequest conf env t r receivers = .ok (lists, msg))
    {sents : List (Octstr × Sent)}
    (hsents : sendToAll conf.toSendConf env t 0 0 counter msg lists.allowed = .ok sents) :
    msg.id ∈ (sents.flatMap (·.2.written)).map Sms.id := by
  obtain ⟨-, hallowed, -, hpush⟩ := checkedRequest_ok hchecked
  obtain ⟨hfst, hall⟩ := sendToAll_sends hmax hpush hsents
  cases sents with
  | nil => exact absurd hfst.symm hallowed
  | cons p rest =>
    obtain ⟨drawn, m, hm, hparts⟩ := hall p mem_cons_self
    rw [flatMap_cons, map_append]
    exact mem_append_left _ (hm ▸ hparts.id_mem)

/-- A request that passes the checks and can be sent is accepted, with the client stored under the
identifier of a message that is written. -/
theorem smsboxReqHandle_accepts (counter : Nat) (hdelayed : conf.immediateSendsmsReply = false)
    (hreceivers : requestReceivers r = .ok receivers)
    (hchecked : checkedRequest conf env t r receivers = .ok (lists, msg))
    (hsend : CanSend conf.toSendConf t msg) :
    ∃ handled, smsboxReqHandle conf env t counter r = .ok handled ∧
      handled.stored = some msg.id ∧ msg.id ∈ handled.written.map Sms.id ∧
      handled.status = httpAccepted := by
  obtain ⟨-, -, -, hpush⟩ := checkedRequest_ok hchecked
  obtain ⟨sents, hsents, hcounts⟩ := sendToAll_returns env 0 0 counter
    lists.allowed hpush (checkedRequest_text hchecked) hsend
  obtain ⟨handled, hhandled⟩ := smsboxReqHandle_returns hreceivers hchecked hsents
  refine ⟨handled, hhandled, ?_⟩
  obtain ⟨receivers', hreceivers', houtcome⟩ := smsboxReqHandle_cases hhandled
  obtain rfl := Except.ok.inj (hreceivers.symm.trans hreceivers')
  rcases houtcome with ⟨text, herror, -⟩ | ⟨lists', msg', sents', hchecked', hsents', houtcome⟩
  · cases hchecked.symm.trans herror
  · obtain ⟨rfl, rfl⟩ := Prod.mk.inj (Except.ok.inj (hchecked.symm.trans hchecked'))
    obtain rfl := Except.ok.inj (hsents.symm.trans hsents')
    obtain ⟨hstored, hwritten, hstatus⟩ := houtcome
    have hnone : ¬ ∃ p ∈ sents, p.2.count = -1 := fun ⟨p, hp, hcount⟩ => hcounts p hp hcount
    rw [if_neg hnone] at hstatus
    refine ⟨?_, ?_, hstatus⟩
    · rw [hstored, hdelayed]
      rfl
    · rw [hwritten]
      exact id_mem_written hsend.1 hchecked hsents

/-- **A delayed reply comes exactly once**, at the latest with the last acknowledgement, for every
request that is refused or rejected, or whose message can be sent. -/
theorem sendsms_replies_once (client : κ) (conf : HandleConf) (env : HandleEnv)
    (t : UrlTranslation) (counter : Nat) (request : SendsmsRequest)
    (hdelayed : conf.immediateSendsmsReply = false) (hanswerable : Answerable conf env t request) :
    RepliesOnce client conf env t counter request := by
  cases request with
  | refused refusal answer =>
    refine ⟨_, rfl, fun _ hfree _ _ hrun => ?_⟩
    exact ReplyState.answeredOnce_of_refused hfree rfl rfl refusal.status_ne hrun
  | fields r =>
    obtain ⟨receivers, hreceivers, hsend⟩ := hanswerable
    cases hchecked : checkedRequest conf env t r receivers with
    | error text =>
      refine ⟨_, smsboxReqHandle_rejected hreceivers hchecked, fun _ hfree _ _ hrun => ?_⟩
      exact ReplyState.answeredOnce_of_refused hfree rfl rfl Refusal.badRequest.status_ne hrun
    | ok checked =>
      obtain ⟨handled, hhandled, hstored, hid, hstatus⟩ := smsboxReqHandle_accepts
        counter hdelayed hreceivers hchecked (hsend checked.1 checked.2 hchecked)
      exact ⟨handled, hhandled, fun _ hfree _ _ hrun =>
        ReplyState.answeredOnce_of_accepted hfree hstored hid hstatus hrun⟩

def splittingUser : UrlTranslation :=
  { plainUser with
    header := some (ascii "A:"), splitSuffix := some (ascii "+"), splitChars := some (ascii " "),
    concatenation := true, maxMessages := 2 }

instance decidableRoomToSplit (conf : SendConf) (t : UrlTranslation) (msg : Sms) :
    Decidable (RoomToSplit conf t msg) :=
  decidable_of_iff (0 < maxMsgs (some t) ∧ toInt conf.smsMaxLength < 2 ^ 28 ∧
      ((t.splitSuffix.getD []).length : Int) ≤ maxPartLen (splitArgs conf (some t) 0) msg)
    ⟨fun h => ⟨h.1, h.2.1, h.2.2⟩, fun h => ⟨h.positive, h.maxLength, h.suffix⟩⟩

/-- Two receivers, and a user whose messages are split. -/
theorem splittingUser_replied_once :
    RepliesOnce (0 : Nat) {} plainEnv splittingUser 0 (smsboxReqSendsms (requestTo "1 2")) := by
  refine sendsms_replies_once 0 {} plainEnv splittingUser 0 _ rfl
    ⟨[ascii "1", ascii "2"], by decide +kernel, ?_⟩
  intro lists msg hchecked
  obtain ⟨checked, hok, hsend⟩ :
      ∃ checked, checkedRequest {} plainEnv splittingUser
        { requestTo "1 2" with receiver := none } [ascii "1", ascii "2"] = .ok checked ∧
        maxMsgs (some splittingUser) ≠ 0 ∧ RoomToSplit {} splittingUser checked.2 := by
    decide +kernel
  obtain rfl := Except.ok.inj (hok.symm.trans hchecked)
  exact ⟨hsend.1, .inr hsend.2⟩

/-- With `max-messages = 0` nothing is written, and the client never gets a reply. -/
theorem deniedUser_never_replied :
    (∃ handled, answerRequest {} plainEnv { plainUser with maxMessages := 0 } 0
        (smsboxReqSendsms (requestTo "1")) = .ok handled ∧
      handled.status = httpAccepted ∧ handled.written = []) ∧
    ¬ RepliesOnce (0 : Nat) {} plainEnv { plainUser with maxMessages := 0 } 0
      (smsboxReqSendsms (requestTo "1")) := by
  have haccepted : ∃ handled, answerRequest {} plainEnv { plainUser with maxMessages := 0 } 0
        (smsboxReqSendsms (requestTo "1")) = .ok handled ∧
      handled.status = httpAccepted ∧ handled.written = [] := by
    decide +kernel
  refine ⟨haccepted, ?_⟩
  rintro ⟨handled, hhandled, hruns⟩
  obtain ⟨handled', hhandled', hstatus, hwritten⟩ := haccepted
  obtain rfl := Except.ok.inj (hhandled.symm.trans hhandled')
  obtain ⟨trace, s, hrun, hnot⟩ :=
    ReplyState.not_answeredOnce_of_nothing 0 (dictCreate Nat 32) hwritten hstatus
  exact hnot (hruns _ (dictGet_empty 0) trace s hrun)

end Theorem
end Machine
end Kannel
