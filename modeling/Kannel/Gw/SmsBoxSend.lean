import Kannel.Gw.SmsSplit
import Kannel.Gw.UrlTrans
import Kannel.Gwlib.Counter

/-!
# Sending a message from smsbox

`send_message` prepares a message by a translation, splits it if asked, and writes the parts or
the parts joined again.
-/

namespace Kannel

structure SendConf where
  smsboxId : Option Octstr := none
  replyEmptymessage : Octstr := ascii "<Empty reply from service provider>"
  smsMaxLength : Int := 140

structure Sent where
  count : Int
  written : List Sms
  msg : Sms
  counter : Nat
  drawn : Nat

def maxMsgs (trans : Option UrlTranslation) : Int :=
  match trans with
  | some t => toInt t.maxMessages
  | none => 1

def withBoxcId (conf : SendConf) (msg : Sms) : Sms :=
  if conf.smsboxId.isSome then { msg with boxcId := conf.smsboxId } else msg

def withReplyText (conf : SendConf) (trans : Option UrlTranslation) (msg : Sms) : Option Sms :=
  if (msg.msgdata.getD []).length = 0 ∧ msg.smsType = mtReply then
    if trans.any (·.omitEmpty) then none
    else some { msg with msgdata := some conf.replyEmptymessage }
  else some msg

def withDlrSettings (trans : Option UrlTranslation) (msg : Sms) : Sms :=
  match trans with
  | none => msg
  | some t =>
    if (msg.dlrUrl.getD []).length = 0 ∧ t.dlrUrl.isSome then
      { msg with
        dlrUrl := t.dlrUrl
        dlrMask := if dlrIsEnabled msg.dlrMask then msg.dlrMask else t.dlrMask }
    else msg

def catenates (trans : Option UrlTranslation) : Bool := trans.any (·.concatenation)

def nextSequence (trans : Option UrlTranslation) (counter : Nat) : Nat × Nat :=
  if catenates trans then
    ((counterIncreaseWith counter 1).2, (counterIncreaseWith counter 1).1 % 256)
  else (counter, 0)

def splitArgs (conf : SendConf) (trans : Option UrlTranslation) (sequence : Nat) : SplitArgs where
  header := trans.bind (·.header)
  footer := trans.bind (·.footer)
  nonlastSuffix := trans.bind (·.splitSuffix)
  splitChars := trans.bind (·.splitChars)
  catenate := catenates trans
  msgSequence := sequence
  maxMessages := maxMsgs trans
  maxOctets := toInt conf.smsMaxLength

def sendsWhole (trans : Option UrlTranslation) : Bool :=
  (trans.bind (·.header)).isNone && (trans.bind (·.footer)).isNone &&
    (trans.bind (·.splitSuffix)).isNone && (trans.bind (·.splitChars)).isNone

theorem maxMessages_pos {n : Int} (hlo : -2 ^ 31 ≤ n) (hhi : n < 2 ^ 31) (h : n ≠ 0) :
    0 < toUlong n := by
  unfold toUlong
  omega

theorem maxMsgs_range (trans : Option UrlTranslation) :
    -2 ^ 31 ≤ maxMsgs trans ∧ maxMsgs trans < 2 ^ 31 := by
  cases trans with
  | none => decide
  | some t => exact toInt_range t.maxMessages

def messageParts (conf : SendConf) (trans : Option UrlTranslation) (entropy : Nat → Entropy)
    (sequence : Nat) (msg : Sms) (h : maxMsgs trans ≠ 0) : Except Failure (List Sms) :=
  if sendsWhole trans then .ok [msg]
  else
    (smsSplit (toUlong (maxMsgs trans)) (splitArgs conf trans sequence) msg entropy).get
      (smsSplit_terminates rfl (maxMessages_pos (maxMsgs_range trans).1 (maxMsgs_range trans).2 h))

def writtenMessages (trans : Option UrlTranslation) (msg : Sms) (parts : List Sms) :
    Except Failure (List Sms) :=
  if catenates trans then
    match msg.msgdata with
    | none => .error .assertion
    | some _ => .ok [{ msg with msgdata := some (parts.flatMap fun part => part.msgdata.getD []) }]
  else .ok parts

def sendMessage (conf : SendConf) (trans : Option UrlTranslation) (entropy : Nat → Entropy)
    (counter : Nat) (msg : Sms) : Except Failure Sent :=
  if h : maxMsgs trans = 0 then .ok ⟨0, [], msg, counter, 0⟩
  else
    match withReplyText conf trans (withBoxcId conf msg) with
    | none => .ok ⟨0, [], withBoxcId conf msg, counter, 0⟩
    | some msg => do
      let msg := withDlrSettings trans msg
      let (counter, sequence) := nextSequence trans counter
      let parts ← messageParts conf trans entropy sequence msg h
      let written ← writtenMessages trans msg parts
      return ⟨toInt parts.length, written, msg, counter, parts.length - 1⟩

structure SameMessage (msg msg' : Sms) : Prop where
  id : msg'.id = msg.id
  smsType : msg'.smsType = msg.smsType

theorem SameMessage.trans {a b c : Sms} (h : SameMessage a b) (h' : SameMessage b c) :
    SameMessage a c :=
  ⟨h'.id.trans h.id, h'.smsType.trans h.smsType⟩

variable {conf : SendConf} {trans : Option UrlTranslation} {entropy : Nat → Entropy}
  {counter : Nat} {msg : Sms} {sent : Sent}

theorem sameMessage_withBoxcId (conf : SendConf) (msg : Sms) :
    SameMessage msg (withBoxcId conf msg) := by
  unfold withBoxcId
  split_ifs <;> exact ⟨rfl, rfl⟩

theorem sameMessage_withReplyText {msg' : Sms} (h : withReplyText conf trans msg = some msg') :
    SameMessage msg msg' := by
  unfold withReplyText at h
  split_ifs at h
  all_goals
    obtain rfl := Option.some.inj h
    exact ⟨rfl, rfl⟩

theorem sameMessage_withDlrSettings (trans : Option UrlTranslation) (msg : Sms) :
    SameMessage msg (withDlrSettings trans msg) := by
  unfold withDlrSettings
  cases trans with
  | none => exact ⟨rfl, rfl⟩
  | some t =>
    dsimp only
    split_ifs <;> exact ⟨rfl, rfl⟩

theorem ids_messageParts {sequence : Nat} {h : maxMsgs trans ≠ 0} {parts : List Sms}
    (hparts : messageParts conf trans entropy sequence msg h = .ok parts) :
    0 < parts.length ∧ parts.map Sms.id = partIds msg entropy 0 parts.length := by
  unfold messageParts at hparts
  split_ifs at hparts
  · cases hparts
    exact ⟨Nat.one_pos, rfl⟩
  · exact ids_smsSplit (Option.eq_some_of_isSome _ ▸ congrArg some hparts)

theorem ids_writtenMessages {parts written : List Sms}
    (h : writtenMessages trans msg parts = .ok written) :
    written.map Sms.id = if catenates trans then [msg.id] else parts.map Sms.id := by
  unfold writtenMessages at h
  split_ifs at h ⊢
  · split at h
    · cases h
    · cases h
      rfl
  · cases h
    rfl

structure SentParts (trans : Option UrlTranslation) (entropy : Nat → Entropy) (msg : Sms)
    (sent : Sent) : Prop where
  count : sent.count = toInt (sent.drawn + 1)
  ids : sent.written.map Sms.id =
    if catenates trans then [msg.id] else partIds msg entropy 0 (sent.drawn + 1)

structure SentNothing (sent : Sent) : Prop where
  count : sent.count = 0
  written : sent.written = []
  drawn : sent.drawn = 0

theorem sendMessage_ids (h : sendMessage conf trans entropy counter msg = .ok sent) :
    SameMessage msg sent.msg ∧
      (SentNothing sent ∧ (maxMsgs trans = 0 ∨ msg.smsType = mtReply) ∨
        maxMsgs trans ≠ 0 ∧ SentParts trans entropy msg sent) := by
  unfold sendMessage at h
  split_ifs at h with hmax
  · cases h
    exact ⟨⟨rfl, rfl⟩, .inl ⟨⟨rfl, rfl, rfl⟩, .inl hmax⟩⟩
  · have hboxed := sameMessage_withBoxcId conf msg
    split at h
    · rename_i hdropped
      cases h
      have htype : (withBoxcId conf msg).smsType = mtReply := by
        unfold withReplyText at hdropped
        split_ifs at hdropped with hempty
        exact hempty.2
      rw [hboxed.smsType] at htype
      exact ⟨hboxed, .inl ⟨⟨rfl, rfl, rfl⟩, .inr htype⟩⟩
    · rename_i prepared hprepared
      obtain ⟨parts, hparts, h⟩ := bind_eq_ok_iff.mp h
      obtain ⟨written, hwritten, h⟩ := bind_eq_ok_iff.mp h
      rw [pure_eq_ok, Except.ok.injEq] at h
      subst h
      have hsame : SameMessage msg (withDlrSettings trans prepared) :=
        (hboxed.trans (sameMessage_withReplyText hprepared)).trans
          (sameMessage_withDlrSettings trans prepared)
      obtain ⟨hpos, hids⟩ := ids_messageParts hparts
      have hcount : parts.length - 1 + 1 = parts.length := by omega
      refine ⟨hsame, .inr ⟨hmax, ?_, ?_⟩⟩
      · rw [show ((parts.length - 1 : Nat) : Int) + 1 = parts.length by omega]
      · rw [ids_writtenMessages hwritten, hids, hcount, partIds, partIds, hsame.id]

end Kannel
