import Mathlib.Data.List.Rotate
import Kannel.Gw.SmscConn
import Kannel.Gw.SmsSplitParts
import Kannel.Gw.SplitSend

/-!
# Routing outgoing messages

`smsc2_rout` looks at the validity of a message and at the number lists, and then weighs the
connections from a random one on.  A part of a split message goes to the connection the split
started on, if that one is still on the list.  `smscconn_send` refuses for a connection that is
dead or told to die; otherwise it splits the message and hands the parts to the driver.

When `smscconn_send` gives -1 the router calls itself.  A weighed connection never refuses, but the
connection of a part is taken unseen: a part of a dead connection is tried again for ever, unless
it expires or a list rejects it (`smsc2Rout_returns_iff`).
-/

namespace Kannel
open List

structure NumberLists where
  whiteListSender : Option (Option Octstr → Int)
  whiteListSenderRegex : Option Octstr
  blackListSender : Option (Option Octstr → Int)
  blackListSenderRegex : Option Octstr
  whiteListReceiver : Option (Option Octstr → Int)
  whiteListReceiverRegex : Option Octstr
  blackListReceiver : Option (Option Octstr → Int)
  blackListReceiverRegex : Option Octstr

/-- The settings, the addresses on `smsc_list` with the connections there and their
`max_sms_octets`, and the `smsc_conn` of every `split_parts`. -/
structure Router where
  unifiedPrefix : Option Octstr
  lists : NumberLists
  maxOutgoingSmsQlength : Int
  smscList : List Nat
  conns : Nat → SmscConn
  maxSmsOctets : Nat → Int
  partsConn : Nat → Nat

/-- What a try finds: the clock, the queues and loads, the counter of split messages, the address
of a new `split_parts`, and what the driver of each connection returns. -/
structure RoutMoment where
  now : Int
  rand : Nat
  outgoingSms : Nat
  queued : Nat → Int
  load : Nat → Int
  shutdown : Bool
  splitMsgCounter : Nat
  entropy : Nat → Entropy
  split : Nat
  sendMsg : Nat → Sms → Int

section Rout
variable (re : RegexLib) (router : Router) (resend : Bool) (moment : RoutMoment)

def notInWhiteList (list : Option (Option Octstr → Int)) (number : Option Octstr) :
    Except Failure Bool :=
  .ok (list.any fun find => find number < 1)

def notInWhiteListRegex (pattern number : Option Octstr) : Except Failure Bool :=
  match pattern with
  | none => .ok false
  | some pattern => (gwRegexMatchAt re (.live pattern) number).map (!·)

def inBlackList (list : Option (Option Octstr → Int)) (number : Option Octstr) :
    Except Failure Bool :=
  .ok (list.any fun find => find number = 1)

def inBlackListRegex (pattern number : Option Octstr) : Except Failure Bool :=
  match pattern with
  | none => .ok false
  | some pattern => gwRegexMatchAt re (.live pattern) number

def rejectedByLists (lists : NumberLists) (msg : Sms) : Except Failure Bool :=
  anyCheck [
    notInWhiteList lists.whiteListSender msg.sender,
    notInWhiteListRegex re lists.whiteListSenderRegex msg.sender,
    inBlackList lists.blackListSender msg.sender,
    inBlackListRegex re lists.blackListSenderRegex msg.sender,
    notInWhiteList lists.whiteListReceiver msg.receiver,
    notInWhiteListRegex re lists.whiteListReceiverRegex msg.receiver,
    inBlackList lists.blackListReceiver msg.receiver,
    inBlackListRegex re lists.blackListReceiverRegex msg.receiver]

/-- The best connections so far and what the loop has seen of the others. -/
structure Selection where
  bestPreferred : Option Nat
  bestOk : Option Nat
  bpLoad : Int
  boLoad : Int
  badFound : Bool
  fullFound : Bool
  queueLength : Int

def Selection.initial : Selection := ⟨none, none, 0, 0, false, false, 0⟩

def maxQueue : Int :=
  if 0 < moment.outgoingSms ∧ !resend then (4 * router.maxOutgoingSmsQlength).tdiv 5
  else router.maxOutgoingSmsQlength

def weighUsable (s : Selection) (conn : Nat) (ret : Int) : Selection :=
  if ret = -1 then s
  else if ret ≠ 1 ∧ s.bestPreferred ≠ none then s
  else if (router.conns conn).status ≠ .active then { s with badFound := true }
  else if maxQueue router resend moment < moment.queued conn then { s with fullFound := true }
  else if ret = 1 ∧ (s.bestPreferred = none ∨ moment.load conn < s.bpLoad) then
    { s with bestPreferred := some conn, bpLoad := moment.load conn }
  else if s.bestOk = none ∨ moment.load conn < s.boLoad then
    { s with bestOk := some conn, boLoad := moment.load conn }
  else s

def weigh (msg : Sms) (s : Selection) (conn : Nat) : Except Failure Selection := do
  let s := { s with queueLength := s.queueLength + max (moment.queued conn) 0 }
  let ret ← smscconnUsable re (router.conns conn) msg
  return weighUsable router resend moment s conn ret

def selectConn (msg : Sms) : Except Failure Selection :=
  (router.smscList.rotate moment.rand).foldlM (weigh re router resend moment msg) .initial

/-- The result when no connection is found, with the failures that are reported. -/
def withoutConn (s : Selection) : Reason × List Reason :=
  if s.badFound then
    if router.maxOutgoingSmsQlength < 0 ∨ moment.outgoingSms < router.maxOutgoingSmsQlength then
      (.queued, [])
    else (.failedQfull, [])
  else if s.fullFound then (.failedQfull, [])
  else if moment.shutdown then (.queued, [])
  else (.failedDiscarded, [.failedDiscarded])

def chooseConn (msg : Sms) : Except Failure ((Reason × List Reason) ⊕ Nat) :=
  if router.smscList = [] then .ok (.inl (.failedDiscarded, []))
  else
    match msg.splitParts with
    | none => do
      let s ← selectConn re router resend moment msg
      if 0 < router.maxOutgoingSmsQlength ∧ !resend ∧
          s.queueLength + moment.outgoingSms >
            router.smscList.length * router.maxOutgoingSmsQlength then
        return .inl (.failedQfull, [])
      match s.bestPreferred <|> s.bestOk with
      | some conn => return .inr conn
      | none => return .inl (withoutConn router moment s)
    | some parts =>
      if router.partsConn parts ∈ router.smscList then .ok (.inr (router.partsConn parts))
      else .ok (.inl (withoutConn router moment .initial))

def SmscConn.refuses (conn : SmscConn) : Bool := conn.status = .dead ∨ conn.whyKilled ≠ .alive

/-- `sms_split` as `smscconn_send` calls it. -/
def splitMsg (maxOctets : Int) (msg : Sms) : Except Failure (List Sms) :=
  (smsSplit 255 (catenateArgs (moment.splitMsgCounter % 256) maxOctets) msg moment.entropy).get
    (smsSplit_terminates rfl (by decide))

/-- The loop over the parts ends at the first one that the driver does not take. -/
def sendParts (sendMsg : Sms → Int) : List Sms → Int
  | [] => -1
  | part :: parts =>
    if sendMsg part < 0 ∨ parts = [] then sendMsg part else sendParts sendMsg parts

/-- The result and the message as it is left to the caller. -/
def smscconnSend (conn : Nat) (msg : Sms) : Except Failure (Int × Sms) := do
  if (router.conns conn).refuses then return (-1, msg)
  if msg.splitParts ≠ none then return (moment.sendMsg conn msg, msg)
  let receiver ← normalizeNumber (router.conns conn).unifiedPrefix msg.receiver
  let msg := { msg with receiver := receiver }
  let parts ← splitMsg moment (router.maxSmsOctets conn) msg
  if parts.length = 1 then return (moment.sendMsg conn msg, msg)
  let parts := parts.map fun part => { part with splitParts := some moment.split }
  return (sendParts (moment.sendMsg conn) parts, msg)

inductive RoutTry
  | over (reason : Reason)
  | again (msg : Sms)

def validityExpired (msg : Sms) : Prop :=
  msg.validity ≠ msgParamUndefined ∧ msg.validity < moment.now

instance validityExpired_decidable (msg : Sms) : Decidable (validityExpired moment msg) :=
  inferInstanceAs (Decidable (_ ∧ _))

def routTry (msg : Sms) : Except Failure RoutTry := do
  if validityExpired moment msg then return .over .failedExpired
  let receiver ← normalizeNumber router.unifiedPrefix msg.receiver
  let msg := { msg with receiver := receiver }
  if ← rejectedByLists re router.lists msg then return .over .failedRejected
  match ← chooseConn re router resend moment msg with
  | .inl (reason, _) => return .over reason
  | .inr conn =>
    let (ret, msg) ← smscconnSend router moment conn msg
    return if ret = -1 then .again msg else .over .success

end Rout

def smsc2Rout (re : RegexLib) (router : Router) (resend : Bool) (moments : Nat → RoutMoment) :
    (tries n : Nat) → Sms → Except Failure (Option Reason)
  | 0, _, _ => .ok none
  | tries + 1, n, msg => do
    match ← routTry re router resend (moments n) msg with
    | .over reason => return some reason
    | .again msg => smsc2Rout re router resend moments tries (n + 1) msg

variable {msg : Sms}

section Weighing
variable {re : RegexLib} {router : Router} {resend : Bool} {moment : RoutMoment}

theorem refuses_eq_false_of_usable {conn : SmscConn} {ret : Int}
    (h : smscconnUsable re conn msg = .ok ret) (hret : ret ≠ -1) : conn.refuses = false := by
  obtain ⟨denied, hdenied, h⟩ := bind_eq_ok_iff.mp h
  cases denied with
  | true =>
    cases h
    exact absurd rfl hret
  | false =>
    have hgone : conn.gone = false := by
      cases hg : conn.gone with
      | false => rfl
      | true => simp [hg, anyCheck] at hdenied
    simp only [SmscConn.gone, decide_eq_false_iff_not, not_or] at hgone
    simp only [SmscConn.refuses, decide_eq_false_iff_not, not_or]
    exact ⟨hgone.1, hgone.2.2⟩

def Selection.Willing (router : Router) (s : Selection) : Prop :=
  ∀ conn, s.bestPreferred = some conn ∨ s.bestOk = some conn → (router.conns conn).refuses = false

theorem weighUsable_willing {s : Selection} {conn : Nat} {ret : Int} (hs : s.Willing router)
    (hconn : ret ≠ -1 → (router.conns conn).refuses = false) :
    (weighUsable router resend moment s conn ret).Willing router := by
  unfold weighUsable
  split_ifs with h1 h2 h3 h4 h5 h6
  · exact hs
  · exact hs
  · exact hs
  · exact hs
  · rintro c (hc | hc)
    · cases hc
      exact hconn h1
    · exact hs c (.inr hc)
  · rintro c (hc | hc)
    · exact hs c (.inl hc)
    · cases hc
      exact hconn h1
  · exact hs

theorem foldlM_weigh_willing (conns : List Nat) {s s' : Selection} (hs : s.Willing router)
    (h : conns.foldlM (weigh re router resend moment msg) s = .ok s') : s'.Willing router := by
  induction conns generalizing s with
  | nil =>
    cases h
    exact hs
  | cons conn conns ih =>
    obtain ⟨next, hnext, hrest⟩ := bind_eq_ok_iff.mp h
    obtain ⟨ret, husable, hweigh⟩ := bind_eq_ok_iff.mp hnext
    cases hweigh
    refine ih (weighUsable_willing ?_ fun hret => refuses_eq_false_of_usable husable hret) hrest
    exact hs

theorem selectConn_willing {s : Selection} (h : selectConn re router resend moment msg = .ok s) :
    s.Willing router :=
  foldlM_weigh_willing _ (fun _ hc => by rcases hc with hc | hc <;> cases hc) h

theorem foldlM_weigh_ok_iff : ∀ (conns : List Nat) (s : Selection),
    (∃ s', conns.foldlM (weigh re router resend moment msg) s = .ok s') ↔
      ∀ conn ∈ conns, ∃ ret, smscconnUsable re (router.conns conn) msg = .ok ret := by
  intro conns
  induction conns with
  | nil => exact fun s => ⟨fun _ _ h => absurd h not_mem_nil, fun _ => ⟨s, rfl⟩⟩
  | cons conn conns ih =>
    intro s
    rw [foldlM_cons, forall_mem_cons]
    constructor
    · rintro ⟨s', h⟩
      obtain ⟨next, hnext, hrest⟩ := bind_eq_ok_iff.mp h
      obtain ⟨ret, husable, -⟩ := bind_eq_ok_iff.mp hnext
      exact ⟨⟨ret, husable⟩, (ih next).mp ⟨s', hrest⟩⟩
    · rintro ⟨⟨ret, husable⟩, hrest⟩
      unfold weigh
      simp only [husable, ok_bind, pure_eq_ok]
      exact (ih _).mpr hrest

theorem selectConn_ok_iff :
    (∃ s, selectConn re router resend moment msg = .ok s) ↔
      ∀ conn ∈ router.smscList, ∃ ret, smscconnUsable re (router.conns conn) msg = .ok ret := by
  unfold selectConn
  rw [foldlM_weigh_ok_iff]
  simp only [mem_rotate]

end Weighing

variable {msg' : Sms} {n : Nat}

section Tries
variable (re : RegexLib) (router : Router) (resend : Bool) (moments : Nat → RoutMoment)

/-- The message is a part whose connection is on the list and refuses. -/
def Stuck (msg : Sms) : Prop :=
  ∃ parts, msg.splitParts = some parts ∧ router.partsConn parts ∈ router.smscList ∧
    (router.conns (router.partsConn parts)).refuses = true

/-- The lists are asked for the message with its receiver normalized. -/
def AskedLists (rejected : Bool) (msg msg' : Sms) : Prop :=
  ∃ receiver, normalizeNumber router.unifiedPrefix msg.receiver = .ok receiver ∧
    msg' = { msg with receiver := receiver } ∧
    rejectedByLists re router.lists msg' = .ok rejected

/-- The message has expired or a list rejects it. -/
def Dismissed (moment : RoutMoment) (msg : Sms) : Prop :=
  validityExpired moment msg ∨ ∃ msg', AskedLists re router true msg msg'

/-- `smscconn_usable` can be asked of every connection, if it is asked at all. -/
def Weighable (msg : Sms) : Prop :=
  router.smscList = [] ∨ msg.splitParts ≠ none ∨
    ∀ conn ∈ router.smscList, ∃ ret, smscconnUsable re (router.conns conn) msg = .ok ret

/-- The message is dismissed at some try from the `n`-th on, and nothing fails before. -/
inductive DismissedLater : Nat → Sms → Prop
  | now {n : Nat} {msg : Sms} : Dismissed re router (moments n) msg → DismissedLater n msg
  | later {n : Nat} {msg msg' : Sms} : ¬ validityExpired (moments n) msg →
      AskedLists re router false msg msg' → DismissedLater (n + 1) msg' → DismissedLater n msg

/-- What sending takes: a text and a receiver if the message is to be split, parts of a bounded
length, and drivers that do not return -1. -/
structure CanBeSent (msg : Sms) : Prop where
  text : msg.splitParts = none → msg.msgdata.isSome
  receiver : msg.splitParts = none → msg.receiver.isSome
  octets : ∀ conn, router.maxSmsOctets conn < 2 ^ 28
  driver : ∀ n conn part, (moments n).sendMsg conn part ≠ -1

def Returns (n : Nat) (msg : Sms) : Prop :=
  ∃ tries reason, smsc2Rout re router resend moments tries n msg = .ok (some reason)

variable {re router resend moments}
variable {moment : RoutMoment}

theorem routTry_dismissed (h : Dismissed re router moment msg) :
    ∃ reason, routTry re router resend moment msg = .ok (.over reason) := by
  unfold routTry
  by_cases hexp : validityExpired moment msg
  · exact ⟨_, if_pos hexp⟩
  · rcases h with hexp' | ⟨msg', receiver, hnorm, rfl, hlists⟩
    · exact absurd hexp' hexp
    · refine ⟨.failedRejected, ?_⟩
      rw [if_neg hexp]
      simp only [hnorm, ok_bind, hlists, if_true, pure_eq_ok]

theorem routTry_passed (hexp : ¬ validityExpired moment msg)
    (h : AskedLists re router false msg msg') :
    routTry re router resend moment msg =
      (chooseConn re router resend moment msg' >>= fun choice =>
        match choice with
        | .inl (reason, _) => .ok (.over reason)
        | .inr conn => (smscconnSend router moment conn msg').map fun sent =>
          if sent.1 = -1 then .again sent.2 else .over .success) := by
  obtain ⟨receiver, hnorm, rfl, hlists⟩ := h
  unfold routTry
  rw [if_neg hexp]
  simp only [hnorm, ok_bind, hlists, Bool.false_eq_true, if_false]
  rfl

theorem dismissed_or_passed {result : RoutTry}
    (h : routTry re router resend moment msg = .ok result) :
    Dismissed re router moment msg ∨
      ¬ validityExpired moment msg ∧ ∃ msg', AskedLists re router false msg msg' := by
  unfold routTry at h
  by_cases hexp : validityExpired moment msg
  · exact .inl (.inl hexp)
  · rw [if_neg hexp] at h
    obtain ⟨receiver, hnorm, h⟩ := bind_eq_ok_iff.mp h
    obtain ⟨rejected, hlists, -⟩ := bind_eq_ok_iff.mp h
    cases rejected with
    | true => exact .inl (.inr ⟨_, receiver, hnorm, rfl, hlists⟩)
    | false => exact .inr ⟨hexp, _, receiver, hnorm, rfl, hlists⟩

theorem AskedLists.stuck_iff {rejected : Bool} (h : AskedLists re router rejected msg msg') :
    Stuck router msg' ↔ Stuck router msg := by
  obtain ⟨receiver, -, rfl, -⟩ := h
  exact Iff.rfl

theorem routTry_stuck (hstuck : Stuck router msg) (hexp : ¬ validityExpired moment msg)
    (h : AskedLists re router false msg msg') :
    routTry re router resend moment msg = .ok (.again msg') := by
  rw [routTry_passed hexp h]
  obtain ⟨parts, hparts, hmem, hrefuses⟩ := h.stuck_iff.mpr hstuck
  have hne : router.smscList ≠ [] := ne_nil_of_mem hmem
  have hchoice : chooseConn re router resend moment msg' = .ok (.inr (router.partsConn parts)) := by
    unfold chooseConn
    rw [if_neg hne, hparts]
    exact if_pos hmem
  have hsent : smscconnSend router moment (router.partsConn parts) msg' = .ok (-1, msg') :=
    if_pos hrefuses
  rw [hchoice, ok_bind]
  dsimp only
  rw [hsent]
  rfl

theorem splitMsg_ok {maxOctets : Int} (hoctets : maxOctets < 2 ^ 28) (hdata : msg.msgdata.isSome) :
    ∃ parts, splitMsg moment maxOctets msg = .ok parts ∧ parts ≠ [] := by
  let args := catenateArgs (moment.splitMsgCounter % 256) maxOctets
  have hsome : (smsSplit 255 args msg moment.entropy).isSome :=
    smsSplit_terminates rfl (by decide)
  obtain ⟨r, hr⟩ := Option.isSome_iff_exists.mp hsome
  obtain ⟨raw, hraw, rfl⟩ := Option.map_eq_some_iff.mp hr
  obtain ⟨hpos, hlt⟩ := @maxPartLen_range args msg hoctets
  have hroom : cutRoom args msg = maxPartLen args msg := by
    have hcut : cutRoom args msg = toInt (maxPartLen args msg - (([] : Octstr).length : Nat)) := rfl
    rw [hcut, length_nil, Nat.cast_zero, sub_zero, toInt_of_fits (by omega) (by omega)]
  obtain ⟨len, hlen⟩ := Int.eq_ofNat_of_zero_le hpos
  obtain ⟨parts, rfl⟩ := splitLoop_ok (hroom.trans hlen) hdata (.inr (by omega)) hraw
  refine ⟨catenateParts args parts, Option.get_of_eq_some hsome hr, fun hnil => ?_⟩
  obtain ⟨_, _, part, -, -, ⟨-, rfl⟩ | ⟨-, more, rfl, -⟩⟩ := splitLoop_inv hraw
  all_goals
    have hlength := congrArg length hnil
    rw [length_catenateParts] at hlength
    cases hlength

theorem sendParts_ne {sendMsg : Sms → Int} (h : ∀ part, sendMsg part ≠ -1) :
    ∀ parts ≠ [], sendParts sendMsg parts ≠ -1
  | [], hne => absurd rfl hne
  | part :: parts, _ => by
    unfold sendParts
    split_ifs with hend
    · exact h part
    · exact sendParts_ne h parts (not_or.mp hend).2

/-- A connection that does not refuse takes a message that can be sent. -/
theorem smscconnSend_takes {conn : Nat} (hrefuses : (router.conns conn).refuses = false)
    (hsend : CanBeSent router moments msg) (n : Nat) :
    ∃ ret msg', smscconnSend router (moments n) conn msg = .ok (ret, msg') ∧ ret ≠ -1 := by
  unfold smscconnSend
  rw [if_neg (by simp [hrefuses])]
  by_cases hparts : msg.splitParts = none
  · obtain ⟨number, hnumber⟩ := Option.isSome_iff_exists.mp (hsend.receiver hparts)
    obtain ⟨result, hnorm⟩ := normalizeNumber_some (router.conns conn).unifiedPrefix number
    obtain ⟨parts, hsplit, hne⟩ := @splitMsg_ok { msg with receiver := some result } (moments n) _
      (hsend.octets conn) (hsend.text hparts)
    rw [if_neg (not_not.mpr hparts), hnumber, hnorm]
    simp only [ok_bind, hsplit]
    split_ifs
    · exact ⟨_, _, rfl, hsend.driver n conn _⟩
    · exact ⟨_, _, rfl, sendParts_ne (hsend.driver n conn) _ (mt map_eq_nil_iff.mp hne)⟩
  · exact ⟨_, _, if_pos hparts, hsend.driver n conn msg⟩

theorem AskedLists.canBeSent {rejected : Bool} (h : AskedLists re router rejected msg msg')
    (hsend : CanBeSent router moments msg) : CanBeSent router moments msg' := by
  obtain ⟨receiver, hnorm, rfl, -⟩ := h
  refine ⟨hsend.text, fun hparts => ?_, hsend.octets, hsend.driver⟩
  obtain ⟨number, hnumber⟩ := Option.isSome_iff_exists.mp (hsend.receiver hparts)
  obtain ⟨result, hresult⟩ := normalizeNumber_some router.unifiedPrefix number
  rw [hnumber, hresult] at hnorm
  cases hnorm
  rfl

theorem chooseConn_accepted {conn : Nat} (hstuck : ¬ Stuck router msg)
    (h : chooseConn re router resend moment msg = .ok (.inr conn)) :
    (router.conns conn).refuses = false := by
  unfold chooseConn at h
  split at h
  · cases h
  · split at h
    · obtain ⟨s, hs, h⟩ := bind_eq_ok_iff.mp h
      split at h
      · cases h
      · split at h
        · rename_i c hc
          cases h
          refine selectConn_willing hs conn ?_
          cases hp : s.bestPreferred with
          | none => exact .inr (by rw [hp] at hc; exact hc)
          | some best => exact .inl (by rw [hp] at hc; exact hc)
        · cases h
    · rename_i parts hparts
      split at h
      · rename_i hmem
        cases h
        by_contra hrefuses
        exact hstuck ⟨parts, hparts, hmem, by simpa using hrefuses⟩
      · cases h

theorem chooseConn_ok_iff :
    (∃ choice, chooseConn re router resend moment msg = .ok choice) ↔ Weighable re router msg := by
  unfold chooseConn Weighable
  by_cases hnil : router.smscList = []
  · rw [if_pos hnil]
    exact ⟨fun _ => .inl hnil, fun _ => ⟨_, rfl⟩⟩
  · rw [if_neg hnil]
    cases hparts : msg.splitParts with
    | some parts =>
      refine ⟨fun _ => .inr (.inl (by simp)), fun _ => ?_⟩
      dsimp only
      split
      · exact ⟨_, rfl⟩
      · exact ⟨_, rfl⟩
    | none =>
      dsimp only
      constructor
      · rintro ⟨choice, h⟩
        obtain ⟨s, hs, -⟩ := bind_eq_ok_iff.mp h
        exact .inr (.inr (selectConn_ok_iff.mp ⟨s, hs⟩))
      · rintro (h | h | h)
        · exact absurd h hnil
        · exact absurd rfl h
        · obtain ⟨s, hs⟩ := selectConn_ok_iff.mpr h
          rw [hs, ok_bind]
          split
          · exact ⟨_, rfl⟩
          · split
            · exact ⟨_, rfl⟩
            · exact ⟨_, rfl⟩

theorem smsc2Rout_over {reason : Reason}
    (h : routTry re router resend (moments n) msg = .ok (.over reason)) :
    Returns re router resend moments n msg := by
  refine ⟨1, reason, ?_⟩
  unfold smsc2Rout
  rw [h]
  rfl

theorem returns_again_iff (h : routTry re router resend (moments n) msg = .ok (.again msg')) :
    Returns re router resend moments n msg ↔ Returns re router resend moments (n + 1) msg' := by
  have hround : ∀ tries, smsc2Rout re router resend moments (tries + 1) n msg =
      smsc2Rout re router resend moments tries (n + 1) msg' := by
    intro tries
    rw [smsc2Rout, h, ok_bind]
  constructor
  · rintro ⟨tries, reason, hrun⟩
    cases tries with
    | zero => cases hrun
    | succ tries => exact ⟨tries, reason, hround tries ▸ hrun⟩
  · rintro ⟨tries, reason, hrun⟩
    exact ⟨tries + 1, reason, hround tries ▸ hrun⟩

theorem Returns.routTry (h : Returns re router resend moments n msg) :
    ∃ result, routTry re router resend (moments n) msg = .ok result := by
  obtain ⟨tries, reason, hrun⟩ := h
  cases tries with
  | zero => cases hrun
  | succ tries =>
    rw [smsc2Rout] at hrun
    obtain ⟨result, htry, -⟩ := bind_eq_ok_iff.mp hrun
    exact ⟨result, htry⟩

theorem returns_stuck_iff (hstuck : Stuck router msg) (n : Nat) :
    Returns re router resend moments n msg ↔ DismissedLater re router moments n msg := by
  constructor
  · rintro ⟨tries, reason, hrun⟩
    -- the number of tries bounds how often the message can come back
    induction tries generalizing n msg with
    | zero => cases hrun
    | succ tries ih =>
      obtain ⟨result, htry⟩ := Returns.routTry ⟨_, _, hrun⟩
      rcases dismissed_or_passed htry with hdismissed | ⟨hexp, msg', hpassed⟩
      · exact .now hdismissed
      · rw [smsc2Rout, routTry_stuck hstuck hexp hpassed] at hrun
        exact .later hexp hpassed (ih (hpassed.stuck_iff.mpr hstuck) (n + 1) hrun)
  · intro h
    induction h with
    | now hdismissed =>
      obtain ⟨reason, htry⟩ := routTry_dismissed hdismissed
      exact smsc2Rout_over htry
    | later hexp hpassed _ ih =>
      rw [returns_again_iff (routTry_stuck hstuck hexp hpassed)]
      exact ih (hpassed.stuck_iff.mpr hstuck)

theorem returns_free_iff (hsend : CanBeSent router moments msg) (hstuck : ¬ Stuck router msg)
    (n : Nat) :
    Returns re router resend moments n msg ↔
      Dismissed re router (moments n) msg ∨
        ∃ msg', AskedLists re router false msg msg' ∧ Weighable re router msg' := by
  constructor
  · intro h
    obtain ⟨result, htry⟩ := h.routTry
    rcases dismissed_or_passed htry with hdismissed | ⟨hexp, msg', hpassed⟩
    · exact .inl hdismissed
    · rw [routTry_passed hexp hpassed] at htry
      obtain ⟨choice, hchoice, -⟩ := bind_eq_ok_iff.mp htry
      exact .inr ⟨msg', hpassed, chooseConn_ok_iff.mp ⟨choice, hchoice⟩⟩
  · intro h
    by_cases hdismissed : Dismissed re router (moments n) msg
    · obtain ⟨reason, htry⟩ := routTry_dismissed hdismissed
      exact smsc2Rout_over htry
    · obtain ⟨msg', hpassed, hweighable⟩ := h.resolve_left hdismissed
      have hexp : ¬ validityExpired (moments n) msg := fun hexp => hdismissed (.inl hexp)
      obtain ⟨choice, hchoice⟩ := chooseConn_ok_iff.mpr hweighable
      cases choice with
      | inl found =>
        have htry : routTry re router resend (moments n) msg = .ok (.over found.1) := by
          rw [routTry_passed hexp hpassed, hchoice, ok_bind]
        exact smsc2Rout_over htry
      | inr conn =>
        have haccepted := chooseConn_accepted (mt hpassed.stuck_iff.mp hstuck) hchoice
        obtain ⟨ret, left, hsent, hret⟩ :=
          smscconnSend_takes haccepted (hpassed.canBeSent hsend) n
        have htry : routTry re router resend (moments n) msg = .ok (.over .success) := by
          rw [routTry_passed hexp hpassed, hchoice, ok_bind]
          dsimp only
          rw [hsent]
          exact congrArg Except.ok (if_neg hret)
        exact smsc2Rout_over htry

/-- **Routing returns** for a message that can be sent, unless it is a part of a split one whose
connection is on the list and refuses; such a part comes back only if it expires or a list rejects
it. -/
theorem smsc2Rout_returns_iff (re : RegexLib) (router : Router) (resend : Bool)
    (moments : Nat → RoutMoment) (msg : Sms) (hsend : CanBeSent router moments msg) :
    (∃ tries reason, smsc2Rout re router resend moments tries 0 msg = .ok (some reason)) ↔
      (Stuck router msg → DismissedLater re router moments 0 msg) ∧
        (¬ Stuck router msg → Dismissed re router (moments 0) msg ∨
          ∃ msg', AskedLists re router false msg msg' ∧ Weighable re router msg') := by
  by_cases hstuck : Stuck router msg
  · refine (returns_stuck_iff hstuck 0).trans ⟨fun h => ⟨fun _ => h, fun hfree => ?_⟩, fun h => ?_⟩
    · exact absurd hstuck hfree
    · exact h.1 hstuck
  · refine (returns_free_iff hsend hstuck 0).trans
      ⟨fun h => ⟨fun hs => ?_, fun _ => h⟩, fun h => ?_⟩
    · exact absurd hs hstuck
    · exact h.2 hstuck

end Tries

/-- A connection without any routing directives. -/
def plainConn (status : SmscconnStatus) (whyKilled : SmscconnKilled) : SmscConn where
  status := status
  whyKilled := whyKilled
  chksum := []
  chksumConn := []
  id := none
  allowedSmscId := none
  deniedSmscId := none
  preferredSmscId := none
  allowedSmscIdRegex := .null
  deniedSmscIdRegex := .null
  preferredSmscIdRegex := .null
  allowedPrefix := none
  allowedPrefixRegex := .null
  deniedPrefix := none
  deniedPrefixRegex := .null
  preferredPrefix := none
  preferredPrefixRegex := .null
  unifiedPrefix := none
  reroute := false
  rerouteByReceiver := .null
  rerouteByReceiverRegex := .null
  rerouteToSmsc := .null
  rerouteDlr := false
  deadStart := false

def stoppedRouter : Router where
  unifiedPrefix := none
  lists := ⟨none, none, none, none, none, none, none, none⟩
  maxOutgoingSmsQlength := 1000000
  smscList := [0]
  conns := fun _ => plainConn .dead .shutdown
  maxSmsOctets := fun _ => 140
  partsConn := fun _ => 0

/-- Three connections, of which the first is not up yet. -/
def halfOpenRouter : Router :=
  { stoppedRouter with
    smscList := [0, 1, 2]
    conns := fun conn => plainConn (if conn = 0 then .connecting else .active) .alive
    maxSmsOctets := fun _ => 20 }

def halfOpenMoment : RoutMoment where
  now := 0
  rand := 1
  outgoingSms := 0
  queued := fun _ => 7
  load := fun conn => 9 - conn
  shutdown := false
  splitMsgCounter := 0
  entropy := fun _ => .random uuidClear
  split := 4096
  sendMsg := fun _ _ => 0

def longMessage : Sms :=
  { smsCreate uuidClear with
    sender := some (ascii "100")
    receiver := some (ascii "200")
    coding := dc8bit
    msgdata := some (replicate 50 46) }

/-- A message of fifty octets on connections that take twenty. -/
theorem longMessage_returns :
    splitMsg halfOpenMoment 20 longMessage ≠ .ok [longMessage] ∧
      ∃ tries reason, smsc2Rout permissiveRegex halfOpenRouter false (fun _ => halfOpenMoment) tries
        0 longMessage = .ok (some reason) := by
  have hsend : CanBeSent halfOpenRouter (fun _ => halfOpenMoment) longMessage :=
    ⟨fun _ => rfl, fun _ => rfl, fun _ => show (20 : Int) < 2 ^ 28 by decide,
      fun _ _ _ => show (0 : Int) ≠ -1 by decide⟩
  have husable : ∀ conn ∈ halfOpenRouter.smscList,
      smscconnUsable permissiveRegex (halfOpenRouter.conns conn) longMessage = .ok 0 := by decide
  refine ⟨?_, (smsc2Rout_returns_iff permissiveRegex halfOpenRouter false (fun _ => halfOpenMoment)
    longMessage hsend).mpr ⟨?_, fun _ => .inr ⟨_, ⟨some (ascii "200"), rfl, rfl, rfl⟩, ?_⟩⟩⟩
  · decide
  · rintro ⟨parts, hparts, -⟩
    cases hparts
  · exact .inr (.inr fun conn hconn => ⟨0, husable conn hconn⟩)

def returnedPart : Sms :=
  { smsCreate uuidClear with
    sender := some (ascii "100")
    receiver := some (ascii "200")
    splitParts := some 0 }

theorem not_dismissedLater_returnedPart {moments : Nat → RoutMoment}
    (h : DismissedLater permissiveRegex stoppedRouter moments n msg) : msg ≠ returnedPart := by
  induction h with
  | now h =>
    rintro rfl
    rcases h with ⟨hvalidity, -⟩ | ⟨msg', receiver, hnorm, rfl, hlists⟩
    · exact hvalidity rfl
    · cases hlists
  | later _ hpassed _ ih =>
    rintro rfl
    obtain ⟨receiver, hnorm, rfl, -⟩ := hpassed
    cases hnorm
    exact ih rfl

/-- The part is never sent, queued or reported: the function keeps calling itself. -/
theorem returnedPart_never_returns :
    ¬ ∃ (moments : Nat → RoutMoment) (tries : Nat) (reason : Reason),
      smsc2Rout permissiveRegex stoppedRouter true moments tries 0 returnedPart =
        .ok (some reason) := by
  rintro ⟨moments, tries, reason, hrun⟩
  have hstuck : Stuck stoppedRouter returnedPart := ⟨0, rfl, mem_cons_self, rfl⟩
  exact not_dismissedLater_returnedPart ((returns_stuck_iff hstuck 0).mp ⟨tries, reason, hrun⟩) rfl

end Kannel
