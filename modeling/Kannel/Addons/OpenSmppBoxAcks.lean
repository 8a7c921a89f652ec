import Kannel.Addons.OpenSmppBoxDeliver
import Kannel.Lib.Machine

/-!
# Acknowledgements of opensmppbox

A message of the bearerbox goes out in one or more PDUs, by any session of the client. Its
acknowledgement waits at the session that sends, and goes out over that session's connection.
-/

namespace Kannel
open List
open Machine (of_guard)

inductive SmppLogin
  | notLoggedIn | transmitter | receiver | transceiver
  deriving DecidableEq

structure BoxSession where
  login : SmppLogin
  boxcId : Octstr
  alive : Bool
  listed : Bool
  smppPduCounter : Nat
  deliverAcks : Nat → Option Ack

structure BoxAcks where
  sessions : List BoxSession
  sent : List (Nat × Ack)
  seen : List Uuid

inductive BoxAction
  | connect (boxcId : Octstr)
  | bind (i : Nat) (login : SmppLogin) (boxcId : Octstr)
  | die (i : Nat)
  | leave (i : Nat)
  | sms (b : Nat) (msg : Sms) (made : Option (Nat × Nat))
  | deliverSmResp (i seq status : Nat)

def BoxSession.receives (box : BoxSession) : Bool :=
  box.login = .receiver ∨ box.login = .transceiver

def findReceiverBox (sessions : List BoxSession) (b : Nat) (box : BoxSession) : Nat :=
  if box.receives then b
  else
    (sessions.findIdx? fun other =>
      other.listed && other.receives && other.boxcId == box.boxcId && other.alive).getD b

def ackSuccess : Int := 0

def ackFailed : Int := 1

def Unaddressed (msg : Sms) : Prop :=
  (msg.sender.getD []).length = 0 ∨ (msg.receiver.getD []).length = 0

instance decidableUnaddressed (msg : Sms) : Decidable (Unaddressed msg) :=
  inferInstanceAs (Decidable (_ ∨ _))

def BoxSession.passOn (mack : Ack) (made : Nat × Nat) (box : BoxSession) : BoxSession :=
  { box with
    smppPduCounter := box.smppPduCounter + made.1 + made.2
    deliverAcks :=
      if made.2 = 0 then box.deliverAcks
      else Function.update box.deliverAcks (box.smppPduCounter + made.1) (some mack) }

variable {mack : Ack} {status i seq n : Nat} {f : BoxSession → BoxSession} {a : BoxAction}
  {s' : BoxAcks} {trace : List (BoxAcks × BoxAction)} {id : Uuid}

namespace BoxAcks

def send (s : BoxAcks) (i : Nat) (ack : Ack) : BoxAcks := { s with sent := s.sent ++ [(i, ack)] }

def update (s : BoxAcks) (i : Nat) (f : BoxSession → BoxSession) : BoxAcks :=
  { s with sessions := s.sessions.modify i f }

def takeSms (s : BoxAcks) (b : Nat) (box : BoxSession) (msg : Sms) (made : Option (Nat × Nat)) :
    BoxAcks :=
  let s := { s with seen := msg.id :: s.seen }
  if Unaddressed msg then s.send b ⟨ackFailed, msg.time, msg.id⟩
  else
    let receiver := findReceiverBox s.sessions b box
    match made with
    | none =>
      (s.update receiver fun box => { box with smppPduCounter := box.smppPduCounter + 1 }).send b
        ⟨ackFailed, msg.time, msg.id⟩
    | some made => s.update receiver (.passOn ⟨ackSuccess, msg.time, msg.id⟩ made)

def replied (status : Nat) (mack : Ack) : Ack :=
  if status ≠ 0 then { mack with nack := ackFailed } else mack

@[simp] theorem replied_id (status : Nat) (mack : Ack) : (replied status mack).id = mack.id := by
  unfold replied
  split_ifs <;> rfl

variable {s : BoxAcks} {b : Nat} {box : BoxSession} {made : Option (Nat × Nat)}

theorem status_of_replied_success (h : (replied status mack).nack = ackSuccess) : status = 0 := by
  by_contra hne
  rw [replied, if_pos hne] at h
  cases h

def takeResp (s : BoxAcks) (i : Nat) (box : BoxSession) (seq status : Nat) : BoxAcks :=
  match box.deliverAcks seq with
  | none => s
  | some mack =>
    (s.send i (replied status mack)).update i fun box =>
      { box with deliverAcks := Function.update box.deliverAcks seq none }

def step (s : BoxAcks) : BoxAction → Option BoxAcks
  | .connect boxcId =>
    some { s with sessions := s.sessions ++ [⟨.notLoggedIn, boxcId, true, true, 0, fun _ => none⟩] }
  | .bind i login boxcId =>
    some (s.update i fun box => { box with login := login, boxcId := boxcId })
  | .die i => some (s.update i fun box => { box with alive := false })
  | .leave i =>
    (s.sessions[i]?).bind fun box =>
      if box.alive then none
      else some (s.update i fun box => { box with listed := false, deliverAcks := fun _ => none })
  | .sms b msg made =>
    (s.sessions[b]?).bind fun box =>
      if box.alive ∧ msg.id ∉ s.seen then some (s.takeSms b box msg made) else none
  | .deliverSmResp i seq status =>
    (s.sessions[i]?).bind fun box =>
      if box.alive then some (s.takeResp i box seq status) else none

def start : BoxAcks := ⟨[], [], []⟩

def pdusOf (s : BoxAcks) (b : Nat) (msg : Sms) (made : Option (Nat × Nat)) : List (Nat × Nat) :=
  match s.sessions[b]?, made with
  | some box, some made =>
    if Unaddressed msg then []
    else
      let receiver := findReceiverBox s.sessions b box
      match s.sessions[receiver]? with
      | some other =>
        (range' (other.smppPduCounter + made.1) made.2).map fun seq => (receiver, seq)
      | none => []
  | _, _ => []

def acksOf (s : BoxAcks) (id : Uuid) : List (Nat × Ack) := s.sent.filter fun x => x.2.id = id

/-- At most one acknowledgement, over the connection the message came from, and a success only
when all its PDUs had been answered with status 0. -/
def AckedRightly (b : Nat) (id : Uuid) (pdus : List (Nat × Nat))
    (trace : List (BoxAcks × BoxAction)) (s : BoxAcks) : Prop :=
  (s.acksOf id).length ≤ 1 ∧
    ∀ x ∈ s.acksOf id, x.1 = b ∧
      (x.2.nack = ackSuccess →
        ∀ pdu ∈ pdus, BoxAction.deliverSmResp pdu.1 pdu.2 0 ∈ trace.map Prod.snd)

def Holds (s : BoxAcks) (i seq : Nat) (ack : Ack) : Prop :=
  ∃ box, s.sessions[i]? = some box ∧ box.deliverAcks seq = some ack

theorem holds_update {j : Nat} {ack : Ack} :
    (s.update i f).Holds j seq ack ↔
      ∃ box, s.sessions[j]? = some box ∧
        (if i = j then f box else box).deliverAcks seq = some ack := by
  unfold Holds update
  rw [List.getElem?_modify]
  constructor
  · rintro ⟨box, hbox, hack⟩
    obtain ⟨old, hold, rfl⟩ := Option.map_eq_some_iff.mp hbox
    exact ⟨old, hold, hack⟩
  · rintro ⟨box, hbox, hack⟩
    exact ⟨_, Option.map_eq_some_iff.mpr ⟨box, hbox, rfl⟩, hack⟩

theorem holds_of_update {j : Nat} {ack : Ack}
    (hf : ∀ box n ack, (f box).deliverAcks n = some ack → box.deliverAcks n = some ack)
    (h : (s.update i f).Holds j seq ack) : s.Holds j seq ack := by
  obtain ⟨box, hbox, hack⟩ := holds_update.mp h
  split_ifs at hack
  · exact ⟨box, hbox, hf box seq ack hack⟩
  · exact ⟨box, hbox, hack⟩

structure Quiet (s s' : BoxAcks) : Prop where
  sent : s'.sent = s.sent
  seen : s'.seen = s.seen
  holds : ∀ i seq ack, s'.Holds i seq ack → s.Holds i seq ack

structure Arrival (id : Uuid) (s s' : BoxAcks) : Prop where
  fresh : id ∉ s.seen
  seen : s'.seen = id :: s.seen
  sent : ∃ new, s'.sent = s.sent ++ new ∧ ∀ x ∈ new, x.2.id = id
  holds : ∀ i seq ack, s'.Holds i seq ack → s.Holds i seq ack ∨ ack.id = id

structure Answer (i seq status : Nat) (mack : Ack) (s s' : BoxAcks) : Prop where
  held : s.Holds i seq mack
  seen : s'.seen = s.seen
  sent : s'.sent = s.sent ++ [(i, replied status mack)]
  holds : ∀ j n ack, s'.Holds j n ack → s.Holds j n ack ∧ (j, n) ≠ (i, seq)

theorem quiet_update
    (hf : ∀ box n ack, (f box).deliverAcks n = some ack → box.deliverAcks n = some ack) :
    Quiet s (s.update i f) :=
  ⟨rfl, rfl, fun _ _ _ h => holds_of_update hf h⟩

theorem quiet_connect (h : ∀ n, box.deliverAcks n = none) :
    Quiet s { s with sessions := s.sessions ++ [box] } := by
  refine ⟨rfl, rfl, ?_⟩
  rintro i seq ack ⟨other, hother, hack⟩
  rcases Nat.lt_or_ge i s.sessions.length with hlt | hge
  · have hold : (s.sessions ++ [box])[i]? = s.sessions[i]? := List.getElem?_append_left hlt
    exact ⟨other, hold.symm.trans hother, hack⟩
  · -- the new session holds nothing
    have hnew : (s.sessions ++ [box])[i]? = [box][i - s.sessions.length]? :=
      List.getElem?_append_right hge
    have hbox : other = box := by
      have := mem_of_getElem? (hnew.symm.trans hother)
      simpa using this
    rw [hbox, h seq] at hack
    cases hack

theorem arrival_takeSms {msg : Sms} (hfresh : msg.id ∉ s.seen) :
    Arrival msg.id s (s.takeSms b box msg made) := by
  unfold takeSms
  by_cases haddr : Unaddressed msg
  · rw [if_pos haddr]
    refine ⟨hfresh, rfl, ⟨_, rfl, by simp⟩, fun i seq ack h => .inl h⟩
  · rw [if_neg haddr]
    cases made with
    | none =>
      have hf : ∀ (box : BoxSession) n ack,
          ({ box with smppPduCounter := box.smppPduCounter + 1 } : BoxSession).deliverAcks n =
            some ack → box.deliverAcks n = some ack := fun _ _ _ h => h
      refine ⟨hfresh, rfl, ⟨_, rfl, by simp⟩, fun i seq ack h => .inl ?_⟩
      exact holds_of_update (s := s) hf h
    | some made =>
      refine ⟨hfresh, rfl, ⟨[], by simp [update], by simp⟩, fun i seq ack h => ?_⟩
      obtain ⟨old, hold, hack⟩ := holds_update.mp h
      split_ifs at hack
      · unfold BoxSession.passOn at hack
        dsimp only at hack
        split_ifs at hack
        · exact .inl ⟨old, hold, hack⟩
        · by_cases hseq : seq = old.smppPduCounter + made.1
          · rw [hseq, Function.update_self] at hack
            cases hack
            exact .inr rfl
          · rw [Function.update_of_ne hseq] at hack
            exact .inl ⟨old, hold, hack⟩
      · exact .inl ⟨old, hold, hack⟩

theorem answer_takeResp (hbox : s.sessions[i]? = some box)
    (hmack : box.deliverAcks seq = some mack) :
    Answer i seq status mack s (s.takeResp i box seq status) := by
  unfold takeResp
  rw [hmack]
  refine ⟨⟨box, hbox, hmack⟩, rfl, rfl, fun j n ack h => ?_⟩
  obtain ⟨old, hold, hack⟩ := holds_update.mp h
  split_ifs at hack with hij
  · dsimp only at hack
    by_cases hseq : n = seq
    · rw [hseq, Function.update_self] at hack
      cases hack
    · rw [Function.update_of_ne hseq] at hack
      exact ⟨⟨old, hold, hack⟩, fun h => hseq (congrArg Prod.snd h)⟩
  · exact ⟨⟨old, hold, hack⟩, fun h => hij (congrArg Prod.fst h).symm⟩

theorem step_cases (h : step s a = some s') :
    Quiet s s' ∨ (∃ id, Arrival id s s') ∨
      ∃ i seq status mack, a = .deliverSmResp i seq status ∧ Answer i seq status mack s s' := by
  cases a with
  | connect boxcId =>
    cases h
    exact .inl (quiet_connect fun _ => rfl)
  | bind i login boxcId =>
    cases h
    exact .inl (quiet_update fun _ _ _ h => h)
  | die i =>
    cases h
    exact .inl (quiet_update fun _ _ _ h => h)
  | leave i =>
    obtain ⟨box, -, h⟩ := Option.bind_eq_some_iff.mp h
    split_ifs at h
    cases h
    refine .inl (quiet_update fun _ _ _ h => ?_)
    cases h
  | sms b msg made =>
    obtain ⟨box, -, h⟩ := Option.bind_eq_some_iff.mp h
    obtain ⟨hguard, rfl⟩ := of_guard h
    exact .inr (.inl ⟨msg.id, arrival_takeSms hguard.2⟩)
  | deliverSmResp i seq status =>
    obtain ⟨box, hbox, h⟩ := Option.bind_eq_some_iff.mp h
    obtain ⟨-, rfl⟩ := of_guard h
    cases hmack : box.deliverAcks seq with
    | none =>
      refine .inl ?_
      rw [takeResp, hmack]
      exact ⟨rfl, rfl, fun _ _ _ h => h⟩
    | some mack => exact .inr (.inr ⟨i, seq, status, mack, rfl, answer_takeResp hbox hmack⟩)

structure Known (s : BoxAcks) : Prop where
  holds : ∀ i seq ack, s.Holds i seq ack → ack.id ∈ s.seen
  sent : ∀ x ∈ s.sent, x.2.id ∈ s.seen

theorem known_step (hs : Known s) (h : step s a = some s') : Known s' := by
  rcases step_cases h with hq | ⟨id, ha⟩ | ⟨i, seq, status, mack, -, ha⟩
  · refine ⟨fun i seq ack h => ?_, fun x hx => ?_⟩
    · rw [hq.seen]
      exact hs.holds i seq ack (hq.holds i seq ack h)
    · rw [hq.sent] at hx
      rw [hq.seen]
      exact hs.sent x hx
  · obtain ⟨new, hnew, hid⟩ := ha.sent
    refine ⟨fun i seq ack h => ?_, fun x hx => ?_⟩
    · rw [ha.seen]
      rcases ha.holds i seq ack h with hold | hown
      · exact mem_cons_of_mem _ (hs.holds i seq ack hold)
      · rw [hown]
        exact mem_cons_self
    · rw [hnew] at hx
      rw [ha.seen]
      rcases mem_append.mp hx with hx | hx
      · exact mem_cons_of_mem _ (hs.sent x hx)
      · rw [hid x hx]
        exact mem_cons_self
  · refine ⟨fun j n ack h => ?_, fun x hx => ?_⟩
    · rw [ha.seen]
      exact hs.holds j n ack (ha.holds j n ack h).1
    · rw [ha.sent] at hx
      rw [ha.seen]
      rcases mem_append.mp hx with hx | hx
      · exact hs.sent x hx
      · rw [mem_singleton.mp hx, replied_id]
        exact hs.holds i seq mack ha.held

theorem known_run (hrun : Machine.Run step start trace s) : Known s := by
  refine hrun.invariant ⟨?_, by simp [start]⟩ fun s a s' hs h => known_step hs h
  rintro i seq ack ⟨box, hbox, -⟩
  cases hbox

def Tracked (b n : Nat) (id : Uuid) (trace : List (BoxAcks × BoxAction)) (s : BoxAcks) : Prop :=
  id ∈ s.seen ∧
    ((s.acksOf id = [] ∧ ∀ i seq ack, s.Holds i seq ack → ack.id = id → (i, seq) = (b, n)) ∨
      ∃ ack, s.acksOf id = [(b, ack)] ∧
        (ack.nack = ackSuccess → BoxAction.deliverSmResp b n 0 ∈ trace.map Prod.snd) ∧
        ∀ i seq ack, s.Holds i seq ack → ack.id ≠ id)

theorem acksOf_append {new : List (Nat × Ack)} (h : s'.sent = s.sent ++ new) (id : Uuid) :
    s'.acksOf id = s.acksOf id ++ new.filter fun x => x.2.id = id := by
  rw [acksOf, h, filter_append]
  rfl

theorem tracked_frame (ht : Tracked b n id trace s) (hseen : id ∈ s'.seen)
    (hacks : s'.acksOf id = s.acksOf id)
    (hholds : ∀ i seq ack, s'.Holds i seq ack → ack.id = id → s.Holds i seq ack) :
    Tracked b n id (trace ++ [(s, a)]) s' := by
  refine ⟨hseen, ?_⟩
  rw [hacks]
  rcases ht.2 with ⟨hnone, hwaits⟩ | ⟨ack, hone, hsuccess, hnowhere⟩
  · exact .inl ⟨hnone, fun i seq ack h hid => hwaits i seq ack (hholds i seq ack h hid) hid⟩
  · refine .inr ⟨ack, hone, fun h => ?_, fun i seq ack h hid => ?_⟩
    · rw [map_append]
      exact mem_append_left _ (hsuccess h)
    · exact hnowhere i seq ack (hholds i seq ack h hid) hid

theorem tracked_answer (ht : Tracked b n id trace s) (ha : Answer i seq status mack s s')
    (hid : mack.id = id) : Tracked b n id (trace ++ [(s, .deliverSmResp i seq status)]) s' := by
  rcases ht.2 with ⟨hnone, hwaits⟩ | ⟨ack, -, -, hnowhere⟩
  · obtain ⟨rfl, rfl⟩ := Prod.mk.inj (hwaits i seq mack ha.held hid)
    refine ⟨ha.seen ▸ ht.1,
      .inr ⟨replied status mack, ?_, fun hsuccess => ?_, fun j m ack h hack => ?_⟩⟩
    · rw [acksOf_append ha.sent, hnone]
      simp [hid]
    · rw [status_of_replied_success hsuccess]
      simp
    · obtain ⟨hold, hne⟩ := ha.holds j m ack h
      exact hne (hwaits j m ack hold hack)
  · exact absurd hid (hnowhere i seq mack ha.held)

theorem tracked_step (ht : Tracked b n id trace s) (h : step s a = some s') :
    Tracked b n id (trace ++ [(s, a)]) s' := by
  rcases step_cases h with hq | ⟨id', ha⟩ | ⟨i, seq, status, mack, rfl, ha⟩
  · refine tracked_frame ht (hq.seen ▸ ht.1) ?_ fun i seq ack h _ => hq.holds i seq ack h
    rw [acksOf, hq.sent]
    rfl
  · -- another message, since this one has been seen
    have hother : id' ≠ id := by
      rintro rfl
      exact ha.fresh ht.1
    obtain ⟨new, hnew, hid⟩ := ha.sent
    refine tracked_frame ht ?_ ?_ fun i seq ack h hack => ?_
    · rw [ha.seen]
      exact mem_cons_of_mem _ ht.1
    · rw [acksOf_append hnew, filter_eq_nil_iff.mpr, append_nil]
      intro x hx
      rw [hid x hx]
      simpa using hother
    · rcases ha.holds i seq ack h with hold | hown
      · exact hold
      · exact absurd (hown.symm.trans hack) hother
  · by_cases hid : mack.id = id
    · exact tracked_answer ht ha hid
    · refine tracked_frame ht (ha.seen ▸ ht.1) ?_ fun j m ack h _ => (ha.holds j m ack h).1
      rw [acksOf_append ha.sent]
      simp [hid]

theorem tracked_run (ht : Tracked b n id [] s) (hrun : Machine.Run step s trace s') :
    Tracked b n id trace s' := by
  induction hrun with
  | start => exact ht
  | next _ hs ih => exact tracked_step ih hs

theorem findReceiverBox_alive {sessions : List BoxSession} (hbox : sessions[b]? = some box)
    (halive : box.alive = true) :
    ∃ other, sessions[findReceiverBox sessions b box]? = some other ∧ other.alive = true := by
  unfold findReceiverBox
  split_ifs
  · exact ⟨box, hbox, halive⟩
  · cases hfind : sessions.findIdx? fun other =>
        other.listed && other.receives && other.boxcId == box.boxcId && other.alive with
    | none => exact ⟨box, hbox, halive⟩
    | some r =>
      obtain ⟨hr, hother, -⟩ := List.findIdx?_eq_some_iff_getElem.mp hfind
      refine ⟨sessions[r], List.getElem?_eq_getElem hr, ?_⟩
      simp only [Bool.and_eq_true] at hother
      exact hother.2

theorem AckedRightly.of_tracked {pdus : List (Nat × Nat)} (h : Tracked b n id trace s)
    (hpdus : ∀ pdu ∈ pdus, pdu = (b, n)) : AckedRightly b id pdus trace s := by
  rcases h.2 with ⟨hnone, -⟩ | ⟨ack, hone, hsuccess, -⟩
  · rw [AckedRightly, hnone]
    exact ⟨Nat.zero_le _, by simp⟩
  · rw [AckedRightly, hone]
    refine ⟨Nat.le_refl _, fun x hx => ?_⟩
    obtain rfl := mem_singleton.mp hx
    refine ⟨rfl, fun h pdu hpdu => ?_⟩
    rw [hpdus pdu hpdu]
    exact hsuccess h

theorem acksOf_fresh (hs : Known s) {id : Uuid} (h : id ∉ s.seen) : s.acksOf id = [] := by
  refine filter_eq_nil_iff.mpr fun x hx hid => h ?_
  rw [← of_decide_eq_true hid]
  exact hs.sent x hx

section Arrivals
variable {msg : Sms}

theorem takeSms_refused (s : BoxAcks) (box : BoxSession) (h : Unaddressed msg ∨ made = none) :
    (s.takeSms b box msg made).sent = s.sent ++ [(b, ⟨ackFailed, msg.time, msg.id⟩)] ∧
      ∀ i seq ack, (s.takeSms b box msg made).Holds i seq ack → s.Holds i seq ack := by
  unfold takeSms
  by_cases haddr : Unaddressed msg
  · rw [if_pos haddr]
    exact ⟨rfl, fun i seq ack h => h⟩
  · rw [if_neg haddr, h.resolve_left haddr]
    have hcounter : ∀ (box : BoxSession) n ack,
        ({ box with smppPduCounter := box.smppPduCounter + 1 } : BoxSession).deliverAcks n =
          some ack → box.deliverAcks n = some ack := fun _ _ _ h => h
    exact ⟨rfl, fun i seq ack h => holds_of_update (s := s) hcounter h⟩

section
variable (hs : Known s) (hfresh : msg.id ∉ s.seen)
include hs hfresh

theorem tracked_refused (h : Unaddressed msg ∨ made = none) (n : Nat) :
    Tracked b n msg.id [] (s.takeSms b box msg made) := by
  obtain ⟨hsent, hholds⟩ := takeSms_refused (b := b) s box h
  have harrival : Arrival msg.id s (s.takeSms b box msg made) := arrival_takeSms hfresh
  refine ⟨by rw [harrival.seen]; exact mem_cons_self,
    .inr ⟨⟨ackFailed, msg.time, msg.id⟩, ?_, fun h => ?_, fun i seq ack h hid => ?_⟩⟩
  · rw [acksOf_append hsent, acksOf_fresh hs hfresh]
    simp
  · cases h
  · refine hfresh ?_
    rw [← hid]
    exact hs.holds i seq ack (hholds i seq ack h)

variable {made : Nat × Nat}

theorem tracked_passedOn (hbox : s.sessions[b]? = some box) (haddr : ¬ Unaddressed msg)
    (hself : made.2 = 0 ∨ findReceiverBox s.sessions b box = b) :
    Tracked b (box.smppPduCounter + made.1) msg.id [] (s.takeSms b box msg (some made)) := by
  have harrival : Arrival msg.id s (s.takeSms b box msg (some made)) := arrival_takeSms hfresh
  refine ⟨by rw [harrival.seen]; exact mem_cons_self, .inl ⟨?_, fun i seq ack h hid => ?_⟩⟩
  · rw [takeSms, if_neg haddr]
    exact acksOf_fresh hs hfresh
  · have hnew : ¬ s.Holds i seq ack := fun hold => hfresh (hid ▸ hs.holds i seq ack hold)
    rw [takeSms, if_neg haddr] at h
    obtain ⟨old, hold, hack⟩ := holds_update.mp h
    split_ifs at hack with hi
    · unfold BoxSession.passOn at hack
      dsimp only at hack
      split_ifs at hack with hzero
      · exact absurd ⟨old, hold, hack⟩ hnew
      · rw [hself.resolve_left hzero] at hi
        subst hi
        rw [hbox] at hold
        cases hold
        by_cases hseq : seq = box.smppPduCounter + made.1
        · rw [hseq]
        · rw [Function.update_of_ne hseq] at hack
          exact absurd ⟨box, hbox, hack⟩ hnew
    · exact absurd ⟨old, hold, hack⟩ hnew

theorem first_response (hbox : s.sessions[b]? = some box) (halive : box.alive = true)
    (haddr : ¬ Unaddressed msg) (hmade : made.2 ≠ 0) :
    ∃ other t, s.sessions[findReceiverBox s.sessions b box]? = some other ∧
      step (s.takeSms b box msg (some made))
        (.deliverSmResp (findReceiverBox s.sessions b box) (other.smppPduCounter + made.1) 0) =
          some t ∧
      t.acksOf msg.id = [(findReceiverBox s.sessions b box, ⟨ackSuccess, msg.time, msg.id⟩)] := by
  obtain ⟨other, hother, halive'⟩ := findReceiverBox_alive hbox halive
  have htake : s.takeSms b box msg (some made) =
      ({ s with seen := msg.id :: s.seen } : BoxAcks).update (findReceiverBox s.sessions b box)
        (.passOn ⟨ackSuccess, msg.time, msg.id⟩ made) := by
    rw [takeSms, if_neg haddr]
  have hsession : (s.takeSms b box msg (some made)).sessions[findReceiverBox s.sessions b box]? =
      some (other.passOn ⟨ackSuccess, msg.time, msg.id⟩ made) := by
    rw [htake, update]
    simp [hother]
  have hwaits : (other.passOn ⟨ackSuccess, msg.time, msg.id⟩ made).deliverAcks
      (other.smppPduCounter + made.1) = some ⟨ackSuccess, msg.time, msg.id⟩ := by
    rw [BoxSession.passOn]
    simp [hmade]
  have hstep : step (s.takeSms b box msg (some made))
      (.deliverSmResp (findReceiverBox s.sessions b box) (other.smppPduCounter + made.1) 0) =
        some ((s.takeSms b box msg (some made)).takeResp (findReceiverBox s.sessions b box)
          (other.passOn ⟨ackSuccess, msg.time, msg.id⟩ made)
          (other.smppPduCounter + made.1) 0) := by
    rw [step, hsession, Option.bind_some, if_pos]
    exact halive'
  have hnone : (s.takeSms b box msg (some made)).acksOf msg.id = [] := by
    rw [htake]
    exact acksOf_fresh hs hfresh
  refine ⟨other, _, hother, hstep, ?_⟩
  rw [acksOf_append (answer_takeResp hsession hwaits).sent, hnone]
  simp [replied]

end

theorem pdusOf_refused (s : BoxAcks) (b : Nat) (h : Unaddressed msg ∨ made = none) :
    s.pdusOf b msg made = [] := by
  unfold pdusOf
  split
  · rw [if_pos (h.resolve_right (by simp))]
  · rfl

theorem pdusOf_passedOn (hbox : s.sessions[b]? = some box) (haddr : ¬ Unaddressed msg)
    {other : BoxSession} (hother : s.sessions[findReceiverBox s.sessions b box]? = some other)
    (made : Nat × Nat) :
    s.pdusOf b msg (some made) =
      (range' (other.smppPduCounter + made.1) made.2).map
        fun seq => (findReceiverBox s.sessions b box, seq) := by
  unfold pdusOf
  rw [hbox]
  dsimp only
  rw [if_neg haddr, hother]

end Arrivals

/-- The message is refused, or nothing is made of it, or one PDU that goes out over
the session it came in by. -/
def Straight (s : BoxAcks) (b : Nat) (msg : Sms) (made : Option (Nat × Nat)) : Prop :=
  ∀ box, s.sessions[b]? = some box → ∀ k, made = some k → ¬ Unaddressed msg →
    k.2 = 0 ∨ (k.2 = 1 ∧ findReceiverBox s.sessions b box = b)

/-- **Acknowledgements.**  In every run a message is acknowledged rightly exactly if it is
refused or passed on in one PDU over the session itself. -/
theorem acked_rightly_iff {s s' : BoxAcks} {before : List (BoxAcks × BoxAction)} {b : Nat}
    {msg : Sms} {made : Option (Nat × Nat)} (hrun : Machine.Run step start before s)
    (h : step s (.sms b msg made) = some s') :
    (∀ trace t, Machine.Run step s' trace t → AckedRightly b msg.id (s.pdusOf b msg made) trace t) ↔
      s.Straight b msg made := by
  have hs := known_run hrun
  obtain ⟨box, hbox, h⟩ := Option.bind_eq_some_iff.mp h
  obtain ⟨⟨halive, hfresh⟩, rfl⟩ := of_guard h
  constructor
  · -- the response to the first PDU comes first
    rintro hall _ hbox' made rfl haddr
    cases hbox.symm.trans hbox'
    by_cases hmade : made.2 = 0
    · exact .inl hmade
    refine .inr ?_
    obtain ⟨other, t, hother, hstep, hacks⟩ := first_response hs hfresh hbox halive haddr hmade
    obtain ⟨-, hright⟩ := hall _ t (.next .start hstep)
    rw [hacks] at hright
    obtain ⟨hself, hanswered⟩ := hright _ (mem_singleton_self _)
    refine ⟨?_, hself⟩
    by_contra hmany
    have hsecond : (findReceiverBox s.sessions b box, other.smppPduCounter + made.1 + 1) ∈
        s.pdusOf b msg (some made) := by
      rw [pdusOf_passedOn hbox haddr hother]
      refine List.mem_map_of_mem ?_
      rw [mem_range'_1]
      omega
    simpa using hanswered rfl _ hsecond
  · intro hstraight trace t hrun'
    by_cases hrefused : Unaddressed msg ∨ made = none
    · refine .of_tracked (tracked_run (tracked_refused hs hfresh hrefused 0) hrun') ?_
      rw [pdusOf_refused s b hrefused]
      simp
    · obtain ⟨haddr, hmade⟩ := not_or.mp hrefused
      obtain ⟨made, rfl⟩ := Option.ne_none_iff_exists'.mp hmade
      obtain ⟨other, hother, -⟩ := findReceiverBox_alive hbox halive
      have hcase := hstraight box hbox made rfl haddr
      refine .of_tracked (tracked_run (tracked_passedOn hs hfresh hbox haddr
        (hcase.imp_right And.right)) hrun') ?_
      rw [pdusOf_passedOn hbox haddr hother]
      rcases hcase with hzero | ⟨hone, hself⟩
      · simp [hzero]
      · rw [hself] at hother ⊢
        cases hbox.symm.trans hother
        simp [hone]

def oneSession : BoxAcks :=
  ⟨[⟨.transceiver, ascii "client", true, true, 0, fun _ => none⟩], [], []⟩

theorem oneSession_run : ∃ trace, Machine.Run step start trace oneSession := by
  have hexec : Machine.exec step start
    [.connect (ascii "box"), .bind 0 .transceiver (ascii "client")] = some (_, oneSession) := rfl
  exact ⟨_, Machine.run_of_exec hexec⟩

theorem oneSession_acked_rightly :
    ∃ s', step oneSession (.sms 0 (incomingText [72]) (some (0, 1))) = some s' ∧
      ∀ trace t, Machine.Run step s' trace t →
        AckedRightly 0 (incomingText [72]).id
          (oneSession.pdusOf 0 (incomingText [72]) (some (0, 1))) trace t := by
  obtain ⟨before, hrun⟩ := oneSession_run
  refine ⟨_, rfl, (acked_rightly_iff hrun rfl).mpr ?_⟩
  rintro box hbox k hk -
  cases hbox
  cases hk
  exact .inr ⟨rfl, rfl⟩

def twoSessions : BoxAcks :=
  ⟨[⟨.transmitter, ascii "client", true, true, 0, fun _ => none⟩,
    ⟨.receiver, ascii "client", true, true, 0, fun _ => none⟩], [], []⟩

theorem twoSessions_run : ∃ trace, Machine.Run step start trace twoSessions := by
  have hexec : Machine.exec step start
    [.connect (ascii "box"), .connect (ascii "box"), .bind 0 .transmitter (ascii "client"),
      .bind 1 .receiver (ascii "client")] = some (_, twoSessions) := rfl
  exact ⟨_, Machine.run_of_exec hexec⟩

/-- Acknowledged over the connection of the second session, as soon as the first part is
answered. -/
theorem twoSessions_acked_wrongly :
    ∃ before s' trace t, Machine.Run step start before twoSessions ∧
      step twoSessions (.sms 0 (incomingText [72]) (some (1, 2))) = some s' ∧
      Machine.Run step s' trace t ∧
      ¬ AckedRightly 0 (incomingText [72]).id
        (twoSessions.pdusOf 0 (incomingText [72]) (some (1, 2))) trace t := by
  obtain ⟨before, hrun⟩ := twoSessions_run
  refine ⟨before, _, _, _, hrun, rfl, .next (a := .deliverSmResp 1 1 0) .start rfl, ?_⟩
  rintro ⟨-, hright⟩
  have hconnection : 1 = 0 :=
    (hright (1, ⟨ackSuccess, (incomingText [72]).time, (incomingText [72]).id⟩) mem_cons_self).1
  cases hconnection

end BoxAcks
end Kannel
