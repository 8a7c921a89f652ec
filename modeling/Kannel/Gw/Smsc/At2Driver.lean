import Kannel.Gw.Smsc.At2Pdu
import Kannel.Gw.Smsc.SmppSession

/-!
# The driver of a modem

One thread takes a message from its queue, hands it over and waits for the answer.
`smscconn_send` holds `flow_mutex`; the callback of the shutdown holds none, and empties the
queue meanwhile.
-/

namespace Kannel
open Machine (of_guard)

inductive At2Point
  | connecting | testing | serving
  | encoding (msg : MsgObject)
  | prompted (msg : MsgObject)
  | closing | leaving | destroyed | dead
  deriving DecidableEq

def At2Point.hand : At2Point → List MsgObject
  | .encoding msg => [msg]
  | .prompted msg => [msg]
  | _ => []

structure At2 where
  thread : At2Point
  killed : Bool
  shutdown : Bool
  outgoingQueue : List MsgObject
  sending : Bool
  draining : Nat
  drained : List MsgObject
  accepted : Nat
  reports : List Report
  lost : List MsgObject

def at2Create : At2 where
  thread := .connecting
  killed := false
  shutdown := false
  outgoingQueue := []
  sending := false
  draining := 0
  drained := []
  accepted := 0
  reports := []
  lost := []

structure At2Driver where
  pdu : At2Conf
  myNumber : Option Octstr

inductive At2Action
  | enter
  | addMsg (sms : Sms)
  | leave
  | shutdownCb (finishSending : Bool)
  | drain
  | drainReport (msg : MsgObject)
  | drainEnd
  | connect (opened : Bool)
  | test | reconnect | idle | take
  | command (now ret : Int)
  | answer (ret : Int)
  | close | destroy | die

@[simp] theorem Report.msg_failed (msg : MsgObject) (reason : FailReason) :
    (Report.failed msg reason).msg = msg := rfl

namespace At2

def report (s : At2) (r : Report) : At2 := { s with reports := r :: s.reports }

def removeMsg (s : At2) : Option (MsgObject × At2) :=
  (MaxQueue.pop Smpp.lowerPriority s.outgoingQueue).map fun (msg, rest) =>
    (msg, { s with outgoingQueue := rest })

def present (s : At2) : Bool := s.thread ≠ .destroyed ∧ s.thread ≠ .dead

def withMyNumber (conf : At2Driver) (sms : Sms) : Sms :=
  if (conf.myNumber.getD []).length ≠ 0 then { sms with sender := conf.myNumber } else sms

def sendCommand (conf : At2Driver) (now ret : Int) (msg : MsgObject) (s : At2) : Option At2 :=
  let msg := { msg with sms := withMyNumber conf msg.sms }
  match at2PduEncode conf.pdu now msg.sms with
  | .error _ => none
  | .ok none => some { s with thread := .testing, lost := msg :: s.lost }
  | .ok (some (_, cut)) =>
    let msg := { msg with sms := cut }
    if ret = 1 then some { s with thread := .prompted msg }
    else some ({ s with thread := .testing }.report (.failed msg .temporarily))

def step (conf : At2Driver) (s : At2) : At2Action → Option At2
  | .enter =>
    if s.sending = false ∧ s.killed = false ∧ s.thread ≠ .dead then
      some { s with sending := true }
    else none
  | .addMsg sms =>
    if s.sending = true then
      some { s with
        outgoingQueue := s.outgoingQueue ++ [⟨s.accepted, sms⟩]
        accepted := s.accepted + 1 }
    else none
  | .leave => if s.sending = true then some { s with sending := false } else none
  | .shutdownCb finishSending =>
    if s.present then
      some { s with
        killed := true
        shutdown := true
        draining := if finishSending then s.draining else s.draining + 1 }
    else none
  | .drain =>
    if s.present ∧ 0 < s.draining then
      s.removeMsg.map fun (msg, s) => { s with drained := msg :: s.drained }
    else none
  | .drainReport msg =>
    if msg ∈ s.drained then
      some ({ s with drained := s.drained.erase msg }.report (.failed msg .shutdown))
    else none
  | .drainEnd =>
    if s.present ∧ 0 < s.draining ∧ s.outgoingQueue = [] then
      some { s with draining := s.draining - 1 }
    else none
  | .connect opened =>
    if s.thread = .connecting ∧ s.sending = false then
      some (if opened ∨ s.shutdown then { s with thread := .testing } else s)
    else none
  | .test =>
    if s.thread = .testing then
      some { s with thread := if s.shutdown then .closing else .serving }
    else none
  | .reconnect => if s.thread = .serving then some { s with thread := .connecting } else none
  | .idle => if s.thread = .serving then some { s with thread := .testing } else none
  | .take =>
    if s.thread = .serving then
      s.removeMsg.map fun (msg, s) => { s with thread := .encoding msg }
    else none
  | .command now ret =>
    match s.thread with
    | .encoding msg => sendCommand conf now ret msg s
    | _ => none
  | .answer ret =>
    match s.thread with
    | .prompted msg =>
      if ret ≠ 0 then some ({ s with thread := .testing }.report (.failed msg .temporarily))
      else some ({ s with thread := .testing }.report (.sent msg))
    | _ => none
  | .close =>
    if s.thread = .closing ∧ s.sending = false then some { s with thread := .leaving } else none
  | .destroy =>
    if s.thread = .leaving then
      some { s with
        thread := .destroyed
        outgoingQueue := []
        lost := s.outgoingQueue ++ s.lost }
    else none
  | .die =>
    if s.thread = .destroyed ∧ s.sending = false then some { s with thread := .dead } else none

def occurrences (ref : Nat) (msgs : List MsgObject) : Nat := (msgs.map (·.ref)).count ref

def reported (s : At2) (ref : Nat) : Nat := (s.reports.map (·.msg.ref)).count ref

variable (ref : Nat)

@[simp] theorem occurrences_nil : occurrences ref [] = 0 := rfl

@[simp] theorem occurrences_cons (msg : MsgObject) (msgs : List MsgObject) :
    occurrences ref (msg :: msgs) = occurrences ref msgs + if msg.ref = ref then 1 else 0 := by
  simp [occurrences, List.count_cons]

@[simp] theorem occurrences_append (first second : List MsgObject) :
    occurrences ref (first ++ second) = occurrences ref first + occurrences ref second := by
  simp [occurrences]

theorem occurrences_perm {first second : List MsgObject} (h : first.Perm second) (ref : Nat) :
    occurrences ref first = occurrences ref second :=
  (h.map _).count_eq ref

def held (s : At2) (ref : Nat) : Nat :=
  occurrences ref s.outgoingQueue + occurrences ref s.thread.hand + occurrences ref s.drained +
    s.reported ref + occurrences ref s.lost

def Books (s : At2) : Prop := ∀ ref, s.held ref = if ref < s.accepted then 1 else 0

variable {conf : At2Driver} {s s' : At2}

theorem held_report (s : At2) (r : Report) (ref : Nat) :
    (s.report r).held ref = s.held ref + if r.msg.ref = ref then 1 else 0 := by
  simp only [report, held, reported, List.map_cons, List.count_cons, beq_iff_eq]
  omega

theorem of_removeMsg {c : Prop} [Decidable c] {next : MsgObject × At2 → At2}
    (h : (if c then s.removeMsg.map next else none) = some s') :
    c ∧ ∃ msg rest, s.outgoingQueue.Perm (msg :: rest) ∧
      s' = next (msg, { s with outgoingQueue := rest }) := by
  obtain ⟨hc, h⟩ := Option.ite_none_right_eq_some.mp h
  obtain ⟨_, hremove, rfl⟩ := Option.map_eq_some_iff.mp h
  obtain ⟨⟨msg, rest⟩, hpop, rfl⟩ := Option.map_eq_some_iff.mp hremove
  exact ⟨hc, msg, rest, MaxQueue.pop_perm hpop, rfl⟩

theorem sendCommand_cases {now ret : Int} {msg : MsgObject}
    (h : sendCommand conf now ret msg s = some s') :
    ∃ msg', msg'.ref = msg.ref ∧
      ((at2PduEncode conf.pdu now (withMyNumber conf msg.sms) = .ok none ∧
          s' = { s with thread := .testing, lost := msg' :: s.lost }) ∨
        (at2PduEncode conf.pdu now (withMyNumber conf msg.sms) ≠ .ok none ∧
          (s' = { s with thread := .prompted msg' } ∨
            s' = { s with thread := .testing }.report (.failed msg' .temporarily)))) := by
  unfold sendCommand at h
  dsimp only at h
  split at h
  · cases h
  · rename_i hencode
    exact ⟨{ msg with sms := withMyNumber conf msg.sms }, rfl,
      .inl ⟨hencode, (Option.some.inj h).symm⟩⟩
  · rename_i pdu cut hencode
    have hne : at2PduEncode conf.pdu now (withMyNumber conf msg.sms) ≠ .ok none := by
      rw [hencode]
      exact fun heq => by cases heq
    split_ifs at h
    · exact ⟨{ msg with sms := cut }, rfl, .inr ⟨hne, .inl (Option.some.inj h).symm⟩⟩
    · exact ⟨{ msg with sms := cut }, rfl, .inr ⟨hne, .inr (Option.some.inj h).symm⟩⟩

theorem step_command {now ret : Int} (h : step conf s (.command now ret) = some s') :
    ∃ msg, s.thread = .encoding msg ∧ sendCommand conf now ret msg s = some s' := by
  simp only [step] at h
  split at h
  · exact ⟨_, ‹_›, h⟩
  · cases h

theorem step_answer {ret : Int} (h : step conf s (.answer ret) = some s') :
    ∃ msg r, s.thread = .prompted msg ∧ r.msg = msg ∧
      s' = { s with thread := .testing }.report r := by
  simp only [step] at h
  split at h
  · rename_i msg hthread
    split_ifs at h
    · exact ⟨msg, .failed msg .temporarily, hthread, rfl, (Option.some.inj h).symm⟩
    · exact ⟨msg, .sent msg, hthread, rfl, (Option.some.inj h).symm⟩
  · cases h

def Safe (conf : At2Driver) (s : At2) : At2Action → Prop
  | .command now _ => ∀ msg, s.thread = .encoding msg →
      at2PduEncode conf.pdu now (withMyNumber conf msg.sms) ≠ .ok none
  | .destroy => s.outgoingQueue = []
  | _ => True

theorem held_thread {point : At2Point} (h : point.hand = s.thread.hand) (ref : Nat) :
    ({ s with thread := point } : At2).held ref = s.held ref := by
  simp only [held, h, reported]

theorem held_answered {r : Report} {ref : Nat}
    (h : occurrences ref s.thread.hand = if r.msg.ref = ref then 1 else 0) :
    ({ s with thread := .testing }.report r).held ref = s.held ref := by
  have hnone : At2Point.testing.hand = [] := rfl
  rw [held_report]
  simp only [held, h, hnone, reported, occurrences_nil]
  omega

variable {a : At2Action}

theorem step_moves (h : step conf s a = some s') :
    ((∀ ref, s'.held ref = s.held ref) ∧ s'.accepted = s.accepted ∨
        (∀ ref, s'.held ref = s.held ref + if s.accepted = ref then 1 else 0) ∧
          s'.accepted = s.accepted + 1) ∧
      (s'.lost = [] ↔ s.lost = [] ∧ Safe conf s a) := by
  cases a with
  | enter | leave | shutdownCb | drainEnd =>
    obtain ⟨-, rfl⟩ := of_guard h
    exact ⟨.inl ⟨fun ref => rfl, rfl⟩, by simp [Safe]⟩
  | reconnect | idle =>
    obtain ⟨hthread, rfl⟩ := of_guard h
    exact ⟨.inl ⟨held_thread (by rw [hthread]; rfl), rfl⟩, by simp [Safe]⟩
  | close | die =>
    obtain ⟨⟨hthread, -⟩, rfl⟩ := of_guard h
    exact ⟨.inl ⟨held_thread (by rw [hthread]; rfl), rfl⟩, by simp [Safe]⟩
  | connect opened =>
    obtain ⟨⟨hthread, -⟩, rfl⟩ := of_guard h
    split_ifs
    · exact ⟨.inl ⟨held_thread (by rw [hthread]; rfl), rfl⟩, by simp [Safe]⟩
    · exact ⟨.inl ⟨fun ref => rfl, rfl⟩, by simp [Safe]⟩
  | test =>
    obtain ⟨hthread, rfl⟩ := of_guard h
    refine ⟨.inl ⟨held_thread ?_, rfl⟩, by simp [Safe]⟩
    rw [hthread]
    split_ifs <;> rfl
  | addMsg sms =>
    obtain ⟨-, rfl⟩ := of_guard h
    refine ⟨.inr ⟨fun ref => ?_, rfl⟩, by simp [Safe]⟩
    simp only [held, occurrences_append, occurrences_cons, occurrences_nil, reported]
    omega
  | drain =>
    obtain ⟨-, msg, rest, hperm, rfl⟩ := of_removeMsg h
    refine ⟨.inl ⟨fun ref => ?_, rfl⟩, by simp [Safe]⟩
    simp only [held, occurrences_perm hperm, occurrences_cons, reported]
    omega
  | take =>
    obtain ⟨hthread, msg, rest, hperm, rfl⟩ := of_removeMsg h
    refine ⟨.inl ⟨fun ref => ?_, rfl⟩, by simp [Safe]⟩
    simp only [held, hthread, At2Point.hand, reported, occurrences_perm hperm, occurrences_cons,
      occurrences_nil]
    omega
  | drainReport msg =>
    obtain ⟨hmem, rfl⟩ := of_guard h
    refine ⟨.inl ⟨fun ref => ?_, rfl⟩, by simp [Safe, report]⟩
    rw [held_report, Report.msg_failed]
    simp only [held, occurrences_perm (List.perm_cons_erase hmem), occurrences_cons, reported]
    omega
  | command now ret =>
    obtain ⟨msg, hthread, h⟩ := step_command h
    obtain ⟨msg', href, hcases⟩ := sendCommand_cases h
    have hsafe : Safe conf s (.command now ret) ↔
        at2PduEncode conf.pdu now (withMyNumber conf msg.sms) ≠ .ok none := by
      simp [Safe, hthread]
    rw [hsafe]
    rcases hcases with ⟨hencode, rfl⟩ | ⟨hencode, rfl | rfl⟩
    · refine ⟨.inl ⟨fun ref => ?_, rfl⟩, by simp [hencode]⟩
      simp only [held, hthread, At2Point.hand, reported, occurrences_cons, occurrences_nil, href]
      omega
    · refine ⟨.inl ⟨fun ref => ?_, rfl⟩, by simp [hencode]⟩
      simp only [held, hthread, At2Point.hand, reported, occurrences_cons, occurrences_nil, href]
    · refine ⟨.inl ⟨fun ref => held_answered ?_, rfl⟩, by simp [hencode, report]⟩
      simp [hthread, At2Point.hand, href]
  | answer ret =>
    obtain ⟨msg, r, hthread, rfl, rfl⟩ := step_answer h
    refine ⟨.inl ⟨fun ref => held_answered ?_, rfl⟩, by simp [Safe, report]⟩
    simp [hthread, At2Point.hand]
  | destroy =>
    obtain ⟨hthread, rfl⟩ := of_guard h
    refine ⟨.inl ⟨fun ref => ?_, rfl⟩, ?_⟩
    · simp only [held, hthread, At2Point.hand, reported, occurrences_append, occurrences_nil]
      omega
    · simp only [Safe, List.append_eq_nil_iff]
      exact and_comm

theorem Books.step (h : Books s) (hstep : At2.step conf s a = some s') : Books s' := by
  intro ref
  obtain ⟨⟨hheld, haccepted⟩ | ⟨hheld, haccepted⟩, -⟩ := step_moves hstep
  · rw [hheld, haccepted]
    exact h ref
  · rw [hheld, h ref]
    split_ifs <;> omega

structure Ending (s : At2) : Prop where
  killed : s.shutdown = true → s.killed = true
  closing : s.thread = .closing → s.killed = true
  behind : s.thread = .leaving ∨ s.thread = .destroyed ∨ s.thread = .dead →
    s.killed = true ∧ s.sending = false
  empty : s.thread = .destroyed ∨ s.thread = .dead → s.outgoingQueue = []

theorem ending_at2Create : Ending at2Create := by
  constructor <;> simp [at2Create]

def working (s : At2) : Prop :=
  s.thread ≠ .closing ∧ s.thread ≠ .leaving ∧ s.thread ≠ .destroyed ∧ s.thread ≠ .dead

attribute [simp] working

theorem Ending.of_working (h : Ending s) (hshutdown : s'.shutdown = s.shutdown)
    (hkilled : s'.killed = s.killed) (hworking : s'.working) : Ending s' := by
  obtain ⟨hclosing, hleaving, hdestroyed, hdead⟩ := hworking
  refine ⟨fun hs => ?_, fun ht => absurd ht hclosing, fun ht => ?_, fun ht => ?_⟩
  · rw [hkilled]
    exact h.killed (hshutdown ▸ hs)
  · rcases ht with ht | ht | ht
    · exact absurd ht hleaving
    · exact absurd ht hdestroyed
    · exact absurd ht hdead
  · rcases ht with ht | ht
    · exact absurd ht hdestroyed
    · exact absurd ht hdead

theorem Ending.step (h : Ending s) (hstep : At2.step conf s a = some s') : Ending s' := by
  cases a with
  | enter =>
    obtain ⟨⟨-, halive, -⟩, rfl⟩ := of_guard hstep
    refine { h with behind := fun ht => ?_ }
    rw [(h.behind ht).1] at halive
    cases halive
  | addMsg sms =>
    obtain ⟨hsending, rfl⟩ := of_guard hstep
    refine { h with empty := fun ht => ?_ }
    rw [(h.behind (.inr ht)).2] at hsending
    cases hsending
  | leave =>
    obtain ⟨-, rfl⟩ := of_guard hstep
    exact { h with behind := fun ht => ⟨(h.behind ht).1, rfl⟩ }
  | shutdownCb finishSending =>
    obtain ⟨-, rfl⟩ := of_guard hstep
    exact ⟨fun _ => rfl, fun _ => rfl, fun ht => ⟨rfl, (h.behind ht).2⟩, h.empty⟩
  | drain =>
    obtain ⟨⟨hpresent, -⟩, msg, rest, -, rfl⟩ := of_removeMsg hstep
    obtain ⟨hdestroyed, hdead⟩ := of_decide_eq_true hpresent
    refine { h with empty := fun ht => ?_ }
    rcases ht with ht | ht
    · exact absurd ht hdestroyed
    · exact absurd ht hdead
  | drainReport | drainEnd =>
    obtain ⟨-, rfl⟩ := of_guard hstep
    exact { h with }
  | connect opened =>
    obtain ⟨-, rfl⟩ := of_guard hstep
    split_ifs
    · exact h.of_working rfl rfl (by simp)
    · exact h
  | test =>
    obtain ⟨-, rfl⟩ := of_guard hstep
    by_cases hshutdown : s.shutdown = true
    · refine ⟨h.killed, fun _ => h.killed hshutdown, fun ht => ?_, fun ht => ?_⟩
      · simp [hshutdown] at ht
      · simp [hshutdown] at ht
    · exact h.of_working rfl rfl (by simp [hshutdown])
  | reconnect | idle =>
    obtain ⟨-, rfl⟩ := of_guard hstep
    exact h.of_working rfl rfl (by simp)
  | take =>
    obtain ⟨-, msg, rest, -, rfl⟩ := of_removeMsg hstep
    exact h.of_working rfl rfl (by simp)
  | command now ret =>
    obtain ⟨msg, -, hsend⟩ := step_command hstep
    obtain ⟨msg', -, ⟨-, rfl⟩ | ⟨-, rfl | rfl⟩⟩ := sendCommand_cases hsend
    all_goals exact h.of_working rfl rfl (by simp [report])
  | answer ret =>
    obtain ⟨msg, r, -, -, rfl⟩ := step_answer hstep
    exact h.of_working rfl rfl (by simp [report])
  | close =>
    obtain ⟨⟨hthread, hsending⟩, rfl⟩ := of_guard hstep
    refine ⟨h.killed, nofun, fun _ => ⟨h.closing hthread, hsending⟩, fun ht => ?_⟩
    simp at ht
  | destroy =>
    obtain ⟨hthread, rfl⟩ := of_guard hstep
    exact ⟨h.killed, nofun, fun _ => h.behind (.inl hthread), fun _ => rfl⟩
  | die =>
    obtain ⟨⟨hthread, -⟩, rfl⟩ := of_guard hstep
    exact ⟨h.killed, nofun, fun _ => h.behind (.inr (.inl hthread)),
      fun _ => h.empty (.inl hthread)⟩

theorem lost_eq_nil_iff {trace : List (At2 × At2Action)}
    (hrun : Machine.Run (step conf) at2Create trace s) :
    s.lost = [] ↔ ∀ p ∈ trace, Safe conf p.1 p.2 :=
  hrun.iff_where (I := fun _ => True) (P := fun s => s.lost = []) trivial rfl
    (fun _ _ _ _ _ => trivial) fun _ _ _ _ h => (step_moves h).2

/-- **Once and in time.**  When the connection dies, every accepted message has been reported
exactly once if and only if every message taken could be encoded, the queue was empty when it
was destroyed, and no shutdown callback still holds a message. -/
theorem reported_once_iff {trace : List (At2 × At2Action)}
    (hrun : Machine.Run (step conf) at2Create trace s) (hdie : step conf s .die = some s') :
    (∀ ref < s'.accepted, s'.reported ref = 1) ↔
      (∀ p ∈ trace, Safe conf p.1 p.2) ∧ s.drained = [] := by
  have hbooks₀ : Books at2Create := fun ref => rfl
  have hbooks : Books s := hrun.invariant hbooks₀ fun s a s' h => h.step
  have hending : Ending s := hrun.invariant ending_at2Create fun s a s' h => h.step
  rw [← lost_eq_nil_iff hrun]
  obtain ⟨⟨hthread, -⟩, rfl⟩ := of_guard hdie
  have hempty := hending.empty (.inl hthread)
  have hplaces : ∀ ref, occurrences ref s.drained + s.reported ref + occurrences ref s.lost =
      if ref < s.accepted then 1 else 0 := by
    intro ref
    have hheld := hbooks ref
    rw [held, hempty, hthread] at hheld
    simpa [At2Point.hand] using hheld
  constructor
  · intro honce
    have hnone : ∀ msgs : List MsgObject, (∀ ref, occurrences ref msgs = 0) → msgs = [] := by
      intro msgs hzero
      cases msgs with
      | nil => rfl
      | cons msg msgs =>
        have := hzero msg.ref
        simp at this
    have hrest : ∀ ref, occurrences ref s.drained = 0 ∧ occurrences ref s.lost = 0 := by
      intro ref
      have hplace := hplaces ref
      split_ifs at hplace with haccepted
      · have hreported : s.reported ref = 1 := honce ref haccepted
        omega
      · omega
    exact ⟨hnone _ fun ref => (hrest ref).2, hnone _ fun ref => (hrest ref).1⟩
  · rintro ⟨hlost, hdrained⟩ ref haccepted
    have hplace := hplaces ref
    have haccepted' : ref < s.accepted := haccepted
    rw [hlost, hdrained, if_pos haccepted'] at hplace
    show s.reported ref = 1
    omega

def oneMessage (sms : Sms) (rest : List At2Action) : List At2Action :=
  [.connect true, .enter, .addMsg sms, .leave, .test, .take, .command 0 1] ++ rest ++
    [.shutdownCb false, .drainEnd, .test, .close, .destroy]

def plainDriver : At2Driver := ⟨⟨0, none⟩, none⟩

theorem takenMessage_reported : ∃ trace s s',
    Machine.Run (step plainDriver) at2Create trace s ∧ step plainDriver s .die = some s' ∧
      s'.accepted = 1 ∧ ∀ ref < s'.accepted, s'.reported ref = 1 := by
  obtain ⟨trace, s, hrun, s', hdie, haccepted, hdrained, hlost⟩ : ∃ trace s,
      Machine.Run (step plainDriver) at2Create trace s ∧ ∃ s', step plainDriver s .die = some s' ∧
        s'.accepted = 1 ∧ s.drained = [] ∧ s.lost = [] :=
    Machine.exists_run (oneMessage (firstPart [104, 105]) [.answer 0]) (by decide +kernel)
  exact ⟨trace, s, s', hrun, hdie, haccepted,
    (reported_once_iff hrun hdie).mpr ⟨(lost_eq_nil_iff hrun).mp hlost, hdrained⟩⟩

/-- **A message to a name** is taken from the queue and never reported. -/
theorem unencodable_not_reported : ∃ trace s s',
    Machine.Run (step plainDriver) at2Create trace s ∧ step plainDriver s .die = some s' ∧
      ¬ ∀ ref < s'.accepted, s'.reported ref = 1 := by
  obtain ⟨trace, s, hrun, s', hdie, hnever⟩ : ∃ trace s,
      Machine.Run (step plainDriver) at2Create trace s ∧ ∃ s', step plainDriver s .die = some s' ∧
        ¬ ∀ ref < s'.accepted, s'.reported ref = 1 :=
    Machine.exists_run (oneMessage { firstPart [104, 105] with receiver := some [97, 98, 99] } [])
      (by decide +kernel)
  exact ⟨trace, s, s', hrun, hdie, hnever⟩

end At2
end Kannel
