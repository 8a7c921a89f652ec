import Kannel.Gw.Smsc.SmppSession

/-!
# The window of an SMPP link

Every message taken from the queue is in the thread's hands, in the dictionary of unanswered
messages, or reported (`Holding`); between the steps the hands are empty.
-/

namespace Kannel
open List
variable {maxPendingSubmits : Nat} [NeZero maxPendingSubmits]
variable {msg : MsgObject} {key : Octstr} {sent : SmppSent} {a : SessionAction}

namespace Smpp

def sentRefs (s : Smpp maxPendingSubmits) : List Nat := (dictValues s.sentMsgs).map (·.msg.ref)

def reportedRefs (s : Smpp maxPendingSubmits) : List Nat := s.reports.map (·.msg.ref)

structure Holding (hands : List Nat) (s : Smpp maxPendingSubmits) : Prop where
  counter : s.messageIdCounter = s.numbered + 1
  keys : ∀ key ∈ dictKeys s.sentMsgs, ∃ seq < s.messageIdCounter, key = seqKey seq
  objects : (range s.queued).Perm (s.taken ++ s.msgsToSend.map (·.ref))
  taken : s.taken.Perm (hands ++ (s.sentRefs ++ s.reportedRefs))

variable {s s' : Smpp maxPendingSubmits} {hands : List Nat}

theorem holding_smppCreate : Holding [] (smppCreate maxPendingSubmits) where
  counter := rfl
  keys key hkey := by simp [smppCreate] at hkey
  objects := .refl _
  taken := by simp [smppCreate, sentRefs, reportedRefs, dictValues]

/-- Where the messages are does not depend on the status, the account of the window and the time of
throttling. -/
theorem Holding.frame (h : Holding hands s) (status : SmscStatus) (quitting : Bool)
    (pending throttling : Int) :
    Holding hands
      { s with
        status := status
        quitting := quitting
        pendingSubmits := pending
        throttlingErrTime := throttling } :=
  ⟨h.counter, h.keys, h.objects, h.taken⟩

theorem Holding.removeMsg (h : Holding hands s) (hremove : s.removeMsg = some (msg, s')) :
    Holding (msg.ref :: hands) s' := by
  obtain ⟨⟨_, rest⟩, hpop, heq⟩ := Option.map_eq_some_iff.mp hremove
  cases heq
  have hqueue := (MaxQueue.pop_perm hpop).map MsgObject.ref
  refine ⟨h.counter, h.keys, ?_, h.taken.cons _⟩
  calc Perm (range s.queued) (s.taken ++ s.msgsToSend.map (·.ref)) := h.objects
    Perm _ (s.taken ++ msg.ref :: rest.map (·.ref)) := hqueue.append_left _
    Perm _ (msg.ref :: s.taken ++ rest.map (·.ref)) := perm_middle

theorem increaseMessageId_counter (hbound : s.messageIdCounter + 1 < 2 ^ 64) :
    s.increaseMessageId.2.messageIdCounter = s.messageIdCounter + 1 :=
  Nat.mod_eq_of_lt hbound

theorem Holding.increaseMessageId (h : Holding hands s) (hbound : s.numbered + 1 < 2 ^ 32) :
    Holding hands s.increaseMessageId.2 := by
  have hcounter : s.increaseMessageId.2.messageIdCounter = s.messageIdCounter + 1 := by
    refine increaseMessageId_counter ?_
    rw [h.counter]
    omega
  refine ⟨?_, fun key hkey => ?_, h.objects, h.taken⟩
  · rw [hcounter, h.counter]
    rfl
  · obtain ⟨seq, hseq, hkey⟩ := h.keys key hkey
    exact ⟨seq, by omega, hkey⟩

theorem Holding.report (r : Report) (h : Holding (r.msg.ref :: hands) s) :
    Holding hands (s.report r) where
  counter := h.counter
  keys := h.keys
  objects := h.objects
  taken := by
    calc Perm s.taken (r.msg.ref :: hands ++ (s.sentRefs ++ s.reportedRefs)) := h.taken
      Perm _ (hands ++ r.msg.ref :: (s.sentRefs ++ s.reportedRefs)) := perm_middle.symm
      Perm _ (hands ++ (s.sentRefs ++ r.msg.ref :: s.reportedRefs)) :=
        perm_middle.symm.append_left _

theorem Holding.removeSent (h : Holding hands s) (hget : dictGet s.sentMsgs key = some sent) :
    Holding (sent.msg.ref :: hands) (s.removeSent key).2 where
  counter := h.counter
  keys key' hkey' := by
    refine h.keys key' ?_
    rw [mem_dictKeys] at hkey' ⊢
    simp only [Smpp.removeSent, dictGet_dictRemove] at hkey'
    split at hkey'
    · cases hkey'
    · exact hkey'
  objects := h.objects
  taken := by
    have hvalues := (dictValues_dictRemove hget).map (·.msg.ref)
    have hback : s.sentRefs.Perm (sent.msg.ref :: (s.removeSent key).2.sentRefs) := hvalues
    calc Perm s.taken (hands ++ (s.sentRefs ++ s.reportedRefs)) := h.taken
      Perm _ (hands ++ (sent.msg.ref :: (s.removeSent key).2.sentRefs ++ s.reportedRefs)) :=
        (hback.append_right _).append_left _
      Perm _ (sent.msg.ref :: (hands ++ ((s.removeSent key).2.sentRefs ++ s.reportedRefs))) :=
        perm_middle

theorem removeSent_fst (key : Octstr) : (s.removeSent key).1 = dictGet s.sentMsgs key :=
  dictRemove_fst s.sentMsgs key

theorem removeSent_of_none (h : dictGet s.sentMsgs key = none) : (s.removeSent key).2 = s := by
  simp only [Smpp.removeSent, dictRemove_of_none h]

theorem removeSent_cases (s : Smpp maxPendingSubmits) (key : Octstr) :
    (dictGet s.sentMsgs key = none ∧ s.removeSent key = (none, s)) ∨
      ∃ sent, dictGet s.sentMsgs key = some sent ∧
        s.removeSent key = (some sent, (s.removeSent key).2) := by
  have hfst := removeSent_fst (s := s) key
  cases hget : dictGet s.sentMsgs key with
  | none => exact .inl ⟨rfl, Prod.ext (hfst.trans hget) (removeSent_of_none hget)⟩
  | some sent => exact .inr ⟨sent, rfl, Prod.ext (hfst.trans hget) rfl⟩

theorem seqKey_inj {m n : Nat} (hm : m < 2 ^ 63) (hn : n < 2 ^ 63) :
    seqKey m = seqKey n ↔ m = n := by
  have hlong : ∀ k : Nat, k < 2 ^ 63 → toLong k = k := by
    intro k hk
    rw [toLong, Int.bmod_eq_of_le] <;> omega
  rw [seqKey, seqKey, hlong m hm, hlong n hn, formatDecimal_inj]

theorem Holding.dictGet_next (h : Holding hands s) (hbound : s.numbered < 2 ^ 32) :
    dictGet s.sentMsgs (seqKey s.messageIdCounter) = none := by
  have hcounter := h.counter
  by_contra hne
  obtain ⟨seq, hseq, hkey⟩ := h.keys (seqKey s.messageIdCounter)
    ((mem_dictKeys _ _).mpr (Option.isSome_iff_ne_none.mpr hne))
  rw [seqKey_inj (by omega) (by omega)] at hkey
  omega

theorem Holding.put {seq : Nat} (pending : Int) (h : Holding (sent.msg.ref :: hands) s)
    (hseq : seq < s.messageIdCounter) (hnew : dictGet s.sentMsgs (seqKey seq) = none) :
    Holding hands
      { s with
        sentMsgs := dictPut s.sentMsgs (seqKey seq) (some sent)
        pendingSubmits := pending } where
  counter := h.counter
  keys key hkey := by
    rw [mem_dictKeys, dictGet_dictPut] at hkey
    split at hkey
    · rename_i hk
      exact ⟨seq, hseq, hk⟩
    · exact h.keys key ((mem_dictKeys _ _).mpr hkey)
  objects := h.objects
  taken := by
    have hvalues := (dictValues_dictPut sent hnew).map (·.msg.ref)
    calc Perm s.taken (sent.msg.ref :: hands ++ (s.sentRefs ++ s.reportedRefs)) := h.taken
      Perm _ (hands ++ (sent.msg.ref :: s.sentRefs ++ s.reportedRefs)) :=
        perm_middle.symm
      Perm _ (hands ++
          ((dictValues (dictPut s.sentMsgs (seqKey seq) (some sent))).map (·.msg.ref) ++
            s.reportedRefs)) := (hvalues.symm.append_right _).append_left _

def Window (s : Smpp maxPendingSubmits) : Prop :=
  s.pendingSubmits = dictKeyCount s.sentMsgs ∧ s.pendingSubmits ≤ maxPendingSubmits

def Idle (s : Smpp maxPendingSubmits) : Prop :=
  s.pendingSubmits = -1 ∧ dictKeyCount s.sentMsgs = 0

def Serving (s : Smpp maxPendingSubmits) : Prop :=
  (s.status = .active → Window s) ∧ (s.status ≠ .active → Idle s)

theorem dictKeyCount_removeSent (h : dictGet s.sentMsgs key = some sent) :
    dictKeyCount (s.removeSent key).2.sentMsgs + 1 = dictKeyCount s.sentMsgs := by
  have hlength := (dictValues_dictRemove h).length_eq
  rw [length_cons, length_dictValues, length_dictValues] at hlength
  exact hlength.symm

theorem dictKeyCount_put (sent : SmppSent) (h : dictGet s.sentMsgs key = none) :
    dictKeyCount (dictPut s.sentMsgs key (some sent)) = dictKeyCount s.sentMsgs + 1 := by
  have hlength := (dictValues_dictPut sent h).length_eq
  rwa [length_cons, length_dictValues, length_dictValues] at hlength

def Working (s : Smpp maxPendingSubmits) : Prop :=
  s.numbered < 2 ^ 32 → Holding [] s ∧ Window s

def SameSession (s s' : Smpp maxPendingSubmits) : Prop :=
  s'.status = s.status ∧ s'.phase = s.phase

theorem SameSession.trans {s₁ : Smpp maxPendingSubmits} (h : SameSession s s₁)
    (h' : SameSession s₁ s') : SameSession s s' :=
  ⟨h'.1.trans h.1, h'.2.trans h.2⟩

theorem removeMsg_frame (h : s.removeMsg = some (msg, s')) :
    s'.sentMsgs = s.sentMsgs ∧ s'.pendingSubmits = s.pendingSubmits ∧ s'.numbered = s.numbered ∧
      SameSession s s' := by
  obtain ⟨_, -, heq⟩ := Option.map_eq_some_iff.mp h
  cases heq
  exact ⟨rfl, rfl, rfl, rfl, rfl⟩

variable (reason : FailReason)

theorem working_report (h : Working s) (hremove : s.removeMsg = some (msg, s')) :
    Working (s'.increaseMessageId.2.report (.failed msg reason)) := by
  obtain ⟨hsent, hpending, hnumbered, -⟩ := removeMsg_frame hremove
  intro hbound
  have hbound' : s.numbered + 1 < 2 ^ 32 := hnumbered ▸ hbound
  obtain ⟨hholding, hwindow⟩ := h (by omega)
  refine ⟨Holding.report _ ((hholding.removeMsg hremove).increaseMessageId hbound), ?_⟩
  have hwindow' : Window s' := by
    unfold Window
    rw [hsent, hpending]
    exact hwindow
  exact hwindow'

theorem working_put (now : Int) (h : Working s) (hroom : s.pendingSubmits < maxPendingSubmits)
    (hremove : s.removeMsg = some (msg, s')) :
    Working
      { s'.increaseMessageId.2 with
        sentMsgs := dictPut s'.increaseMessageId.2.sentMsgs (seqKey s'.increaseMessageId.1)
          (some ⟨now, msg⟩)
        pendingSubmits := s'.increaseMessageId.2.pendingSubmits + 1 } := by
  obtain ⟨hsent, hpending, hnumbered, -⟩ := removeMsg_frame hremove
  intro hbound
  have hbound' : s.numbered + 1 < 2 ^ 32 := hnumbered ▸ hbound
  obtain ⟨hholding, heq, hle⟩ := h (by omega)
  have hheld := hholding.removeMsg hremove
  have hnew := hheld.dictGet_next (by omega)
  have hlt : s'.increaseMessageId.1 < s'.increaseMessageId.2.messageIdCounter := by
    rw [increaseMessageId_counter (by rw [hheld.counter]; omega)]
    exact Nat.lt_succ_self _
  refine ⟨(hheld.increaseMessageId hbound).put _ hlt hnew, ?_, ?_⟩
  · have hcount := dictKeyCount_put ⟨now, msg⟩ hnew
    show s'.pendingSubmits + 1 = _
    rw [hpending, heq, ← hsent]
    exact (congrArg Int.ofNat hcount).symm
  · show s'.pendingSubmits + 1 ≤ _
    omega

variable {conf : SessionConf} {round : Nat → SendRound}

theorem sendLoop_working {fuel : Nat} {ok : Bool} (h : Working s)
    (hloop : sendLoop conf round fuel s = .ok (ok, s')) :
    Working s' ∧ SameSession s s' ∧ s.numbered ≤ s'.numbered := by
  induction fuel generalizing s with
  | zero =>
    cases hloop
    exact ⟨h, ⟨rfl, rfl⟩, le_rfl⟩
  | succ fuel ih =>
    rw [sendLoop] at hloop
    split at hloop
    · rename_i hroom
      cases hremove : s.removeMsg with
      | none =>
        rw [hremove] at hloop
        cases hloop
        exact ⟨h, ⟨rfl, rfl⟩, le_rfl⟩
      | some r =>
        obtain ⟨msg, s₁⟩ := r
        obtain ⟨-, -, hnumbered, hsame⟩ := removeMsg_frame hremove
        have hle : s.numbered ≤ s₁.increaseMessageId.2.numbered :=
          hnumbered ▸ Nat.le_succ s₁.numbered
        rw [hremove] at hloop
        obtain ⟨out, hout, hloop⟩ := bind_eq_ok_iff.mp hloop
        cases out with
        | none =>
          obtain ⟨hrest, hsame', hle'⟩ := ih (working_report .malformed h hremove) hloop
          exact ⟨hrest, hsame.trans hsame', hle.trans hle'⟩
        | some out =>
          dsimp only at hloop
          rw [msgToPdu_sequenceNumber hout] at hloop
          split at hloop
          · obtain ⟨hrest, hsame', hle'⟩ := ih (working_put _ h hroom.1 hremove) hloop
            exact ⟨hrest, hsame.trans hsame', hle.trans hle'⟩
          · cases hloop
            exact ⟨working_report .temporarily h hremove, hsame, hle⟩
    · cases hloop
      exact ⟨h, ⟨rfl, rfl⟩, le_rfl⟩

def settled (s : Smpp maxPendingSubmits) (key : Octstr) (throttling : Int) (r : Report) :
    Smpp maxPendingSubmits :=
  { (s.removeSent key).2 with
    pendingSubmits := s.pendingSubmits - 1
    throttlingErrTime := throttling }.report r

theorem Holding.settled {throttling : Int} {r : Report} (h : Holding hands s)
    (hget : dictGet s.sentMsgs key = some sent) (hr : r.msg.ref = sent.msg.ref) :
    Holding hands (s.settled key throttling r) := by
  have hheld := h.removeSent hget
  rw [← hr] at hheld
  exact Holding.report r (hheld.frame _ _ _ _)

theorem Window.settled {throttling : Int} {r : Report} (h : Window s)
    (hget : dictGet s.sentMsgs key = some sent) : Window (s.settled key throttling r) := by
  have hcount := dictKeyCount_removeSent hget
  obtain ⟨heq, hle⟩ := h
  constructor
  · show s.pendingSubmits - 1 = dictKeyCount (s.removeSent key).2.sentMsgs
    omega
  · show s.pendingSubmits - 1 ≤ _
    omega

inductive Answered (s : Smpp maxPendingSubmits) (key : Octstr) : Smpp maxPendingSubmits → Prop
  | unknown (hget : dictGet s.sentMsgs key = none) : Answered s key s
  | known {sent : SmppSent} {throttling : Int} {r : Report}
      (hget : dictGet s.sentMsgs key = some sent) (hr : r.msg.ref = sent.msg.ref) :
      Answered s key (s.settled key throttling r)

inductive Handled (s : Smpp maxPendingSubmits) : Smpp maxPendingSubmits → Prop
  | ignored : Handled s s
  | answered {key : Octstr} {sent : SmppSent} {throttling : Int} {r : Report}
      (hactive : s.isActive) (hget : dictGet s.sentMsgs key = some sent)
      (hr : r.msg.ref = sent.msg.ref) : Handled s (s.settled key throttling r)
  | bound (hactive : ¬ s.isActive) : Handled s { s with pendingSubmits := 0, status := .active }
  | boundToReceive (hactive : ¬ s.isActive) : Handled s { s with status := .activeRecv }
  | disconnected (pending : Int) (quitting : Bool) :
      Handled s { s with status := .disconnected, pendingSubmits := pending, quitting := quitting }

section
variable {size : Nat} [NeZero size] {now : Int} {written : Bool} {pdu : SmppPdu size}

theorem submitSmResp_answered :
    Answered s (seqKey (pdu.int .sequenceNumber)) (s.submitSmResp conf now pdu) := by
  unfold submitSmResp
  rcases removeSent_cases s (seqKey (pdu.int .sequenceNumber)) with
    ⟨hget, hpair⟩ | ⟨sent, hget, hpair⟩
  · rw [hpair]
    exact .unknown hget
  · rw [hpair]
    dsimp only
    split
    · exact .known hget rfl
    · split <;> exact .known hget rfl

theorem genericNack_answered :
    Answered s (seqKey (pdu.int .sequenceNumber)) (s.genericNack now pdu) := by
  unfold genericNack
  rcases removeSent_cases s (seqKey (pdu.int .sequenceNumber)) with
    ⟨hget, hpair⟩ | ⟨sent, hget, hpair⟩
  · rw [hpair]
    exact .unknown hget
  · rw [hpair]
    exact .known hget rfl

theorem Answered.handled (hactive : s.isActive) (h : Answered s key s') : Handled s s' := by
  cases h with
  | unknown hget => exact .ignored
  | known hget hr => exact .answered hactive hget hr

theorem bindResp_handled (hbound : ¬ s.isActive → Handled s s') :
    Handled s (if s.isActive then (true, s)
      else if loggedIn (pdu.int .commandStatus) then (true, s')
      else (true, s.loginRejected conf (pdu.int .commandStatus))).2 := by
  split
  · exact .ignored
  · rename_i hactive
    split
    · exact hbound hactive
    · exact .disconnected s.pendingSubmits _

theorem handlePdu_handled : Handled s (s.handlePdu conf now written pdu).2 := by
  have hsame : ∀ b : Bool, Handled s (if s.isActive then (b, s) else (true, s)).2 := by
    intro b
    split <;> exact .ignored
  unfold handlePdu
  split
  case h_1 => exact hsame written
  case h_2 => exact hsame written
  case h_3 => exact hsame written
  case h_4 => exact .ignored
  case h_5 =>
      split
      · rename_i hstatus
        exact submitSmResp_answered.handled (by simp [isActive, hstatus])
      · exact .ignored
  case h_6 => exact bindResp_handled .bound
  case h_7 => exact bindResp_handled .bound
  case h_8 => exact bindResp_handled .boundToReceive
  case h_9 =>
      split
      · exact .disconnected (-1) s.quitting
      · exact .ignored
  case h_10 =>
      split
      · exact .disconnected s.pendingSubmits s.quitting
      · exact .ignored
  case h_11 =>
      split
      · exact genericNack_answered.handled ‹_›
      · exact .ignored
  case h_12 => exact .ignored

theorem Holding.handled (h : Holding hands s) (hs : Handled s s') : Holding hands s' := by
  cases hs with
  | ignored => exact h
  | answered hactive hget hr => exact h.settled hget hr
  | bound hactive => exact h.frame _ _ _ _
  | boundToReceive hactive => exact h.frame _ _ _ _
  | disconnected pending quitting => exact h.frame _ _ _ _

theorem Serving.handled (h : Serving s) (hs : Handled s s')
    (hconnected : s'.status ≠ .disconnected) : Serving s' := by
  have hidle : ¬ s.isActive → Idle s := by
    intro hactive
    refine h.2 fun hstatus => hactive ?_
    simp [isActive, hstatus]
  cases hs with
  | ignored => exact h
  | @answered key sent throttling r hactive hget hr =>
    refine ⟨fun hstatus => (h.1 hstatus).settled hget, fun hstatus => ?_⟩
    -- without a bind to transmit there is nothing to answer
    have hcount := dictKeyCount_removeSent hget
    have := (h.2 hstatus).2
    omega
  | bound hactive =>
    refine ⟨fun _ => ⟨?_, ?_⟩, fun hstatus => absurd rfl hstatus⟩
    · rw [(hidle hactive).2]
      rfl
    · exact Int.natCast_nonneg _
  | boundToReceive hactive =>
    refine ⟨fun hstatus => ?_, fun _ => hidle hactive⟩
    cases hstatus
  | disconnected pending quitting => exact absurd rfl hconnected

theorem handled_frame (hs : Handled s s') : s'.phase = s.phase ∧ s'.numbered = s.numbered := by
  cases hs <;> exact ⟨rfl, rfl⟩

end

inductive Settles : Smpp maxPendingSubmits → Smpp maxPendingSubmits → Prop
  | none (s : Smpp maxPendingSubmits) : Settles s s
  | next {s s' : Smpp maxPendingSubmits} {key : Octstr} {sent : SmppSent} {throttling : Int}
      {r : Report} (hget : dictGet s.sentMsgs key = some sent) (hr : r.msg.ref = sent.msg.ref)
      (hrest : Settles (s.settled key throttling r) s') : Settles s s'

theorem cleanupLoop_settles {now : Int} (keys : List Octstr) (s : Smpp maxPendingSubmits) :
    Settles s (cleanupLoop conf now keys s).2 := by
  induction keys generalizing s with
  | nil => exact .none _
  | cons key keys ih =>
    rw [cleanupLoop]
    split
    · exact ih s
    · split
      · split
        · exact .none _
        · split
          · rcases removeSent_cases s key with ⟨-, hpair⟩ | ⟨sent, hget, hpair⟩
            · rw [hpair]
              exact ih s
            · rw [hpair]
              exact .next hget rfl (ih (s.settled key s.throttlingErrTime
                (.failed sent.msg .temporarily)))
          · exact .none _
      · exact ih s

theorem settles_frame (hs : Settles s s') : SameSession s s' ∧ s'.numbered = s.numbered := by
  induction hs with
  | none s => exact ⟨⟨rfl, rfl⟩, rfl⟩
  | next hget hr hrest ih => exact ⟨SameSession.trans ⟨rfl, rfl⟩ ih.1, ih.2⟩

theorem settles_keeps (hs : Settles s s') (h : Holding [] s) (hwindow : Window s) :
    Holding [] s' ∧ Window s' := by
  induction hs with
  | none s => exact ⟨h, hwindow⟩
  | next hget hr hrest ih => exact ih (h.settled hget hr) (hwindow.settled hget)

section
variable (conf : SessionConf) (now : Int)

theorem doQueueCleanup_settles (s : Smpp maxPendingSubmits) :
    (s.doQueueCleanup conf now).2 = s ∨
      (0 < s.pendingSubmits ∧ Settles s (s.doQueueCleanup conf now).2) := by
  unfold doQueueCleanup
  split
  · exact .inl rfl
  · exact .inr ⟨by omega, cleanupLoop_settles _ s⟩

theorem doQueueCleanup_phase (s : Smpp maxPendingSubmits) :
    (s.doQueueCleanup conf now).2.phase = s.phase := by
  rcases doQueueCleanup_settles conf now s with heq | ⟨-, hsettles⟩
  · rw [heq]
  · exact (settles_frame hsettles).1.2

theorem doQueueCleanup_keeps (h : s.numbered < 2 ^ 32 → Holding [] s ∧ Serving s) :
    (s.doQueueCleanup conf now).2.numbered < 2 ^ 32 →
      Holding [] (s.doQueueCleanup conf now).2 ∧ Serving (s.doQueueCleanup conf now).2 := by
  rcases doQueueCleanup_settles conf now s with heq | ⟨hpending, hsettles⟩
  · rw [heq]
    exact h
  · obtain ⟨hsame, hnumbered⟩ := settles_frame hsettles
    intro hbound
    obtain ⟨hholding, hserving⟩ := h (hnumbered ▸ hbound)
    have hstatus : s.status = .active := by
      by_contra hne
      have := (hserving.2 hne).1
      omega
    obtain ⟨hholding', hwindow⟩ := settles_keeps hsettles hholding (hserving.1 hstatus)
    refine ⟨hholding', fun _ => hwindow, fun hne => ?_⟩
    rw [hsame.1, hstatus] at hne
    exact absurd rfl hne

end

def queueToFlush (s : Smpp maxPendingSubmits) : List MsgObject :=
  MaxQueue.popAll lowerPriority s.msgsToSend.length s.msgsToSend

section
variable (reason : FailReason)

theorem foldl_flush (msgs : List MsgObject) (s : Smpp maxPendingSubmits) :
    msgs.foldl (fun s msg => { s with taken := msg.ref :: s.taken }.report (.failed msg reason)) s =
      { s with
        taken := (msgs.map (·.ref)).reverse ++ s.taken
        reports := (msgs.map (Report.failed · reason)).reverse ++ s.reports } := by
  induction msgs generalizing s with
  | nil => rfl
  | cons msg msgs ih =>
    rw [foldl_cons, ih]
    simp [Smpp.report]

theorem flushMsgs_eq (s : Smpp maxPendingSubmits) :
    s.flushMsgs reason =
      { s with
        msgsToSend := []
        taken := (s.queueToFlush.map (·.ref)).reverse ++ s.taken
        reports := (s.queueToFlush.map (Report.failed · reason)).reverse ++ s.reports } :=
  foldl_flush reason _ _

theorem Holding.flushMsgs (h : Holding [] s) : Holding [] (s.flushMsgs reason) := by
  rw [flushMsgs_eq]
  have hqueue : ((s.queueToFlush.map (·.ref)).reverse).Perm (s.msgsToSend.map (·.ref)) :=
    (reverse_perm _).trans ((MaxQueue.popAll_perm s.msgsToSend).map _)
  refine ⟨h.counter, h.keys, ?_, ?_⟩
  · show (range s.queued).Perm
      ((s.queueToFlush.map (·.ref)).reverse ++ s.taken ++ [].map MsgObject.ref)
    rw [map_nil, append_nil]
    exact (h.objects.trans perm_append_comm).trans (hqueue.symm.append_right _)
  · show Perm _ ([] ++ (s.sentRefs ++
      (((s.queueToFlush.map (Report.failed · reason)).reverse ++ s.reports).map (·.msg.ref))))
    have hreports : ((s.queueToFlush.map (Report.failed · reason)).reverse ++ s.reports).map
        (·.msg.ref) = (s.queueToFlush.map (·.ref)).reverse ++ s.reportedRefs := by
      simp [reportedRefs, Report.msg, Function.comp_def]
    rw [hreports]
    calc Perm ((s.queueToFlush.map (·.ref)).reverse ++ s.taken)
          ((s.queueToFlush.map (·.ref)).reverse ++ (s.sentRefs ++ s.reportedRefs)) :=
        h.taken.append_left _
      Perm _ (s.sentRefs ++ ((s.queueToFlush.map (·.ref)).reverse ++ s.reportedRefs)) := by
        rw [← append_assoc, ← append_assoc]
        exact perm_append_comm.append_right _

theorem Holding.flushKey (key : Octstr) (h : Holding [] s) :
    Holding [] (s.flushKey reason key) := by
  unfold Smpp.flushKey
  rcases removeSent_cases s key with ⟨-, hpair⟩ | ⟨sent, hget, hpair⟩
  · rw [hpair]
    exact h
  · rw [hpair]
    exact Holding.report (.failed sent.msg reason) (h.removeSent hget)

end

structure FlushFrame (s s' : Smpp maxPendingSubmits) : Prop where
  taken : s'.taken = s.taken
  msgsToSend : s'.msgsToSend = s.msgsToSend
  numbered : s'.numbered = s.numbered
  status : s'.status = s.status
  quitting : s'.quitting = s.quitting

section
variable (reason : FailReason)

theorem flushKey_frame (key : Octstr) (s : Smpp maxPendingSubmits) :
    FlushFrame s (s.flushKey reason key) := by
  unfold Smpp.flushKey
  rcases removeSent_cases s key with ⟨-, hpair⟩ | ⟨sent, -, hpair⟩ <;>
    rw [hpair] <;> exact ⟨rfl, rfl, rfl, rfl, rfl⟩

theorem dictGet_flushKey (key key' : Octstr) (s : Smpp maxPendingSubmits) :
    dictGet (s.flushKey reason key).sentMsgs key' =
      if key' = key then none else dictGet s.sentMsgs key' := by
  rw [← dictGet_dictRemove]
  unfold Smpp.flushKey
  rcases removeSent_cases s key with ⟨hget, hpair⟩ | ⟨sent, -, hpair⟩
  · rw [hpair, dictRemove_of_none hget]
  · rw [hpair]
    rfl

theorem foldl_flushKey_frame (keys : List Octstr) (s : Smpp maxPendingSubmits) :
    FlushFrame s (keys.foldl (Smpp.flushKey reason) s) := by
  refine foldlRecOn keys _ (motive := FlushFrame s) ⟨rfl, rfl, rfl, rfl, rfl⟩ ?_
  intro s' h key _
  have hnext := flushKey_frame reason key s'
  exact ⟨hnext.taken.trans h.taken, hnext.msgsToSend.trans h.msgsToSend,
    hnext.numbered.trans h.numbered, hnext.status.trans h.status, hnext.quitting.trans h.quitting⟩

theorem Holding.foldl_flushKey (keys : List Octstr) (h : Holding [] s) :
    Holding [] (keys.foldl (Smpp.flushKey reason) s) :=
  foldlRecOn keys _ h fun _ h key _ => h.flushKey reason key

theorem dictGet_foldl_flushKey (keys : List Octstr) (key : Octstr) (s : Smpp maxPendingSubmits) :
    dictGet (keys.foldl (Smpp.flushKey reason) s).sentMsgs key =
      if key ∈ keys then none else dictGet s.sentMsgs key := by
  induction keys generalizing s with
  | nil => simp
  | cons key' keys ih =>
    rw [foldl_cons, ih, dictGet_flushKey]
    by_cases hk : key = key'
    · simp [hk]
    · simp [hk]

end

structure Flushed (s s' : Smpp maxPendingSubmits) : Prop where
  holding : Holding [] s'
  msgsToSend : s'.msgsToSend = []
  sentMsgs : dictKeyCount s'.sentMsgs = 0
  taken : ∀ ref, ref ∈ s'.taken ↔ ref ∈ s.taken ∨ ref ∈ s.msgsToSend.map (·.ref)
  status : s'.status = s.status
  quitting : s'.quitting = s.quitting

def flushBoth (reason : FailReason) (s : Smpp maxPendingSubmits) : Smpp maxPendingSubmits :=
  (dictKeys (s.flushMsgs reason).sentMsgs).foldl (Smpp.flushKey reason) (s.flushMsgs reason)

theorem flushBoth_flushed (h : Holding [] s) : Flushed s (s.flushBoth reason) := by
  have hqueue : ∀ ref, ref ∈ (s.flushMsgs reason).taken ↔
      ref ∈ s.taken ∨ ref ∈ s.msgsToSend.map (·.ref) := by
    intro ref
    have hall : s.queueToFlush.Perm s.msgsToSend := MaxQueue.popAll_perm s.msgsToSend
    have hperm := hall.map MsgObject.ref
    rw [flushMsgs_eq, mem_append, mem_reverse, ← hperm.mem_iff, or_comm]
  have hframe := foldl_flushKey_frame reason (dictKeys (s.flushMsgs reason).sentMsgs)
    (s.flushMsgs reason)
  have hempty : dictKeys (s.flushBoth reason).sentMsgs = [] := by
    rw [eq_nil_iff_forall_not_mem]
    intro key hkey
    rw [mem_dictKeys, flushBoth, dictGet_foldl_flushKey] at hkey
    split at hkey
    · cases hkey
    · rename_i hnot
      exact hnot ((mem_dictKeys _ _).mpr hkey)
  refine ⟨(h.flushMsgs reason).foldl_flushKey reason _, ?_, ?_, ?_, ?_, ?_⟩
  · rw [flushBoth, hframe.msgsToSend, flushMsgs_eq]
  · rw [dictKeyCount_eq, hempty, length_nil]
  · intro ref
    rw [flushBoth, hframe.taken]
    exact hqueue ref
  · rw [flushBoth, hframe.status, flushMsgs_eq]
  · rw [flushBoth, hframe.quitting, flushMsgs_eq]

theorem flush_eq (s : Smpp maxPendingSubmits) :
    s.flush =
      if s.quitting then s.flushBoth .shutdown
      else { s with status := .reconnecting }.flushBoth .temporarily := by
  unfold Smpp.flush
  split <;> simp_all [flushBoth]

theorem flush_numbered (s : Smpp maxPendingSubmits) : s.flush.numbered = s.numbered := by
  rw [flush_eq]
  split <;> rw [flushBoth, (foldl_flushKey_frame _ _ _).numbered, flushMsgs_eq]

theorem flush_flushed (h : Holding [] s) :
    Flushed { s with status := s.flush.status } s.flush ∧
      (s.quitting = false → s.flush.status = .reconnecting) := by
  rw [flush_eq]
  split
  · rename_i hquitting
    have hflushed := flushBoth_flushed .shutdown h
    refine ⟨⟨hflushed.holding, hflushed.msgsToSend, hflushed.sentMsgs, hflushed.taken,
      rfl, hflushed.quitting⟩, fun hnot => ?_⟩
    cases hquitting.symm.trans hnot
  · have hflushed := flushBoth_flushed .temporarily
      (h.frame .reconnecting s.quitting s.pendingSubmits s.throttlingErrTime)
    exact ⟨⟨hflushed.holding, hflushed.msgsToSend, hflushed.sentMsgs, hflushed.taken,
      rfl, hflushed.quitting⟩, fun _ => hflushed.status⟩

def InPhase (s : Smpp maxPendingSubmits) : Prop :=
  match s.phase with
  | .closed => (s.quitting = false → s.isActive = false) ∧ dictKeyCount s.sentMsgs = 0
  | .opened | .unbinding => Serving s
  | .broken => True

def Sound (s : Smpp maxPendingSubmits) : Prop :=
  s.numbered < 2 ^ 32 → Holding [] s ∧ InPhase s

theorem sound_smppCreate : Sound (smppCreate maxPendingSubmits) := by
  intro _
  refine ⟨holding_smppCreate, fun _ => rfl, ?_⟩
  simp [smppCreate, dictKeyCount, dictCreate]

theorem sound_leave (h : s.numbered < 2 ^ 32 → Holding [] s) : Sound s.leave := by
  intro hbound
  have hholding := h hbound
  exact ⟨⟨hholding.counter, hholding.keys, hholding.objects, hholding.taken⟩, trivial⟩

theorem sound_leaveIf {c : Bool} (h : s.numbered < 2 ^ 32 → Holding [] s)
    (hstay : c = false → s.numbered < 2 ^ 32 → InPhase s) : Sound (s.leaveIf c) := by
  cases c with
  | true => exact sound_leave h
  | false => exact fun hbound => ⟨h hbound, hstay rfl hbound⟩

theorem inPhase_of_serving (h : Serving s) (hphase : s.phase = .opened ∨ s.phase = .unbinding) :
    InPhase s := by
  rcases hphase with hphase | hphase <;> simpa only [InPhase, hphase] using h

theorem serving_of_inPhase (h : InPhase s) (hphase : s.phase = .opened ∨ s.phase = .unbinding) :
    Serving s := by
  rcases hphase with hphase | hphase <;> simpa only [InPhase, hphase] using h

theorem sound_numberAndWrite {written : Bool}
    (h : s.numbered + 1 < 2 ^ 32 → Holding [] s ∧ Serving s)
    (hphase : s.phase = .opened ∨ s.phase = .unbinding) : Sound (s.numberAndWrite written) := by
  refine sound_leaveIf (fun hbound => ?_) fun _ hbound => ?_
  · exact (h hbound).1.increaseMessageId hbound
  · exact inPhase_of_serving (h hbound).2 hphase

section
variable (h : s.numbered < 2 ^ 32 → Holding [] s ∧ Serving s)
  (hphase : s.phase = .opened ∨ s.phase = .unbinding)
include h hphase

theorem sound_handlePdu {now : Int} {written c : Bool} {pdu : SmppPdu 2048}
    (hleave : c = false → (s.handlePdu conf now written pdu).2.status ≠ .disconnected) :
    Sound ((s.handlePdu conf now written pdu).2.leaveIf c) := by
  have hs : Handled s (s.handlePdu conf now written pdu).2 := handlePdu_handled
  obtain ⟨hphase', hnumbered⟩ := handled_frame hs
  refine sound_leaveIf (fun hbound => ?_) fun hstay hbound => ?_
  · exact (h (hnumbered ▸ hbound)).1.handled hs
  · refine inPhase_of_serving ((h (hnumbered ▸ hbound)).2.handled hs (hleave hstay)) ?_
    rwa [hphase']

theorem sound_sendMessages {ok : Bool} (hsend : s.sendMessages conf round = .ok (ok, s')) :
    Sound (s'.leaveIf (!ok)) := by
  unfold Smpp.sendMessages at hsend
  split at hsend
  · cases hsend
    exact fun hbound => ⟨(h hbound).1, inPhase_of_serving (h hbound).2 hphase⟩
  · rename_i hpending
    -- the books may be wrong once the numbers have run out, so the status is asked for later
    have hactive : s.numbered < 2 ^ 32 → s.status = .active := by
      intro hbound
      by_contra hne
      exact hpending ((h hbound).2.2 hne).1
    have hworking : Working s := fun hbound => ⟨(h hbound).1, (h hbound).2.1 (hactive hbound)⟩
    obtain ⟨hworking', ⟨hstatus, hphase'⟩, hle⟩ := sendLoop_working hworking hsend
    refine sound_leaveIf (fun hbound => (hworking' hbound).1) fun _ hbound => ?_
    refine inPhase_of_serving ⟨fun _ => (hworking' hbound).2, fun hne => ?_⟩ (by rwa [hphase'])
    rw [hstatus] at hne
    exact absurd (hactive (hle.trans_lt hbound)) hne

end

theorem not_disconnected_of_isActive (h : s.isActive) : s.status ≠ .disconnected := by
  intro hstatus
  simp [isActive, hstatus] at h

theorem loopStep_sound (h : Sound s) (hphase : s.phase = .opened)
    (hstep : s.loopStep conf a = some s') : Sound s' := by
  have hserving : s.numbered < 2 ^ 32 → Holding [] s ∧ Serving s := fun hbound =>
    ⟨(h hbound).1, serving_of_inPhase (h hbound).2 (.inl hphase)⟩
  cases a with
  | pdu now written pdu =>
    cases hstep
    refine sound_handlePdu hserving (.inl hphase) fun hstay => ?_
    simp only [Bool.or_eq_false_iff, decide_eq_false_iff_not] at hstay
    exact hstay.2
  | wrongLength written =>
    cases hstep
    exact sound_leaveIf (fun hbound => (h hbound).1) fun _ hbound => (h hbound).2
  | lose =>
    cases hstep
    exact sound_leave fun hbound => (h hbound).1
  | enquireLink written =>
    simp only [loopStep] at hstep
    split at hstep
    · cases hstep
      exact sound_numberAndWrite (fun hbound => hserving (by omega)) (.inl hphase)
    · cases hstep
  | cleanup now =>
    cases hstep
    have hkeeps := doQueueCleanup_keeps conf now hserving
    refine sound_leaveIf (fun hbound => (hkeeps hbound).1) fun _ hbound => ?_
    exact inPhase_of_serving (hkeeps hbound).2
      (.inl ((doQueueCleanup_phase conf now s).trans hphase))
  | send now round =>
    simp only [loopStep] at hstep
    split at hstep
    · split at hstep
      · cases hstep
      · rename_i ok s₁ hsend
        cases hstep
        refine sound_sendMessages (s := { s with throttlingErrTime := 0 }) (fun hbound => ?_)
          (.inl hphase) hsend
        obtain ⟨hholding, hwindow⟩ := hserving hbound
        exact ⟨⟨hholding.counter, hholding.keys, hholding.objects, hholding.taken⟩, hwindow⟩
    · cases hstep
      exact h
  | unbind written =>
    simp only [loopStep] at hstep
    split at hstep
    · split at hstep
      · cases hstep
        refine sound_numberAndWrite (fun hbound => ?_) (.inr rfl)
        obtain ⟨hholding, hwindow⟩ := hserving ((Nat.lt_succ_self s.numbered).trans hbound)
        exact ⟨⟨hholding.counter, hholding.keys, hholding.objects, hholding.taken⟩, hwindow⟩
      · cases hstep
        exact sound_leave fun hbound => (h hbound).1
    · cases hstep
  | queue sms => cases hstep
  | shutdown => cases hstep
  | connect connected written => cases hstep
  | flush => cases hstep

theorem unbindingStep_sound (h : Sound s) (hphase : s.phase = .unbinding)
    (hstep : s.unbindingStep conf a = some s') : Sound s' := by
  have hserving : s.numbered < 2 ^ 32 → Holding [] s ∧ Serving s := fun hbound =>
    ⟨(h hbound).1, serving_of_inPhase (h hbound).2 (.inr hphase)⟩
  cases a with
  | pdu now written pdu =>
    have hs' : s' = (s.handlePdu conf now written pdu).2.leaveIf
      (!(s.handlePdu conf now written pdu).2.isActive) := (Option.some.inj hstep).symm
    rw [hs']
    refine sound_handlePdu hserving (.inr hphase) fun hstay => ?_
    exact not_disconnected_of_isActive (by simpa only [Bool.not_eq_false'] using hstay)
  | lose =>
    cases hstep
    exact sound_leave fun hbound => (h hbound).1
  | _ => cases hstep

theorem inPhase_shutdown (h : InPhase s) : InPhase { s with quitting := true } := by
  cases hphase : s.phase with
  | closed =>
    simp only [InPhase, hphase] at h ⊢
    refine ⟨fun hquitting => ?_, h.2⟩
    cases hquitting
  | opened =>
    have hserving : Serving s := serving_of_inPhase h (.inl hphase)
    exact hserving
  | unbinding =>
    have hserving : Serving s := serving_of_inPhase h (.inr hphase)
    exact hserving
  | broken => trivial

theorem connect_sound (connected written : Bool) (h : Sound s) (hphase : s.phase = .closed)
    (hquitting : s.quitting = false) :
    Sound
      (if connected then
        { s with pendingSubmits := -1, phase := .opened }.numberAndWrite written
      else { s with pendingSubmits := -1, phase := .opened }.leave) := by
  split
  · refine sound_numberAndWrite (fun hbound => ?_) (.inl rfl)
    obtain ⟨hholding, hclosed⟩ := h ((Nat.lt_succ_self s.numbered).trans hbound)
    simp only [InPhase, hphase] at hclosed
    refine ⟨⟨hholding.counter, hholding.keys, hholding.objects, hholding.taken⟩, ?_, ?_⟩
    · intro hstatus
      have hactive := hclosed.1 hquitting
      simp [isActive, show s.status = .active from hstatus] at hactive
    · exact fun _ => ⟨rfl, hclosed.2⟩
  · refine sound_leave fun hbound => ?_
    obtain ⟨hholding, -⟩ := h hbound
    exact ⟨hholding.counter, hholding.keys, hholding.objects, hholding.taken⟩

theorem flush_sound (h : Sound s) : Sound { s.flush with phase := .closed } := by
  intro hbound
  have hnumbered : s.flush.numbered = s.numbered := flush_numbered s
  obtain ⟨hflushed, hstatus⟩ := flush_flushed (h (hnumbered ▸ hbound)).1
  refine ⟨⟨hflushed.holding.counter, hflushed.holding.keys, hflushed.holding.objects,
    hflushed.holding.taken⟩, fun hquitting => ?_, hflushed.sentMsgs⟩
  have hreconnecting := hstatus (hflushed.quitting ▸ hquitting)
  simp [isActive, hreconnecting]

end Smpp

variable {s s' : Smpp maxPendingSubmits}

theorem sessionStep_sound (h : s.Sound) (hstep : sessionStep conf s a = some s') : s'.Sound := by
  unfold sessionStep at hstep
  split at hstep
  · -- a message is queued
    cases hstep
    intro hbound
    obtain ⟨hholding, hphase⟩ := h hbound
    refine ⟨⟨hholding.counter, hholding.keys, ?_, hholding.taken⟩, hphase⟩
    show (range (s.queued + 1)).Perm _
    rw [range_succ, map_append, ← append_assoc]
    exact hholding.objects.append_right _
  · -- the shutdown is asked for
    cases hstep
    intro hbound
    obtain ⟨hholding, hphase⟩ := h hbound
    exact ⟨⟨hholding.counter, hholding.keys, hholding.objects, hholding.taken⟩,
      Smpp.inPhase_shutdown hphase⟩
  · -- a connection is opened
    rename_i connected written hphase
    split at hstep
    · cases hstep
    · rename_i hquitting
      have hopened := Smpp.connect_sound connected written h hphase (by simpa using hquitting)
      cases connected <;> cases hstep <;> exact hopened
  · cases hstep
    exact Smpp.flush_sound h
  · exact Smpp.loopStep_sound h (by assumption) hstep
  · exact Smpp.unbindingStep_sound h (by assumption) hstep
  · cases hstep

namespace Smpp

def Bound (s : Smpp maxPendingSubmits) : Prop :=
  (s.phase = .opened ∨ s.phase = .unbinding) ∧ s.status = .active

def InOnePlace (s : Smpp maxPendingSubmits) (ref : Nat) : Prop :=
  (ref ∈ s.sentRefs ∧ s.reportedRefs.count ref = 0) ∨
    (ref ∉ s.sentRefs ∧ s.reportedRefs.count ref = 1)

variable {s : Smpp maxPendingSubmits}

theorem Holding.inOnePlace (h : Holding [] s) {ref : Nat} (href : ref ∈ s.taken) :
    s.InOnePlace ref := by
  have hnodup : s.taken.Nodup :=
    (nodup_append.mp (h.objects.nodup_iff.mp nodup_range)).1
  have hcount : s.sentRefs.count ref + s.reportedRefs.count ref = 1 := by
    have hperm := h.taken.count_eq ref
    rw [nil_append, count_append, count_eq_one_of_mem hnodup href] at hperm
    exact hperm.symm
  by_cases hsent : ref ∈ s.sentRefs
  · have := count_pos_iff.mpr hsent
    exact .inl ⟨hsent, by omega⟩
  · have := count_eq_zero.mpr hsent
    exact .inr ⟨hsent, by omega⟩

theorem sentRefs_eq_nil (h : dictKeyCount s.sentMsgs = 0) : s.sentRefs = [] := by
  rw [sentRefs, (dictValues_eq_nil_iff _).mpr h, map_nil]

end Smpp

theorem flushStep_eq (h : sessionStep conf s .flush = some s') :
    s' = { s.flush with phase := .closed } := by
  cases hphase : s.phase with
  | closed =>
    simp only [sessionStep, hphase] at h
    cases h
  | opened =>
    simp only [sessionStep, hphase] at h
    cases h
  | unbinding =>
    simp only [sessionStep, hphase] at h
    cases h
  | broken =>
    simp only [sessionStep, hphase] at h
    exact (Option.some.inj h).symm

/-- **The window and the accounts.**  For fewer than 2³² PDUs, `pending_submits` is the number
of unanswered messages and within its limit; a link bound to receive submits nothing. Every
message taken is unanswered or was reported once, and the flush at the end leaves nothing. -/
theorem smpp_session_accounts (conf : SessionConf)
    {trace : List (Smpp maxPendingSubmits × SessionAction)}
    {s : Smpp maxPendingSubmits}
    (hrun : Machine.Run (sessionStep conf) (smppCreate maxPendingSubmits) trace s)
    (hnumbered : s.numbered < 2 ^ 32) :
    (s.Bound → s.pendingSubmits = dictKeyCount s.sentMsgs ∧
      s.pendingSubmits ≤ maxPendingSubmits) ∧
      (s.phase = .opened → s.status = .activeRecv →
        s.pendingSubmits = -1 ∧ dictKeyCount s.sentMsgs = 0) ∧
      (∀ ref ∈ s.taken, s.InOnePlace ref) ∧
      ∀ s', sessionStep conf s .flush = some s' →
        s'.msgsToSend = [] ∧ dictKeyCount s'.sentMsgs = 0 ∧
          ∀ ref, ref ∈ s.msgsToSend.map (·.ref) ∨ ref ∈ s.sentRefs ∨ ref ∈ s.taken →
            s'.reportedRefs.count ref = 1 := by
  have hsound : s.Sound := hrun.invariant Smpp.sound_smppCreate fun _ _ _ => sessionStep_sound
  obtain ⟨hholding, hphase⟩ := hsound hnumbered
  refine ⟨?_, ?_, fun ref href => hholding.inOnePlace href, ?_⟩
  · rintro ⟨hopened, hstatus⟩
    exact (Smpp.serving_of_inPhase hphase hopened).1 hstatus
  · intro hopened hstatus
    refine (Smpp.serving_of_inPhase hphase (.inl hopened)).2 ?_
    rw [hstatus]
    decide
  · intro s' hflush
    have hs' : s' = { s.flush with phase := .closed } := flushStep_eq hflush
    obtain ⟨hflushed, -⟩ := Smpp.flush_flushed hholding
    subst hs'
    refine ⟨hflushed.msgsToSend, hflushed.sentMsgs, fun ref href => ?_⟩
    have htaken : ref ∈ s.flush.taken := by
      rw [hflushed.taken]
      rcases href with hqueued | hsent | htaken
      · exact .inr hqueued
      · refine .inl (hholding.taken.mem_iff.mpr ?_)
        exact mem_append_right [] (mem_append_left _ hsent)
      · exact .inl htaken
    rcases hflushed.holding.inOnePlace htaken with ⟨hsent, -⟩ | ⟨-, hcount⟩
    · rw [Smpp.sentRefs_eq_nil hflushed.sentMsgs] at hsent
      cases hsent
    · exact hcount

def plainConf : SessionConf := ⟨plainLink, 60, Smpp.waitackRequeue, -1, false⟩

def plainSms : Sms :=
  { smsCreate uuidClear with
    receiver := some (ascii "1"), msgdata := some (ascii "Hi"), coding := dc7bit }

def submitOne : List SessionAction :=
  [.connect true true, .pdu 0 true (smppPduCreate .bindTransceiverResp 1), .queue plainSms,
    .send 10 fun _ => ⟨false, idleEnv, true⟩]

theorem smpp_session_accounts_submitOne :
    ∃ trace s, Machine.Run (sessionStep plainConf) (smppCreate 10) trace s ∧ s.numbered < 2 ^ 32 ∧
      s.Bound ∧ s.taken = [0] ∧ s.pendingSubmits = dictKeyCount s.sentMsgs ∧ s.InOnePlace 0 := by
  obtain ⟨trace, s, hrun, hphase, hstatus, htaken, hfew⟩ : ∃ trace s,
      Machine.Run (sessionStep plainConf) (smppCreate 10) trace s ∧ s.phase = .opened ∧
        s.status = .active ∧ s.taken = [0] ∧ s.numbered < 2 ^ 32 :=
    Machine.exists_run submitOne (by decide +kernel)
  have hbound : s.Bound := ⟨.inl hphase, hstatus⟩
  have haccounts := smpp_session_accounts plainConf hrun hfew
  refine ⟨trace, s, hrun, hfew, hbound, htaken, (haccounts.1 hbound).1, ?_⟩
  refine haccounts.2.2.1 0 ?_
  rw [htaken]
  exact mem_singleton_self 0

end Kannel
