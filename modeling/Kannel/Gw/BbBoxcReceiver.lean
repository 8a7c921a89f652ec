import Kannel.Gw.BbBoxc

/-!
# The receiver of a connection

What `boxc_receiver` and the end of `run_smsbox` do. `Wakes` and `Drains` set permits and
entries apart.
-/

namespace Kannel
open List

namespace Boxc

inductive ReceiverMove (maxPending : Nat) (bbDead : Bool) (conn : Boxc) : Boxc → List Sms → Prop
  | leave (h : conn.receiver = .reading) (hstop : bbDead = true ∨ conn.alive = false) :
      ReceiverMove maxPending bbDead conn { conn with receiver := .left } []
  | up {orig : Sms} {retry : Bool} (h : conn.receiver = .popping orig retry) :
      ReceiverMove maxPending bbDead conn { conn with
        pending := conn.pending + 1
        receiver := if retry then .retrying orig else .reading } []
  | retry {orig : Sms} (h : conn.receiver = .retrying orig) :
      ReceiverMove maxPending bbDead conn { conn with receiver := .reading } [orig]
  | delist (h : conn.receiver = .left) :
      ReceiverMove maxPending bbDead conn { conn with listed := false, receiver := .delisted } []
  | release (h : conn.receiver = .delisted) :
      ReceiverMove maxPending bbDead conn { conn with producing := false, receiver := .closing } []
  | wake (h : conn.receiver = .closing) (hfull : maxPending ≤ conn.sent.length) :
      ReceiverMove maxPending bbDead conn
        { conn with pending := conn.pending + 1, receiver := .joining true } []
  | pass (h : conn.receiver = .closing) (hroom : conn.sent.length < maxPending) :
      ReceiverMove maxPending bbDead conn { conn with receiver := .joining false } []
  | join {woken : Bool} (h : conn.receiver = .joining woken) (hsender : conn.sender = .left) :
      ReceiverMove maxPending bbDead conn { conn with receiver := .draining none } []
  | drain {msg : Sms} {rest : List Sms} (h : conn.receiver = .draining none)
      (hsent : conn.sent = msg :: rest) :
      ReceiverMove maxPending bbDead conn
        { conn with sent := rest, receiver := .draining (some msg) } []
  | drained (h : conn.receiver = .draining none) (hsent : conn.sent = []) :
      ReceiverMove maxPending bbDead conn { conn with receiver := .clearing none } []
  | requeue {msg : Sms} (h : conn.receiver = .draining (some msg)) :
      ReceiverMove maxPending bbDead conn { conn with receiver := .draining none } [msg]
  | clear {msg : Sms} {rest : List Sms} (h : conn.receiver = .clearing none)
      (hincoming : conn.incoming = msg :: rest) :
      ReceiverMove maxPending bbDead conn
        { conn with incoming := rest, receiver := .clearing (some msg) } []
  | cleared (h : conn.receiver = .clearing none) (hincoming : conn.incoming = []) :
      ReceiverMove maxPending bbDead conn { conn with receiver := .closed } []
  | requeueIncoming {msg : Sms} (h : conn.receiver = .clearing (some msg)) :
      ReceiverMove maxPending bbDead conn { conn with receiver := .clearing none } [msg]

variable {maxPending : Nat} {bbDead : Bool} {conn conn' : Boxc} {given : List Sms}

theorem ReceiverMove.of_receiverStep
    (h : receiverStep maxPending bbDead conn = some (conn', given)) :
    ReceiverMove maxPending bbDead conn conn' given := by
  unfold receiverStep at h
  split at h <;> rename_i hreceiver
  · obtain ⟨hstop, h⟩ := Option.ite_none_right_eq_some.mp h
    cases h
    exact .leave hreceiver (by simpa using hstop)
  · cases h
    exact .up hreceiver
  · cases h
    exact .retry hreceiver
  · cases h
    exact .delist hreceiver
  · cases h
    exact .release hreceiver
  · split_ifs at h with hfull
    · cases h
      exact .wake hreceiver hfull
    · cases h
      exact .pass hreceiver (Nat.lt_of_not_le hfull)
  · split at h
    · rename_i hsender
      cases h
      exact .join hreceiver hsender
    · cases h
  · split at h
    · rename_i hsent
      cases h
      exact .drain hreceiver hsent
    · rename_i hsent
      cases h
      exact .drained hreceiver hsent
  · cases h
    exact .requeue hreceiver
  · split at h
    · rename_i hincoming
      cases h
      exact .clear hreceiver hincoming
    · rename_i hincoming
      cases h
      exact .cleared hreceiver hincoming
  · cases h
    exact .requeueIncoming hreceiver
  · cases h

def Wakes (maxPending : Nat) (conn : Boxc) : Prop :=
  conn.receiver = .closing ∧ maxPending ≤ conn.sent.length

def Drains (conn : Boxc) : Prop := conn.receiver = .draining none ∧ conn.sent ≠ []

section Moves
variable (h : ReceiverMove maxPending bbDead conn conn' given)
include h

theorem ReceiverMove.holds (hwf : conn.Wf maxPending bbDead) (id : Uuid) :
    conn'.holds id + copies id given = conn.holds id := by
  cases h with
  | leave h | delist h | release h | wake h | pass h | join h | drained h | cleared h =>
    simp only [Boxc.holds, h, BoxcReceiver.hand, copies_nil, Nat.add_zero]
  | @up orig retry h =>
    cases retry <;>
      simp only [Boxc.holds, h, BoxcReceiver.hand, copies_nil, Nat.add_zero, if_true,
        Bool.false_eq_true, if_false]
  | retry h | requeue h | requeueIncoming h =>
    simp only [Boxc.holds, h, BoxcReceiver.hand, Option.toList_some, Option.toList_none,
      copies_nil, Nat.add_zero]
  | @drain msg rest h hsent =>
    have hleft := hwf.joined (by simp [h])
    have hdistinct := hwf.distinct
    rw [hsent] at hdistinct
    have habsent : ¬ Has rest msg.id := by
      rintro ⟨other, hmem, hid⟩
      exact (nodup_cons.mp hdistinct).1 (List.mem_map.mpr ⟨other, hmem, hid⟩)
    have hcons : inHand none (msg :: rest) id = inHand (some msg) rest id := rfl
    simp only [Boxc.holds, h, hleft, hsent, BoxcReceiver.hand, BoxcSender.hand, hcons,
      inHand_outside habsent, Option.toList_some, Option.toList_none, copies_nil]
    omega
  | @clear msg rest h hincoming =>
    simp only [Boxc.holds, h, hincoming, BoxcReceiver.hand, copies_cons id msg rest,
      Option.toList_some, Option.toList_none, copies_nil]
    omega

theorem ReceiverMove.balance_iff :
    conn'.balance = conn.balance ↔ ¬ Wakes maxPending conn ∧ ¬ Drains conn := by
  unfold Wakes Drains Boxc.balance
  cases h with
  | leave h | retry h | delist h | release h | join h | requeue h | clear h | cleared h
  | requeueIncoming h => simp [h, BoxcReceiver.owns]
  | @up orig retry h => cases retry <;> simp [h, BoxcReceiver.owns] <;> omega
  | wake h hfull => simp [h, hfull, BoxcReceiver.owns]
  | pass h hroom => simp [h, hroom, BoxcReceiver.owns]
  | drain h hsent | drained h hsent => simp [h, hsent, BoxcReceiver.owns]

theorem ReceiverMove.sent :
    conn'.sent = conn.sent ∨ conn.receiver.stage = 5 ∧ ∃ msg, conn.sent = msg :: conn'.sent := by
  cases h with
  | leave | up | retry | delist | release | wake | pass | join | drained | requeue | clear
  | cleared | requeueIncoming => exact .inl rfl
  | drain h hsent =>
    refine .inr ⟨by rw [h]; rfl, _, hsent⟩

theorem ReceiverMove.sender : conn'.sender = conn.sender := by
  cases h <;> rfl

section Sound
variable (hwf : conn.Wf maxPending bbDead)
include hwf

theorem ReceiverMove.permits (hstage : conn'.receiver.stage ≤ 4) :
    conn'.balance = maxPending + conn'.receiver.granted := by
  have hpermits := hwf.permits
  cases h with
  | leave h | retry h | delist h | release h | wake h | pass h =>
    simp only [h, BoxcReceiver.stage, BoxcReceiver.granted, Boxc.balance, BoxcReceiver.owns]
      at hpermits ⊢
    omega
  | @up orig retry h =>
    cases retry <;>
      simp [h, BoxcReceiver.granted, Boxc.balance, BoxcReceiver.owns]
        at hpermits ⊢ <;>
      omega
  | join | drained | drain | requeue | clear | cleared | requeueIncoming =>
    simp at hstage

section
variable (woken : Bool) (hjoining : conn'.receiver = .joining woken)
include hjoining

theorem ReceiverMove.room : conn'.sent.length < maxPending + woken.toNat + conn'.sender.owes := by
  have hpermits := hwf.permits
  rw [h.sender]
  cases h with
  | leave | retry | delist | release | join | drained | drain | requeue | clear | cleared
  | requeueIncoming => cases hjoining
  | @up orig retry h => cases retry <;> cases hjoining
  | wake h =>
    cases hjoining
    simp only [h, BoxcReceiver.stage, BoxcReceiver.granted, Boxc.balance, BoxcReceiver.owns]
      at hpermits
    show conn.sent.length < maxPending + 1 + conn.sender.owes
    omega
  | pass h hroom =>
    cases hjoining
    exact Nat.lt_add_right _ hroom

theorem ReceiverMove.roomToPut
    (hsender : conn'.sender = .waiting ∨ ∃ msg, conn'.sender = .taken msg) :
    conn'.sent.length < maxPending + woken.toNat := by
  have hroom := h.room hwf woken hjoining
  rcases hsender with hsender | ⟨msg, hsender⟩ <;> rwa [hsender] at hroom

theorem ReceiverMove.roomToTake (msg : Sms) (hsender : conn'.sender = .pushing msg) :
    conn'.sent.length ≤ maxPending + woken.toNat := by
  have hroom := h.room hwf woken hjoining
  rw [hsender] at hroom
  exact Nat.lt_succ_iff.mp hroom

end

/-- What the stages of the receiver's way out say of the connection, after a move. -/
theorem ReceiverMove.staged :
    (1 ≤ conn'.receiver.stage → bbDead = true ∨ conn'.alive = false) ∧
      (2 ≤ conn'.receiver.stage → conn'.listed = false) ∧
      (3 ≤ conn'.receiver.stage → conn'.producing = false) ∧
      (5 ≤ conn'.receiver.stage → conn'.sender = .left) ∧
      (6 ≤ conn'.receiver.stage → conn'.sent = []) ∧
      (7 ≤ conn'.receiver.stage → conn'.incoming = []) := by
  have hstopped := hwf.stopped
  have hunlisted := hwf.unlisted
  have hended := hwf.ended
  have hjoined := hwf.joined
  have hdrained := hwf.drained
  cases h with
  | @up orig retry h => cases retry <;> simp
  | leave h hstop => simpa using hstop
  | retry h => simp
  | delist h | release h | wake h | pass h | join h hsender | drain h | drained h hsent | requeue h
  | clear h | cleared h hincoming | requeueIncoming h => simp_all

end Sound

theorem ReceiverMove.wf (hwf : conn.Wf maxPending bbDead) : conn'.Wf maxPending bbDead where
  distinct := by
    rcases h.sent with hsent | ⟨-, msg, hsent⟩
    · rw [hsent]
      exact hwf.distinct
    · have hdistinct := hwf.distinct
      rw [hsent] at hdistinct
      exact (nodup_cons.mp hdistinct).2
  entered := by
    rw [h.sender]
    rcases h.sent with hsent | ⟨hstage, -⟩
    · rw [hsent]
      exact hwf.entered
    · rw [hwf.joined (by omega)]
      intro msg hmsg
      cases hmsg
  outside := by
    rw [h.sender]
    rcases h.sent with hsent | ⟨hstage, -⟩
    · rw [hsent]
      exact hwf.outside
    · rw [hwf.joined (by omega)]
      intro msg hmsg
      cases hmsg
  permits := h.permits hwf
  roomToPut := h.roomToPut hwf
  roomToTake := h.roomToTake hwf
  stopped := (h.staged hwf).1
  unlisted := (h.staged hwf).2.1
  ended := (h.staged hwf).2.2.1
  joined := (h.staged hwf).2.2.2.1
  drained := (h.staged hwf).2.2.2.2.1
  cleared := (h.staged hwf).2.2.2.2.2

end Moves

def popped (conn : Boxc) (orig : Sms) (retry : Bool) : Boxc :=
  { conn with sent := sentRemove conn.sent orig.id, receiver := .popping orig retry }

theorem acknowledge_cases {id : Uuid} {retry : Bool} {settled : List Uuid}
    (h : acknowledge id retry conn = some (conn', settled)) :
    conn.receiver = .reading ∧ ((conn' = conn ∧ settled = [] ∧ ¬ Has conn.sent id) ∨
      ∃ orig ∈ conn.sent, orig.id = id ∧ conn' = conn.popped orig retry ∧
        settled = if retry then [] else [id]) := by
  unfold acknowledge at h
  split at h
  · rename_i hreading
    refine ⟨hreading, ?_⟩
    split at h
    · rename_i orig hfind
      obtain ⟨hmem, hid⟩ := sentFind_eq_some hfind
      cases h
      refine .inr ⟨orig, hmem, hid, ?_, rfl⟩
      rw [popped, hid]
    · rename_i hnone
      cases h
      exact .inl ⟨rfl, rfl, sentFind_eq_none hnone⟩
  · cases h

theorem inHand_popped {hand : Option Sms} {sent : List Sms} {id : Uuid} (hsent : Has sent id)
    (hhand : ∀ msg, hand = some msg → msg.id ≠ id) (id' : Uuid) :
    (inHand hand (sentRemove sent id) id').toNat + (if id = id' then 1 else 0) =
      (inHand hand sent id').toNat := by
  have hother : ∀ sent', inHand hand sent' id' = true ↔
      (∃ msg, hand = some msg ∧ msg.id = id') ∨ Has sent' id' := by
    intro sent'
    cases hand with
    | none => simp [inHand_none]
    | some msg => simp [inHand_some]
  by_cases hid : id = id'
  · subst hid
    have hgone : inHand hand (sentRemove sent id) id = false := by
      rw [Bool.eq_false_iff, Ne, hother, has_sentRemove]
      rintro (⟨msg, hmsg, hid⟩ | ⟨-, hne⟩)
      · exact hhand msg hmsg hid
      · exact hne rfl
    rw [hgone, if_pos rfl, (hother sent).mpr (.inr hsent)]
    rfl
  · have hsame : inHand hand (sentRemove sent id) id' = inHand hand sent id' := by
      rw [Bool.eq_iff_iff, hother, hother, has_sentRemove, and_iff_left (Ne.symm hid)]
    rw [hsame, if_neg hid, Nat.add_zero]

section
variable (hreading : conn.receiver = .reading)
include hreading

theorem holds_popped {orig : Sms} (hmem : orig ∈ conn.sent)
    (hhand : ∀ msg, conn.sender.hand = some msg → msg.id ≠ orig.id) (retry : Bool) (id : Uuid) :
    (conn.popped orig retry).holds id + (if retry then [] else [orig.id]).count id =
      conn.holds id := by
  have hpopped := inHand_popped ⟨orig, hmem, rfl⟩ hhand id
  cases retry with
  | true =>
    simp only [Boxc.holds, popped, hreading, BoxcReceiver.hand, Option.toList_some,
      Option.toList_none, copies_nil, copies_single, if_true, count_nil]
    omega
  | false =>
    have hcount : List.count id [orig.id] = if orig.id = id then 1 else 0 := by
      simp [count_singleton]
    simp only [Boxc.holds, popped, hreading, BoxcReceiver.hand, Option.toList_none, copies_nil,
      Bool.false_eq_true, if_false, hcount]
    omega

theorem holds_popped_held {orig msg : Sms} (hhand : conn.sender.hand = some msg)
    (hid : msg.id = orig.id) (retry : Bool) :
    (conn.popped orig retry).holds orig.id = conn.holds orig.id + retry.toNat := by
  have hbefore : inHand (some msg) conn.sent orig.id = true := inHand_some.mpr (.inl hid)
  have hafter : inHand (some msg) (sentRemove conn.sent orig.id) orig.id = true :=
    inHand_some.mpr (.inl hid)
  cases retry with
  | true =>
    simp only [Boxc.holds, popped, hreading, hhand, hbefore, hafter, BoxcReceiver.hand,
      Option.toList_some, Option.toList_none, copies_nil, copies_single, if_true,
      Bool.toNat_true, Nat.add_zero]
  | false =>
    simp only [Boxc.holds, popped, hreading, hhand, hbefore, hafter, BoxcReceiver.hand,
      Bool.toNat_false, Nat.add_zero]

theorem balance_popped {orig : Sms} (hdistinct : Distinct conn.sent) (hmem : orig ∈ conn.sent)
    (retry : Bool) :
    (conn.popped orig retry).balance = conn.balance := by
  have hlength := length_sentRemove hdistinct ⟨orig, hmem, rfl⟩
  simp only [Boxc.balance, popped, hreading, BoxcReceiver.owns]
  omega

end

theorem wf_popped {orig : Sms} (hwf : conn.Wf maxPending bbDead)
    (hreading : conn.receiver = .reading) (hmem : orig ∈ conn.sent)
    (hhand : ∀ msg, conn.sender.hand = some msg → msg.id ≠ orig.id) (retry : Bool) :
    (conn.popped orig retry).Wf maxPending bbDead where
  distinct := hwf.distinct.sentRemove orig.id
  entered := by
    intro msg hmsg
    exact (has_sentRemove _ _ _).mpr
      ⟨hwf.entered msg hmsg, hhand msg (BoxcSender.hand_of_entered hmsg)⟩
  outside := by
    intro msg hmsg hsent
    exact hwf.outside msg hmsg ((has_sentRemove _ _ _).mp hsent).1
  permits := by
    intro _
    rw [balance_popped hreading hwf.distinct hmem, hwf.permits (by simp [hreading]),
      hreading]
    rfl
  roomToPut := nofun
  roomToTake := nofun
  stopped := nofun
  unlisted := nofun
  ended := nofun
  joined := nofun
  drained := nofun
  cleared := nofun

theorem disconnect_eq (h : disconnect conn = some conn') :
    conn.receiver = .reading ∧ conn' = { conn with alive := false, receiver := .left } := by
  unfold disconnect at h
  split at h
  · rename_i hreading
    cases h
    exact ⟨hreading, rfl⟩
  · cases h

theorem wf_disconnect (hwf : conn.Wf maxPending bbDead) (h : disconnect conn = some conn') :
    conn'.Wf maxPending bbDead := by
  obtain ⟨hreading, rfl⟩ := disconnect_eq h
  have hpermits := hwf.permits
  exact {
    distinct := hwf.distinct
    entered := hwf.entered
    outside := hwf.outside
    permits := by
      simp only [hreading, BoxcReceiver.stage, BoxcReceiver.granted, Boxc.balance,
        BoxcReceiver.owns] at hpermits ⊢
      omega
    roomToPut := nofun
    roomToTake := nofun
    stopped := fun _ => .inr rfl
    unlisted := nofun
    ended := nofun
    joined := nofun
    drained := nofun
    cleared := nofun }

theorem wf_opened (maxPending : Nat) (bbDead : Bool) :
    (opened maxPending).Wf maxPending bbDead where
  distinct := nodup_nil
  entered := by
    intro msg hmsg
    cases hmsg
  outside := by
    intro msg hmsg
    cases hmsg
  permits := by
    intro _
    simp [opened, Boxc.balance, BoxcSender.owns, BoxcSender.owes, BoxcReceiver.owns,
      BoxcReceiver.granted]
  roomToPut := by
    intro woken hjoining
    cases hjoining
  roomToTake := by
    intro woken hjoining
    cases hjoining
  stopped := nofun
  unlisted := nofun
  ended := nofun
  joined := nofun
  drained := nofun
  cleared := nofun

section
variable (hwf : conn.Wf maxPending bbDead)
include hwf

theorem Wf.deliver (hlisted : conn.listed = true) (msgs : List Sms) :
    ({ conn with incoming := msgs } : Boxc).Wf maxPending bbDead :=
  { hwf with
    cleared := by
      intro hstage
      have hunlisted := hwf.unlisted (show 2 ≤ conn.receiver.stage by
        have hseven : 7 ≤ conn.receiver.stage := hstage
        omega)
      rw [hlisted] at hunlisted
      cases hunlisted }

theorem Wf.dead : conn.Wf maxPending true :=
  { hwf with stopped := fun _ => .inl rfl }

theorem Wf.release : ({ conn with producing := false } : Boxc).Wf maxPending bbDead :=
  { hwf with ended := fun _ => rfl }

end

def senderAlone (bbDead : Bool) (written : Nat → Bool) : Nat → Boxc → Boxc
  | 0, conn => conn
  | n + 1, conn =>
    match conn.senderStep bbDead (written n) with
    | some (conn', _) => senderAlone bbDead written n conn'
    | none => conn

theorem senderStep_of_joining {woken : Bool} (hwf : conn.Wf maxPending bbDead)
    (hjoining : conn.receiver = .joining woken) (hsender : conn.sender ≠ .left) (written : Bool) :
    ∃ conn' given, conn.senderStep bbDead written = some (conn', given) ∧
      conn'.sender.ahead < conn.sender.ahead := by
  have hstopped := hwf.stopped (by simp [hjoining])
  have hended := hwf.ended (by simp [hjoining])
  unfold senderStep
  cases hphase : conn.sender with
  | idle =>
    have hstop : bbDead = true ∨ ¬ conn.alive = true := by simpa using hstopped
    simp only [if_pos hstop]
    exact ⟨_, _, rfl, by simp⟩
  | waiting =>
    cases hincoming : conn.incoming with
    | cons msg rest => exact ⟨_, _, rfl, by simp⟩
    | nil =>
      simp only [hended, Bool.false_eq_true, if_false]
      exact ⟨_, _, rfl, by simp⟩
  | taken msg => exact ⟨_, _, rfl, by simp⟩
  | pushing msg =>
    have hpermits := hwf.permits (by simp [hjoining])
    have hroom := hwf.roomToTake woken hjoining msg hphase
    have hgranted : (BoxcReceiver.joining woken).granted = woken.toNat := by
      cases woken <;> rfl
    simp only [Boxc.balance, hjoining, hphase, BoxcSender.owns, BoxcSender.owes,
      BoxcReceiver.owns] at hpermits
    have hpermit : 0 < conn.pending := by omega
    simp only [if_pos hpermit]
    exact ⟨_, _, rfl, by simp⟩
  | sending msg =>
    dsimp only
    split_ifs
    · exact ⟨_, _, rfl, by simp⟩
    · exact ⟨_, _, rfl, by simp⟩
  | failed msg =>
    dsimp only
    split
    · exact ⟨_, _, rfl, by simp⟩
    · exact ⟨_, _, rfl, by simp⟩
  | popping msg => exact ⟨_, _, rfl, by simp⟩
  | returning msg => exact ⟨_, _, rfl, by simp⟩
  | left => exact absurd hphase hsender

theorem senderAlone_left {written : Nat → Bool} (h : conn.sender = .left) (n : Nat) :
    senderAlone bbDead written n conn = conn := by
  cases n with
  | zero => rfl
  | succ n => simp only [senderAlone, senderStep, h]

theorem senderAlone_leaves {woken : Bool} (hwf : conn.Wf maxPending bbDead)
    (hone : ∀ id, conn.holds id ≤ 1) (hjoining : conn.receiver = .joining woken)
    (written : Nat → Bool) {n : Nat} (hn : conn.sender.ahead ≤ n) :
    (senderAlone bbDead written n conn).sender = .left := by
  induction n generalizing conn with
  | zero =>
    exact BoxcSender.eq_left_of_ahead (Nat.le_zero.mp hn)
  | succ n ih =>
    by_cases hleft : conn.sender = .left
    · rw [senderAlone_left hleft]
      exact hleft
    obtain ⟨conn', given, hstep, hahead⟩ := senderStep_of_joining hwf hjoining hleft (written n)
    have hmove := SenderMove.of_senderStep hstep
    simp only [senderAlone, hstep]
    apply ih (hmove.wf hwf hone)
    · intro id
      have hholds := hmove.holds hwf hone id
      have hbefore := hone id
      omega
    · rw [hmove.frame.1]
      exact hjoining
    · omega

end Boxc
end Kannel
