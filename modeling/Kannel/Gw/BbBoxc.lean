import Kannel.Gw.Msg

/-!
# One connection to an smsbox

`boxc_sender` enters a copy of a message in `sent`, takes a permit and writes the message;
`boxc_receiver` reads acknowledgements and gives the permit back.
-/

namespace Kannel
open List

inductive BoxcSender
  | idle | waiting
  | taken (msg : Sms)
  | pushing (msg : Sms)
  | sending (msg : Sms)
  | failed (msg : Sms)
  | popping (msg : Sms)
  | returning (msg : Sms)
  | left
  deriving DecidableEq

def BoxcSender.hand : BoxcSender → Option Sms
  | .idle | .waiting | .left => none
  | .taken msg | .pushing msg | .sending msg | .failed msg | .popping msg | .returning msg =>
    some msg

def BoxcSender.entered : BoxcSender → Option Sms
  | .pushing msg | .sending msg | .failed msg => some msg
  | _ => none

variable {msg : Sms} {sender : BoxcSender}

theorem BoxcSender.hand_of_entered (h : sender.entered = some msg) : sender.hand = some msg := by
  cases sender <;> first | exact h | cases h

def BoxcSender.outside : BoxcSender → Option Sms
  | .taken msg | .popping msg | .returning msg => some msg
  | _ => none

def BoxcSender.owes : BoxcSender → Nat
  | .pushing _ => 1
  | _ => 0

def BoxcSender.owns : BoxcSender → Nat
  | .popping _ => 1
  | _ => 0

def BoxcSender.ahead : BoxcSender → Nat
  | .left => 0
  | .idle | .returning _ => 1
  | .popping _ => 2
  | .failed _ => 3
  | .sending _ => 4
  | .pushing _ => 5
  | .taken _ => 6
  | .waiting => 7

theorem BoxcSender.eq_left_of_ahead (h : sender.ahead = 0) : sender = .left := by
  cases sender <;> first | rfl | cases h

inductive BoxcReceiver
  | reading
  | popping (orig : Sms) (retry : Bool)
  | retrying (orig : Sms)
  | left | delisted | closing
  | joining (woken : Bool)
  | draining (hand : Option Sms)
  | clearing (hand : Option Sms)
  | closed
  deriving DecidableEq

def BoxcReceiver.hand : BoxcReceiver → Option Sms
  | .popping orig true | .retrying orig => some orig
  | .draining hand | .clearing hand => hand
  | _ => none

def BoxcReceiver.owns : BoxcReceiver → Nat
  | .popping .. => 1
  | _ => 0

def BoxcReceiver.granted : BoxcReceiver → Nat
  | .joining true => 1
  | _ => 0

def BoxcReceiver.stage : BoxcReceiver → Nat
  | .reading | .popping .. | .retrying _ => 0
  | .left => 1
  | .delisted => 2
  | .closing => 3
  | .joining _ => 4
  | .draining _ => 5
  | .clearing _ => 6
  | .closed => 7

attribute [simp] BoxcReceiver.stage BoxcSender.ahead

structure Boxc where
  incoming : List Sms
  sent : List Sms
  pending : Nat
  alive : Bool
  listed : Bool
  producing : Bool
  sender : BoxcSender
  receiver : BoxcReceiver

def Boxc.opened (maxPending : Nat) : Boxc where
  incoming := []
  sent := []
  pending := maxPending
  alive := true
  listed := true
  producing := true
  sender := .idle
  receiver := .reading

def sentPut (sent : List Sms) (msg : Sms) : List Sms :=
  msg :: sent.filter fun other => other.id ≠ msg.id

def sentRemove (sent : List Sms) (id : Uuid) : List Sms := sent.filter fun other => other.id ≠ id

def sentFind (sent : List Sms) (id : Uuid) : Option Sms := sent.find? fun other => other.id = id

variable {id : Uuid} {sent given : List Sms} {bbDead : Bool} {conn conn' : Boxc} {maxPending : Nat}

namespace Boxc

def senderStep (bbDead written : Bool) (conn : Boxc) : Option (Boxc × List Sms) :=
  match conn.sender with
  | .idle =>
    if bbDead ∨ ¬ conn.alive then some ({ conn with sender := .left }, [])
    else some ({ conn with sender := .waiting }, [])
  | .waiting =>
    match conn.incoming with
    | msg :: rest => some ({ conn with incoming := rest, sender := .taken msg }, [])
    | [] => if conn.producing then none else some ({ conn with sender := .left }, [])
  | .taken msg => some ({ conn with sent := sentPut conn.sent msg, sender := .pushing msg }, [])
  | .pushing msg =>
    if 0 < conn.pending then
      some ({ conn with pending := conn.pending - 1, sender := .sending msg }, [])
    else none
  | .sending msg =>
    if conn.alive ∧ written then some ({ conn with sender := .idle }, [])
    else some ({ conn with sender := .failed msg }, [])
  | .failed msg =>
    match sentFind conn.sent msg.id with
    | some _ => some ({ conn with sent := sentRemove conn.sent msg.id, sender := .popping msg }, [])
    | none => some ({ conn with sender := .returning msg }, [])
  | .popping msg => some ({ conn with pending := conn.pending + 1, sender := .returning msg }, [])
  | .returning msg => some ({ conn with sender := .left }, [msg])
  | .left => none

def receiverStep (maxPending : Nat) (bbDead : Bool) (conn : Boxc) : Option (Boxc × List Sms) :=
  match conn.receiver with
  | .reading =>
    if bbDead ∨ ¬ conn.alive then some ({ conn with receiver := .left }, []) else none
  | .popping orig retry =>
    some ({ conn with
      pending := conn.pending + 1
      receiver := if retry then .retrying orig else .reading }, [])
  | .retrying orig => some ({ conn with receiver := .reading }, [orig])
  | .left => some ({ conn with listed := false, receiver := .delisted }, [])
  | .delisted => some ({ conn with producing := false, receiver := .closing }, [])
  | .closing =>
    if maxPending ≤ conn.sent.length then
      some ({ conn with pending := conn.pending + 1, receiver := .joining true }, [])
    else some ({ conn with receiver := .joining false }, [])
  | .joining _ =>
    match conn.sender with
    | .left => some ({ conn with receiver := .draining none }, [])
    | _ => none
  | .draining none =>
    match conn.sent with
    | msg :: rest => some ({ conn with sent := rest, receiver := .draining (some msg) }, [])
    | [] => some ({ conn with receiver := .clearing none }, [])
  | .draining (some msg) => some ({ conn with receiver := .draining none }, [msg])
  | .clearing none =>
    match conn.incoming with
    | msg :: rest => some ({ conn with incoming := rest, receiver := .clearing (some msg) }, [])
    | [] => some ({ conn with receiver := .closed }, [])
  | .clearing (some msg) => some ({ conn with receiver := .clearing none }, [msg])
  | .closed => none

def acknowledge (id : Uuid) (retry : Bool) (conn : Boxc) : Option (Boxc × List Uuid) :=
  match conn.receiver with
  | .reading =>
    match sentFind conn.sent id with
    | some orig =>
      some ({ conn with sent := sentRemove conn.sent id, receiver := .popping orig retry },
        if retry then [] else [id])
    | none => some (conn, [])
  | _ => none

def disconnect (conn : Boxc) : Option Boxc :=
  match conn.receiver with
  | .reading => some { conn with alive := false, receiver := .left }
  | _ => none

def Has (sent : List Sms) (id : Uuid) : Prop := ∃ msg ∈ sent, msg.id = id

theorem has_sentPut (sent : List Sms) (msg : Sms) (id : Uuid) :
    Has (sentPut sent msg) id ↔ msg.id = id ∨ Has sent id := by
  constructor
  · rintro ⟨other, hmem, hid⟩
    rcases mem_cons.mp hmem with rfl | hmem
    · exact .inl hid
    · exact .inr ⟨other, (mem_filter.mp hmem).1, hid⟩
  · rintro (hid | ⟨other, hmem, hid⟩)
    · exact ⟨msg, mem_cons_self, hid⟩
    · by_cases hsame : other.id = msg.id
      · exact ⟨msg, mem_cons_self, hsame.symm.trans hid⟩
      · exact ⟨other, mem_cons_of_mem _ (mem_filter.mpr ⟨hmem, by simpa using hsame⟩), hid⟩

theorem has_sentRemove (sent : List Sms) (id id' : Uuid) :
    Has (sentRemove sent id) id' ↔ Has sent id' ∧ id' ≠ id := by
  constructor
  · rintro ⟨msg, hmem, rfl⟩
    obtain ⟨hmem, hne⟩ := mem_filter.mp hmem
    exact ⟨⟨msg, hmem, rfl⟩, by simpa using hne⟩
  · rintro ⟨⟨msg, hmem, rfl⟩, hne⟩
    exact ⟨msg, mem_filter.mpr ⟨hmem, by simpa using hne⟩, rfl⟩

theorem sentFind_eq_some {orig : Sms} (h : sentFind sent id = some orig) :
    orig ∈ sent ∧ orig.id = id :=
  ⟨mem_of_find?_eq_some h, by simpa using List.find?_some h⟩

theorem sentFind_eq_none (h : sentFind sent id = none) : ¬ Has sent id := by
  rintro ⟨msg, hmem, hid⟩
  have hnone := List.find?_eq_none.mp h msg hmem
  simp [hid] at hnone

def Distinct (sent : List Sms) : Prop := (sent.map (·.id)).Nodup

theorem Distinct.sentRemove (h : Distinct sent) (id : Uuid) : Distinct (sentRemove sent id) :=
  Nodup.sublist (List.Sublist.map _ filter_sublist) h

theorem Distinct.sentPut (h : Distinct sent) (msg : Sms) : Distinct (sentPut sent msg) := by
  refine nodup_cons.mpr ⟨?_, h.sentRemove msg.id⟩
  intro hmem
  obtain ⟨other, hother, hid⟩ := List.mem_map.mp hmem
  simpa [hid] using (mem_filter.mp hother).2

theorem length_sentRemove (hdistinct : Distinct sent) (h : Has sent id) :
    (sentRemove sent id).length + 1 = sent.length := by
  obtain ⟨msg, hmem, rfl⟩ := h
  obtain ⟨front, back, rfl⟩ := append_of_mem hmem
  have hother : ∀ part : List Sms, (∀ other ∈ part, other.id ≠ msg.id) →
      sentRemove part msg.id = part :=
    fun part hpart => filter_eq_self.mpr fun other hmem => by simpa using hpart other hmem
  unfold Distinct at hdistinct
  rw [map_append, map_cons, nodup_append] at hdistinct
  obtain ⟨-, hback, hcross⟩ := hdistinct
  have hsplit : sentRemove (front ++ msg :: back) msg.id = front ++ back := by
    have hfront := hother front fun other hmem heq =>
      hcross other.id (List.mem_map_of_mem hmem) msg.id mem_cons_self heq
    have hback := hother back fun other hmem heq =>
      (nodup_cons.mp hback).1 (heq ▸ List.mem_map_of_mem hmem)
    unfold sentRemove at hfront hback ⊢
    rw [filter_append, filter_cons_of_neg (by simp), hfront, hback]
  rw [hsplit, length_append, length_append, length_cons]
  omega

theorem length_sentPut (h : ¬ Has sent msg.id) : (sentPut sent msg).length = sent.length + 1 := by
  have hself : (sent.filter fun other => other.id ≠ msg.id) = sent :=
    filter_eq_self.mpr fun other hmem => by simpa using fun hid => h ⟨other, hmem, hid⟩
  rw [sentPut, hself, length_cons]

def copies (id : Uuid) (msgs : List Sms) : Nat := msgs.countP fun msg => msg.id = id

@[simp] theorem copies_nil (id : Uuid) : copies id [] = 0 := rfl

theorem copies_cons (id : Uuid) (msg : Sms) (msgs : List Sms) :
    copies id (msg :: msgs) = copies id [msg] + copies id msgs := by
  simp only [copies, countP_cons, countP_nil]
  omega

theorem copies_append (id : Uuid) (msgs msgs' : List Sms) :
    copies id (msgs ++ msgs') = copies id msgs + copies id msgs' := countP_append

theorem copies_single (id : Uuid) (msg : Sms) : copies id [msg] = if msg.id = id then 1 else 0 := by
  simp [copies]

def inHand (hand : Option Sms) (sent : List Sms) (id : Uuid) : Bool :=
  (hand.toList ++ sent).any fun msg => msg.id = id

def holds (conn : Boxc) (id : Uuid) : Nat :=
  copies id conn.incoming + (inHand conn.sender.hand conn.sent id).toNat +
    copies id conn.receiver.hand.toList

theorem inHand_none : inHand none sent id = true ↔ Has sent id := by
  simp [inHand, Has]

theorem inHand_some : inHand (some msg) sent id = true ↔ msg.id = id ∨ Has sent id := by
  simp [inHand, Has]

theorem inHand_some_of_ne (h : msg.id ≠ id) : inHand (some msg) sent id = inHand none sent id := by
  rw [Bool.eq_iff_iff, inHand_some, inHand_none, or_iff_right h]

def balance (conn : Boxc) : Int :=
  conn.pending + conn.sent.length + conn.sender.owns + conn.receiver.owns - conn.sender.owes

structure Wf (maxPending : Nat) (bbDead : Bool) (conn : Boxc) : Prop where
  distinct : Distinct conn.sent
  entered : ∀ msg, conn.sender.entered = some msg → Has conn.sent msg.id
  outside : ∀ msg, conn.sender.outside = some msg → ¬ Has conn.sent msg.id
  permits : conn.receiver.stage ≤ 4 → conn.balance = maxPending + conn.receiver.granted
  roomToPut : ∀ woken, conn.receiver = .joining woken →
    (conn.sender = .waiting ∨ ∃ msg, conn.sender = .taken msg) →
      conn.sent.length < maxPending + woken.toNat
  roomToTake : ∀ woken, conn.receiver = .joining woken → ∀ msg, conn.sender = .pushing msg →
    conn.sent.length ≤ maxPending + woken.toNat
  stopped : 1 ≤ conn.receiver.stage → bbDead = true ∨ conn.alive = false
  unlisted : 2 ≤ conn.receiver.stage → conn.listed = false
  ended : 3 ≤ conn.receiver.stage → conn.producing = false
  joined : 5 ≤ conn.receiver.stage → conn.sender = .left
  drained : 6 ≤ conn.receiver.stage → conn.sent = []
  cleared : 7 ≤ conn.receiver.stage → conn.incoming = []

inductive SenderMove (bbDead : Bool) (conn : Boxc) : Boxc → List Sms → Prop
  | leave (h : conn.sender = .idle) : SenderMove bbDead conn { conn with sender := .left } []
  | wait (h : conn.sender = .idle) (hlive : bbDead = false ∧ conn.alive = true) :
      SenderMove bbDead conn { conn with sender := .waiting } []
  | consume {msg : Sms} {rest : List Sms} (h : conn.sender = .waiting)
      (hincoming : conn.incoming = msg :: rest) :
      SenderMove bbDead conn { conn with incoming := rest, sender := .taken msg } []
  | finish (h : conn.sender = .waiting) : SenderMove bbDead conn { conn with sender := .left } []
  | put {msg : Sms} (h : conn.sender = .taken msg) :
      SenderMove bbDead conn { conn with sent := sentPut conn.sent msg, sender := .pushing msg } []
  | down {msg : Sms} (h : conn.sender = .pushing msg) (hpermit : 0 < conn.pending) :
      SenderMove bbDead conn { conn with pending := conn.pending - 1, sender := .sending msg } []
  | write {msg : Sms} (h : conn.sender = .sending msg) :
      SenderMove bbDead conn { conn with sender := .idle } []
  | fail {msg : Sms} (h : conn.sender = .sending msg) :
      SenderMove bbDead conn { conn with sender := .failed msg } []
  | remove {msg : Sms} (h : conn.sender = .failed msg) :
      SenderMove bbDead conn
        { conn with sent := sentRemove conn.sent msg.id, sender := .popping msg } []
  | missing {msg : Sms} (h : conn.sender = .failed msg) (hnone : ¬ Has conn.sent msg.id) :
      SenderMove bbDead conn { conn with sender := .returning msg } []
  | up {msg : Sms} (h : conn.sender = .popping msg) :
      SenderMove bbDead conn { conn with pending := conn.pending + 1, sender := .returning msg } []
  | giveBack {msg : Sms} (h : conn.sender = .returning msg) :
      SenderMove bbDead conn { conn with sender := .left } [msg]

theorem SenderMove.of_senderStep {written : Bool}
    (h : senderStep bbDead written conn = some (conn', given)) :
    SenderMove bbDead conn conn' given := by
  unfold senderStep at h
  cases hsender : conn.sender with
  | idle =>
    simp only [hsender] at h
    split_ifs at h with hstop
    · cases h
      exact .leave hsender
    · cases h
      exact .wait hsender (by simpa using hstop)
  | waiting =>
    simp only [hsender] at h
    split at h
    · rename_i msg rest hincoming
      cases h
      exact .consume hsender hincoming
    · split_ifs at h
      cases h
      exact .finish hsender
  | taken msg =>
    simp only [hsender] at h
    cases h
    exact .put hsender
  | pushing msg =>
    simp only [hsender] at h
    obtain ⟨hpermit, h⟩ := Option.ite_none_right_eq_some.mp h
    cases h
    exact .down hsender hpermit
  | sending msg =>
    simp only [hsender] at h
    split_ifs at h with hwritten
    · cases h
      exact .write hsender
    · cases h
      exact .fail hsender
  | failed msg =>
    simp only [hsender] at h
    split at h
    · cases h
      exact .remove hsender
    · rename_i hnone
      cases h
      exact .missing hsender (sentFind_eq_none hnone)
  | popping msg =>
    simp only [hsender] at h
    cases h
    exact .up hsender
  | returning msg =>
    simp only [hsender] at h
    cases h
    exact .giveBack hsender
  | left =>
    simp only [hsender] at h
    cases h

theorem inHand_sentPut (msg : Sms) (sent : List Sms) (id : Uuid) :
    inHand (some msg) (sentPut sent msg) id = inHand (some msg) sent id := by
  rw [Bool.eq_iff_iff, inHand_some, inHand_some, has_sentPut]
  tauto

theorem inHand_sentRemove (msg : Sms) (sent : List Sms) (id : Uuid) :
    inHand (some msg) (sentRemove sent msg.id) id = inHand (some msg) sent id := by
  rw [Bool.eq_iff_iff, inHand_some, inHand_some, has_sentRemove]
  by_cases hid : msg.id = id
  · simp [hid]
  · simp [hid, Ne.symm hid]

theorem inHand_entered (h : Has sent msg.id) (id : Uuid) :
    inHand none sent id = inHand (some msg) sent id := by
  rw [Bool.eq_iff_iff, inHand_some, inHand_none]
  constructor
  · exact .inr
  · rintro (rfl | hsent)
    · exact h
    · exact hsent

theorem inHand_outside (h : ¬ Has sent msg.id) (id : Uuid) :
    (inHand (some msg) sent id).toNat = (inHand none sent id).toNat + copies id [msg] := by
  rw [copies_single]
  by_cases hid : msg.id = id
  · have hnone : inHand none sent id = false := by
      rw [Bool.eq_false_iff, Ne, inHand_none, ← hid]
      exact h
    rw [inHand_some.mpr (.inl hid), hnone, if_pos hid]
    rfl
  · rw [inHand_some_of_ne hid, if_neg hid, Nat.add_zero]

theorem not_has_of_consume {rest : List Sms} (h : conn.sender = .waiting)
    (hincoming : conn.incoming = msg :: rest) (hone : conn.holds msg.id ≤ 1) :
    ¬ Has conn.sent msg.id := by
  intro hsent
  rw [Boxc.holds, hincoming, copies_cons, copies_single, if_pos rfl, h, BoxcSender.hand,
    inHand_none.mpr hsent, Bool.toNat_true] at hone
  omega

section
variable (h : SenderMove bbDead conn conn' given) (hwf : conn.Wf maxPending bbDead)
include h hwf

theorem SenderMove.holds (hone : ∀ id, conn.holds id ≤ 1) (id : Uuid) :
    conn'.holds id + copies id given = conn.holds id := by
  have hentered := hwf.entered
  have houtside := hwf.outside
  cases h with
  | leave h | wait h | finish h | down h | fail h | missing h | up h =>
    simp only [Boxc.holds, h, BoxcSender.hand, copies_nil, Nat.add_zero]
  | @consume msg rest h hincoming =>
    have habsent := not_has_of_consume h hincoming (hone msg.id)
    simp only [Boxc.holds, h, BoxcSender.hand, hincoming, inHand_outside habsent,
      copies_cons id msg rest, copies_nil]
    omega
  | @put msg h =>
    simp only [Boxc.holds, h, BoxcSender.hand, inHand_sentPut, copies_nil, Nat.add_zero]
  | @write msg h =>
    rw [h] at hentered
    simp only [Boxc.holds, h, BoxcSender.hand, inHand_entered (hentered msg rfl), copies_nil,
      Nat.add_zero]
  | @remove msg h =>
    simp only [Boxc.holds, h, BoxcSender.hand, inHand_sentRemove, copies_nil, Nat.add_zero]
  | @giveBack msg h =>
    rw [h] at houtside
    simp only [Boxc.holds, h, BoxcSender.hand, inHand_outside (houtside msg rfl)]
    omega

theorem SenderMove.balance : conn'.balance = conn.balance := by
  have hentered := hwf.entered
  have houtside := hwf.outside
  cases h with
  | leave h | wait h | finish h | write h | fail h | missing h | giveBack h =>
    simp only [Boxc.balance, h, BoxcSender.owns, BoxcSender.owes]
  | consume h => simp only [Boxc.balance, h, BoxcSender.owns, BoxcSender.owes]
  | @put msg h =>
    rw [h] at houtside
    simp only [Boxc.balance, h, BoxcSender.owns, BoxcSender.owes, length_sentPut (houtside msg rfl)]
    omega
  | down h hpermit =>
    simp only [Boxc.balance, h, BoxcSender.owns, BoxcSender.owes]
    omega
  | @remove msg h =>
    rw [h] at hentered
    have hlength := length_sentRemove hwf.distinct (hentered msg rfl)
    simp only [Boxc.balance, h, BoxcSender.owns, BoxcSender.owes]
    omega
  | up h =>
    simp only [Boxc.balance, h, BoxcSender.owns, BoxcSender.owes]
    omega

end

theorem Wf.stage_le (hwf : conn.Wf maxPending bbDead) (h : conn.sender ≠ .left) :
    conn.receiver.stage ≤ 4 := by
  by_contra hstage
  exact h (hwf.joined (by omega))

section Moving
variable (h : SenderMove bbDead conn conn' given)
include h

theorem SenderMove.sender_ne : conn.sender ≠ .left := by
  cases h with
  | leave h | wait h | finish h | put h | down h | write h | fail h | remove h | missing h | up h
  | giveBack h | consume h =>
    rw [h]
    exact BoxcSender.noConfusion

theorem SenderMove.frame :
    conn'.receiver = conn.receiver ∧ conn'.alive = conn.alive ∧ conn'.listed = conn.listed ∧
      conn'.producing = conn.producing := by
  cases h <;> exact ⟨rfl, rfl, rfl, rfl⟩

theorem SenderMove.distinct (hdistinct : Distinct conn.sent) : Distinct conn'.sent := by
  cases h with
  | leave | wait | consume | finish | down | write | fail | missing | up | giveBack =>
    exact hdistinct
  | put => exact hdistinct.sentPut _
  | remove => exact hdistinct.sentRemove _

section Sound
variable (hwf : conn.Wf maxPending bbDead)
include hwf

theorem SenderMove.entered (msg : Sms) (hmsg : conn'.sender.entered = some msg) :
    Has conn'.sent msg.id := by
  cases h with
  | leave | wait | consume | finish | write | remove | missing | up | giveBack => cases hmsg
  | put =>
    cases hmsg
    exact (has_sentPut _ _ _).mpr (.inl rfl)
  | down h | fail h =>
    cases hmsg
    exact hwf.entered msg (by rw [h]; rfl)

theorem SenderMove.outside (hone : ∀ id, conn.holds id ≤ 1) (msg : Sms)
    (hmsg : conn'.sender.outside = some msg) : ¬ Has conn'.sent msg.id := by
  cases h with
  | leave | wait | finish | put | down | write | fail | giveBack => cases hmsg
  | consume h hincoming =>
    cases hmsg
    show ¬ Has conn.sent msg.id
    exact not_has_of_consume h hincoming (hone msg.id)
  | remove =>
    cases hmsg
    rw [has_sentRemove]
    exact fun hsent => hsent.2 rfl
  | missing h hnone =>
    cases hmsg
    exact hnone
  | up h =>
    cases hmsg
    exact hwf.outside msg (by rw [h]; rfl)

theorem SenderMove.roomToPut (woken : Bool) (hjoining : conn.receiver = .joining woken)
    (hsender : conn'.sender = .waiting ∨ ∃ msg, conn'.sender = .taken msg) :
    conn'.sent.length < maxPending + woken.toNat := by
  cases h with
  | leave | finish | put | down | write | fail | remove | missing | up | giveBack => simp at hsender
  | wait h hlive =>
    have hstopped := hwf.stopped (by simp [hjoining])
    simp [hlive.1, hlive.2] at hstopped
  | consume h => exact hwf.roomToPut woken hjoining (.inl h)

theorem SenderMove.roomToTake (woken : Bool) (hjoining : conn.receiver = .joining woken) (msg : Sms)
    (hsender : conn'.sender = .pushing msg) : conn'.sent.length ≤ maxPending + woken.toNat := by
  cases h with
  | leave | wait | consume | finish | down | write | fail | remove | missing | up | giveBack =>
    cases hsender
  | put h =>
    cases hsender
    have hroom := hwf.roomToPut woken hjoining (.inr ⟨msg, h⟩)
    have habsent := hwf.outside msg (by rw [h]; rfl)
    show (sentPut conn.sent msg).length ≤ _
    rw [length_sentPut habsent]
    exact hroom

theorem SenderMove.wf (hone : ∀ id, conn.holds id ≤ 1) : conn'.Wf maxPending bbDead := by
  obtain ⟨hreceiver, halive, hlisted, hproducing⟩ := h.frame
  have hstage := hwf.stage_le h.sender_ne
  exact {
    distinct := h.distinct hwf.distinct
    entered := h.entered hwf
    outside := h.outside hwf hone
    permits := by
      rw [hreceiver, h.balance hwf]
      exact hwf.permits
    roomToPut := by
      rw [hreceiver]
      exact h.roomToPut hwf
    roomToTake := by
      rw [hreceiver]
      exact h.roomToTake hwf
    stopped := by
      rw [hreceiver, halive]
      exact hwf.stopped
    unlisted := by
      rw [hreceiver, hlisted]
      exact hwf.unlisted
    ended := by
      rw [hreceiver, hproducing]
      exact hwf.ended
    joined := by
      rw [hreceiver]
      omega
    drained := by
      rw [hreceiver]
      omega
    cleared := by
      rw [hreceiver]
      omega }

end Sound
end Moving
end Boxc
end Kannel
