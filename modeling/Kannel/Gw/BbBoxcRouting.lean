import Kannel.Gw.BbBoxcReceiver
import Kannel.Lib.Machine

/-!
# Incoming messages on their way to the smsboxes

The connections, `incoming_sms` and `sms_to_smsboxes` as one machine; every operation on a list,
a dictionary or a semaphore is a step.
-/

namespace Kannel
open List
open Machine Boxc

/-- `arrived` are the ids of all messages so far, `settled` those that were acknowledged
finally. -/
structure BoxcSystem where
  incomingSms : List Sms
  router : Option Sms
  routing : Bool
  bbDead : Bool
  conns : List Boxc
  arrived : List Uuid
  settled : List Uuid

inductive BoxcAction
  | arrive (msg : Sms) (dest : Option Nat)
  | take
  | route (dest : Option Nat) (front : Bool)
  | endRouting | connect
  | sender (i : Nat) (written : Bool)
  | receiver (i : Nat)
  | acknowledge (i : Nat) (id : Uuid) (retry : Bool)
  | disconnect (i : Nat)
  | die

variable {s s' : BoxcSystem} {maxPending i : Nat} {dest : Option Nat} {front : Bool} {msg : Sms}
  {a : BoxcAction}

namespace BoxcSystem

def start : BoxcSystem where
  incomingSms := []
  router := none
  routing := true
  bbDead := false
  conns := []
  arrived := []
  settled := []

def deliver (s : BoxcSystem) (msg : Sms) (front : Bool) : Option Nat → Option BoxcSystem
  | none =>
    some { s with
      incomingSms := if front then msg :: s.incomingSms else s.incomingSms ++ [msg] }
  | some i => do
    let conn ← s.conns[i]?
    if conn.listed then
      some { s with conns := s.conns.set i { conn with incoming := conn.incoming ++ [msg] } }
    else none

def step (maxPending : Nat) (s : BoxcSystem) : BoxcAction → Option BoxcSystem
  | .arrive msg dest =>
    if msg.id ∈ s.arrived then none
    else deliver { s with arrived := msg.id :: s.arrived } msg false dest
  | .take =>
    match s.router, s.incomingSms with
    | none, msg :: rest =>
      if s.routing then some { s with router := some msg, incomingSms := rest } else none
    | _, _ => none
  | .route dest front =>
    match s.router with
    | some msg => deliver { s with router := none } msg front dest
    | none => none
  | .endRouting =>
    match s.router with
    | some _ => none
    | none => some { s with
        routing := false
        conns := s.conns.map fun conn =>
          if conn.listed then { conn with producing := false } else conn }
  | .connect => some { s with conns := s.conns ++ [opened maxPending] }
  | .sender i written => do
    let conn ← s.conns[i]?
    let (conn', given) ← conn.senderStep s.bbDead written
    some { s with conns := s.conns.set i conn', incomingSms := s.incomingSms ++ given }
  | .receiver i => do
    let conn ← s.conns[i]?
    let (conn', given) ← conn.receiverStep maxPending s.bbDead
    some { s with conns := s.conns.set i conn', incomingSms := s.incomingSms ++ given }
  | .acknowledge i id retry => do
    let conn ← s.conns[i]?
    let (conn', settled) ← conn.acknowledge id retry
    some { s with conns := s.conns.set i conn', settled := settled ++ s.settled }
  | .disconnect i => do
    let conn ← s.conns[i]?
    let conn' ← conn.disconnect
    some { s with conns := s.conns.set i conn' }
  | .die => some { s with bbDead := true }

def places (s : BoxcSystem) (id : Uuid) : Nat :=
  copies id s.incomingSms + copies id s.router.toList + (s.conns.map (·.holds id)).sum

def Placed (s : BoxcSystem) : Prop :=
  ∀ id ∈ s.arrived, s.places id = if id ∈ s.settled then 0 else 1

def JoinsReturn (s : BoxcSystem) : Prop :=
  ∀ conn ∈ s.conns, ∀ woken, conn.receiver = .joining woken → ∀ written,
    ∃ n, (senderAlone s.bbDead written n conn).sender = .left

def AssertionsHold (s : BoxcSystem) : Prop :=
  ∀ conn ∈ s.conns, conn.receiver = .closed → conn.incoming = [] ∧ conn.sent = []

def PermitsMatch (maxPending : Nat) (s : BoxcSystem) : Prop :=
  ∀ conn ∈ s.conns, conn.balance = maxPending

def AcknowledgesHeld (s : BoxcSystem) : BoxcAction → Prop
  | .acknowledge i id _ =>
    ∃ conn ∈ s.conns[i]?, ∃ msg ∈ conn.sender.hand, msg.id = id ∧ Has conn.sent id
  | _ => False

instance decidableAcknowledgesHeld (s : BoxcSystem) (a : BoxcAction) :
    Decidable (s.AcknowledgesHeld a) :=
  match a with
  | .acknowledge i id _ =>
    inferInstanceAs (Decidable (∃ conn ∈ s.conns[i]?, ∃ msg ∈ conn.sender.hand,
      msg.id = id ∧ ∃ other ∈ conn.sent, other.id = id))
  | .arrive .. | .take | .route .. | .endRouting | .connect | .sender .. | .receiver _
  | .disconnect _ | .die => inferInstanceAs (Decidable False)

def SetsApart (maxPending : Nat) (s : BoxcSystem) (a : BoxcAction) : Prop :=
  ∃ i conn, a = .receiver i ∧ s.conns[i]? = some conn ∧ (Wakes maxPending conn ∨ Drains conn)

variable {i : Nat}

theorem sum_map_set {α : Type} (f : α → Nat) {items : List α} {item : α} (h : items[i]? = some item)
    (item' : α) :
    ((items.set i item').map f).sum + f item = (items.map f).sum + f item' := by
  induction items generalizing i with
  | nil => simp at h
  | cons first items ih =>
    cases i with
    | zero =>
      simp only [List.getElem?_cons_zero, Option.some.injEq] at h
      subst h
      simp only [set_cons_zero, map_cons, sum_cons]
      omega
    | succ i =>
      have hrest := ih h
      simp only [set_cons_succ, map_cons, sum_cons]
      omega

variable {conn : Boxc}

theorem holds_le_places (h : conn ∈ s.conns) (id : Uuid) : conn.holds id ≤ s.places id := by
  have hle := single_le_sum (fun _ _ => Nat.zero_le _) _ (List.mem_map_of_mem (f := (·.holds id)) h)
  unfold places
  omega

def due (s : BoxcSystem) (id : Uuid) : Nat := if id ∈ s.arrived ∧ id ∉ s.settled then 1 else 0

structure Inv (maxPending : Nat) (s : BoxcSystem) : Prop where
  placed : ∀ id, s.places id = s.due id
  known : ∀ id ∈ s.settled, id ∈ s.arrived
  wf : ∀ conn ∈ s.conns, conn.Wf maxPending s.bbDead

theorem due_le_one (s : BoxcSystem) (id : Uuid) : s.due id ≤ 1 := by
  unfold due
  split_ifs <;> omega

theorem Inv.holds_le (hinv : s.Inv maxPending) (h : conn ∈ s.conns) (id : Uuid) :
    conn.holds id ≤ 1 := by
  have hle := holds_le_places h id
  rw [hinv.placed] at hle
  exact hle.trans (s.due_le_one id)

theorem forall_mem_set {α : Type} {p : α → Prop} {items : List α} {item : α} (h : ∀ x ∈ items, p x)
    (hitem : p item) : ∀ x ∈ items.set i item, p x := by
  intro x hx
  rcases mem_or_eq_of_mem_set hx with hx | rfl
  · exact h x hx
  · exact hitem

variable {conn conn' : Boxc} {given : List Sms}

section
variable (hinv : s.Inv maxPending) (hi : s.conns[i]? = some conn)
  (hwf : conn'.Wf maxPending s.bbDead)
include hinv hi hwf

theorem Inv.update {settled : List Uuid}
    (hholds : ∀ id, conn'.holds id + copies id given + settled.count id = conn.holds id) :
    ({ s with
      conns := s.conns.set i conn'
      incomingSms := s.incomingSms ++ given
      settled := settled ++ s.settled } : BoxcSystem).Inv maxPending := by
  have hmem := mem_of_getElem? hi
  -- A message that is settled now was in exactly one place, this connection.
  have hdue : ∀ id ∈ settled, s.due id = 1 := by
    intro id hid
    have hle := hinv.placed id ▸ holds_le_places hmem id
    have hcount := count_pos_iff.mpr hid
    have hbalance := hholds id
    have hone := s.due_le_one id
    omega
  constructor
  · intro id
    have hsum := sum_map_set (·.holds id) hi conn'
    have hplaced := hinv.placed id
    have hbalance := hholds id
    simp only [places, due, copies_append, mem_append] at hplaced hdue ⊢
    by_cases hid : id ∈ settled
    · have hone := hdue id hid
      have hcount := count_pos_iff.mpr hid
      rw [if_neg (fun h => h.2 (.inl hid))]
      omega
    · have hcount := count_eq_zero.mpr hid
      simp only [hid, false_or]
      omega
  · intro id hid
    rcases mem_append.mp hid with hid | hid
    · have hone := hdue id hid
      unfold due at hone
      by_contra harrived
      rw [if_neg (fun h => harrived h.1)] at hone
      cases hone
    · exact hinv.known id hid
  · exact forall_mem_set hinv.wf hwf

theorem Inv.handOn (hholds : ∀ id, conn'.holds id + copies id given = conn.holds id) :
    ({ s with
      conns := s.conns.set i conn'
      incomingSms := s.incomingSms ++ given } : BoxcSystem).Inv maxPending := by
  have hnone : ∀ id, conn'.holds id + copies id given + [].count id = conn.holds id := hholds
  exact hinv.update hi hwf hnone

end

theorem inv_deliver (h : s.deliver msg front dest = some s')
    (hplaced : ∀ id, s.places id + copies id [msg] = s.due id)
    (hknown : ∀ id ∈ s.settled, id ∈ s.arrived)
    (hwf : ∀ conn ∈ s.conns, conn.Wf maxPending s.bbDead) : s'.Inv maxPending := by
  cases dest with
  | none =>
    cases h
    refine ⟨?_, hknown, hwf⟩
    intro id
    have hid := hplaced id
    have hcopies : copies id (if front then msg :: s.incomingSms else s.incomingSms ++ [msg]) =
        copies id s.incomingSms + copies id [msg] := by
      split_ifs
      · rw [copies_cons, Nat.add_comm]
      · rw [copies_append]
    simp only [places, due, hcopies] at hid ⊢
    omega
  | some i =>
    obtain ⟨conn, hi, h⟩ := Option.bind_eq_some_iff.mp h
    obtain ⟨hlisted, rfl⟩ := of_guard h
    have hconn := hwf conn (mem_of_getElem? hi)
    refine ⟨?_, hknown, forall_mem_set hwf (hconn.deliver hlisted _)⟩
    intro id
    have hid := hplaced id
    have hsum := sum_map_set (·.holds id) hi { conn with incoming := conn.incoming ++ [msg] }
    have hholds : ({ conn with incoming := conn.incoming ++ [msg] } : Boxc).holds id =
        conn.holds id + copies id [msg] := by
      simp only [Boxc.holds, copies_append]
      omega
    simp only [places, due] at hid ⊢
    omega

theorem inv_start (maxPending : Nat) : start.Inv maxPending := by
  refine ⟨?_, ?_, ?_⟩
  · intro id
    simp [places, due, start]
  · intro id hid
    cases hid
  · intro conn hconn
    cases hconn

section Steps
variable (hinv : s.Inv maxPending)
include hinv

theorem inv_arrive (h : s.step maxPending (.arrive msg dest) = some s') : s'.Inv maxPending := by
  obtain ⟨hnew, h⟩ := Option.ite_none_left_eq_some.mp h
  refine inv_deliver h ?_ ?_ hinv.wf
  · intro id
    have hplaced := hinv.placed id
    have hunsettled : msg.id ∉ s.settled := fun hsettled => hnew (hinv.known _ hsettled)
    simp only [places, due, mem_cons, copies_single] at hplaced ⊢
    by_cases hid : msg.id = id
    · subst hid
      rw [if_neg (fun h => hnew h.1)] at hplaced
      rw [if_pos rfl, if_pos ⟨.inl rfl, hunsettled⟩]
      omega
    · simp only [Ne.symm hid, false_or, if_neg hid]
      exact hplaced
  · intro id hid
    exact mem_cons_of_mem _ (hinv.known id hid)

theorem inv_take (h : s.step maxPending .take = some s') : s'.Inv maxPending := by
  simp only [step] at h
  split at h
  · rename_i msg rest hrouter hincoming
    obtain ⟨-, rfl⟩ := of_guard h
    refine ⟨?_, hinv.known, hinv.wf⟩
    intro id
    have hplaced := hinv.placed id
    simp only [places, due, hrouter, hincoming, copies_cons id msg rest, Option.toList_none,
      Option.toList_some, copies_nil] at hplaced ⊢
    omega
  · cases h

theorem inv_route (h : s.step maxPending (.route dest front) = some s') : s'.Inv maxPending := by
  simp only [step] at h
  split at h
  · rename_i msg hrouter
    refine inv_deliver h ?_ hinv.known hinv.wf
    intro id
    have hplaced := hinv.placed id
    simp only [places, due, hrouter, Option.toList_none, Option.toList_some, copies_nil]
      at hplaced ⊢
    omega
  · cases h

theorem inv_endRouting (h : s.step maxPending .endRouting = some s') : s'.Inv maxPending := by
  simp only [step] at h
  split at h
  · cases h
  · cases h
    have hholds : ∀ (conn : Boxc) (id : Uuid),
        Boxc.holds (if conn.listed then { conn with producing := false } else conn) id =
          conn.holds id := by
      intro conn id
      split_ifs <;> rfl
    refine ⟨?_, hinv.known, ?_⟩
    · intro id
      have hplaced := hinv.placed id
      simp only [places, due, List.map_map, Function.comp_def, hholds] at hplaced ⊢
      exact hplaced
    · intro conn' hconn'
      obtain ⟨conn, hconn, rfl⟩ := List.mem_map.mp hconn'
      have hwf := hinv.wf conn hconn
      split_ifs
      · exact hwf.release
      · exact hwf

theorem inv_connect :
    ({ s with conns := s.conns ++ [opened maxPending] } : BoxcSystem).Inv maxPending := by
  refine ⟨?_, hinv.known, ?_⟩
  · intro id
    have hplaced := hinv.placed id
    have hnothing : (opened maxPending).holds id = 0 := rfl
    simp only [places, due, map_append, map_cons, map_nil, sum_append,
      sum_cons, sum_nil, hnothing] at hplaced ⊢
    exact hplaced
  · rw [forall_mem_append, forall_mem_singleton]
    exact ⟨hinv.wf, wf_opened maxPending s.bbDead⟩

theorem inv_sender {written : Bool} (h : s.step maxPending (.sender i written) = some s') :
    s'.Inv maxPending := by
  obtain ⟨conn, ⟨conn', given⟩, hi, hstep, ⟨⟩⟩ := of_bind_bind h
  have hmem := mem_of_getElem? hi
  have hmove := SenderMove.of_senderStep hstep
  have hwf := hinv.wf conn hmem
  exact hinv.handOn hi (hmove.wf hwf (hinv.holds_le hmem)) (hmove.holds hwf (hinv.holds_le hmem))

theorem inv_receiver (h : s.step maxPending (.receiver i) = some s') : s'.Inv maxPending := by
  obtain ⟨conn, ⟨conn', given⟩, hi, hstep, ⟨⟩⟩ := of_bind_bind h
  have hmove := ReceiverMove.of_receiverStep hstep
  have hwf := hinv.wf conn (mem_of_getElem? hi)
  exact hinv.handOn hi (hmove.wf hwf) (hmove.holds hwf)

theorem inv_acknowledge {id : Uuid} {retry : Bool}
    (hfree : ¬ s.AcknowledgesHeld (.acknowledge i id retry))
    (h : s.step maxPending (.acknowledge i id retry) = some s') : s'.Inv maxPending := by
  obtain ⟨conn, ⟨conn', settled⟩, hi, hack, ⟨⟩⟩ := of_bind_bind h
  have hwf := hinv.wf conn (mem_of_getElem? hi)
  have hsame : s.incomingSms = s.incomingSms ++ [] := (append_nil _).symm
  rw [hsame]
  obtain ⟨hreading, ⟨rfl, rfl, -⟩ | ⟨orig, hmem, rfl, rfl, rfl⟩⟩ := acknowledge_cases hack
  · exact hinv.update hi hwf fun id => by simp
  · have hhand : ∀ msg, conn.sender.hand = some msg → msg.id ≠ orig.id := by
      intro msg hmsg hid
      exact hfree ⟨conn, hi, msg, hmsg, hid, orig, hmem, rfl⟩
    exact hinv.update hi (wf_popped hwf hreading hmem hhand retry)
      (holds_popped hreading hmem hhand retry)

theorem inv_disconnect (h : s.step maxPending (.disconnect i) = some s') : s'.Inv maxPending := by
  obtain ⟨conn, conn', hi, hlost, ⟨⟩⟩ := of_bind_bind h
  have hwf := wf_disconnect (hinv.wf conn (mem_of_getElem? hi)) hlost
  obtain ⟨hreading, rfl⟩ := disconnect_eq hlost
  have hsame : s.incomingSms = s.incomingSms ++ [] := (append_nil _).symm
  rw [hsame]
  refine hinv.handOn hi hwf fun id => ?_
  simp only [Boxc.holds, hreading, BoxcReceiver.hand, copies_nil, Nat.add_zero]

theorem step_inv (hfree : ¬ s.AcknowledgesHeld a) (h : s.step maxPending a = some s') :
    s'.Inv maxPending := by
  cases a with
  | arrive msg dest => exact inv_arrive hinv h
  | take => exact inv_take hinv h
  | route dest front => exact inv_route hinv h
  | endRouting => exact inv_endRouting hinv h
  | connect =>
    cases h
    exact inv_connect hinv
  | sender i written => exact inv_sender hinv h
  | receiver i => exact inv_receiver hinv h
  | acknowledge i id retry => exact inv_acknowledge hinv hfree h
  | disconnect i => exact inv_disconnect hinv h
  | die =>
    cases h
    exact ⟨hinv.placed, hinv.known, fun conn hconn => (hinv.wf conn hconn).dead⟩

theorem step_acknowledgesHeld (hheld : s.AcknowledgesHeld a) (h : s.step maxPending a = some s') :
    ¬ s'.Placed := by
  cases a with
  | arrive | take | route | endRouting | connect | sender | receiver | disconnect | die =>
    cases hheld
  | acknowledge i id retry => ?_
  obtain ⟨conn, hi, msg, hhand, hid, hsent⟩ := hheld
  obtain ⟨conn₀, ⟨conn', settled⟩, hi₀, hack, ⟨⟩⟩ := of_bind_bind h
  obtain rfl : conn = conn₀ := Option.some.inj (hi.symm.trans hi₀)
  obtain ⟨hreading, ⟨-, -, hnone⟩ | ⟨orig, hmem, rfl, rfl, rfl⟩⟩ := acknowledge_cases hack
  · exact absurd hsent hnone
  have hholds := holds_popped_held hreading hhand hid retry
  have hsum := sum_map_set (·.holds orig.id) hi (conn.popped orig retry)
  have hplaced := hinv.placed orig.id
  -- The message is here, so it is due here and nowhere else.
  have hhere : 1 ≤ conn.holds orig.id := by
    have hin : inHand conn.sender.hand conn.sent orig.id = true := by
      rw [hhand]
      exact inHand_some.mpr (.inl hid)
    rw [Boxc.holds, hin, Bool.toNat_true]
    omega
  have hle := holds_le_places (mem_of_getElem? hi) orig.id
  have hdue : orig.id ∈ s.arrived ∧ orig.id ∉ s.settled := by
    by_contra hnot
    rw [due, if_neg hnot] at hplaced
    omega
  intro hafter
  have hcount := hafter orig.id hdue.1
  simp only [places] at hplaced hcount hle
  cases retry with
  | true =>
    simp only [if_true, nil_append, if_neg hdue.2, Bool.toNat_true] at hcount hholds
    omega
  | false =>
    simp only [Bool.false_eq_true, if_false, singleton_append, mem_cons, true_or,
      if_true, Bool.toNat_false] at hcount hholds
    omega

end Steps

theorem permits_deliver (h : s.deliver msg front dest = some s')
    (hmatch : s.PermitsMatch maxPending) : s'.PermitsMatch maxPending := by
  cases dest with
  | none =>
    cases h
    exact hmatch
  | some i =>
    obtain ⟨conn, hi, h⟩ := Option.bind_eq_some_iff.mp h
    obtain ⟨-, rfl⟩ := of_guard h
    exact forall_mem_set hmatch (hmatch conn (mem_of_getElem? hi))

theorem step_permits (hinv : s.Inv maxPending) (hmatch : s.PermitsMatch maxPending)
    (htogether : ¬ s.SetsApart maxPending a) (h : s.step maxPending a = some s') :
    s'.PermitsMatch maxPending := by
  cases a with
  | arrive msg dest =>
    obtain ⟨-, h⟩ := Option.ite_none_left_eq_some.mp h
    exact permits_deliver h hmatch
  | take =>
    simp only [step] at h
    split at h
    · obtain ⟨-, rfl⟩ := of_guard h
      exact hmatch
    · cases h
  | route dest front =>
    simp only [step] at h
    split at h
    · exact permits_deliver h hmatch
    · cases h
  | endRouting =>
    simp only [step] at h
    split at h
    · cases h
    · cases h
      intro conn' hconn'
      obtain ⟨conn, hconn, rfl⟩ := List.mem_map.mp hconn'
      have hbalance := hmatch conn hconn
      split_ifs
      · exact hbalance
      · exact hbalance
  | connect =>
    cases h
    rw [PermitsMatch, forall_mem_append]
    refine ⟨hmatch, ?_⟩
    simp [opened, Boxc.balance, BoxcSender.owns, BoxcSender.owes, BoxcReceiver.owns]
  | sender i written =>
    obtain ⟨conn, ⟨conn', given⟩, hi, hstep, ⟨⟩⟩ := of_bind_bind h
    have hmem := mem_of_getElem? hi
    have hbalance := (SenderMove.of_senderStep hstep).balance (hinv.wf conn hmem)
    exact forall_mem_set hmatch (hbalance.trans (hmatch conn hmem))
  | receiver i =>
    obtain ⟨conn, ⟨conn', given⟩, hi, hstep, ⟨⟩⟩ := of_bind_bind h
    have hbalance := (ReceiverMove.of_receiverStep hstep).balance_iff.mpr
      ⟨fun hwakes => htogether ⟨i, conn, rfl, hi, .inl hwakes⟩,
        fun hdrains => htogether ⟨i, conn, rfl, hi, .inr hdrains⟩⟩
    exact forall_mem_set hmatch (hbalance.trans (hmatch conn (mem_of_getElem? hi)))
  | acknowledge i id retry =>
    obtain ⟨conn, ⟨conn', settled⟩, hi, hack, ⟨⟩⟩ := of_bind_bind h
    have hconn := mem_of_getElem? hi
    obtain ⟨hreading, ⟨rfl, -, -⟩ | ⟨orig, hmem, -, rfl, -⟩⟩ := acknowledge_cases hack
    · exact forall_mem_set hmatch (hmatch conn' hconn)
    · have hbalance := balance_popped hreading (hinv.wf conn hconn).distinct hmem retry
      exact forall_mem_set hmatch (hbalance.trans (hmatch conn hconn))
  | disconnect i =>
    obtain ⟨conn, conn', hi, hlost, ⟨⟩⟩ := of_bind_bind h
    obtain ⟨hreading, rfl⟩ := disconnect_eq hlost
    have hbalance := hmatch conn (mem_of_getElem? hi)
    simp only [Boxc.balance, hreading, BoxcReceiver.owns] at hbalance
    exact forall_mem_set hmatch (by simpa [Boxc.balance, BoxcReceiver.owns] using hbalance)
  | die =>
    cases h
    exact hmatch

theorem step_setsApart (hmatch : s.PermitsMatch maxPending) (hapart : s.SetsApart maxPending a)
    (h : s.step maxPending a = some s') : ¬ s'.PermitsMatch maxPending := by
  obtain ⟨i, conn, rfl, hi, hapart⟩ := hapart
  obtain ⟨conn₀, ⟨conn', given⟩, hi₀, hstep, ⟨⟩⟩ := of_bind_bind h
  obtain rfl : conn = conn₀ := Option.some.inj (hi.symm.trans hi₀)
  have hbefore := hmatch conn (mem_of_getElem? hi)
  have hlt := (List.getElem?_eq_some_iff.mp hi).1
  intro hafter
  have hbalance := hafter conn' (mem_iff_getElem.mpr ⟨i, by simpa using hlt, by simp⟩)
  have hkept := (ReceiverMove.of_receiverStep hstep).balance_iff.mp (hbalance.trans hbefore.symm)
  exact hapart.elim hkept.1 hkept.2

def Settles (s : BoxcSystem) : Prop := s.Placed ∧ s.JoinsReturn ∧ s.AssertionsHold

theorem Inv.settles (hinv : s.Inv maxPending) : s.Settles := by
  refine ⟨?_, ?_, ?_⟩
  · intro id harrived
    rw [hinv.placed id, due]
    by_cases hsettled : id ∈ s.settled
    · rw [if_pos hsettled, if_neg fun h => h.2 hsettled]
    · rw [if_neg hsettled, if_pos ⟨harrived, hsettled⟩]
  · intro conn hconn woken hjoining written
    exact ⟨_, senderAlone_leaves (hinv.wf conn hconn) (hinv.holds_le hconn) hjoining written le_rfl⟩
  · intro conn hconn hclosed
    have hwf := hinv.wf conn hconn
    exact ⟨hwf.cleared (by simp [hclosed]),
      hwf.drained (by simp [hclosed])⟩

/-- **Incoming messages are in one place** in all states of a run, joins return and assertions
hold, exactly if no acknowledgement is read for a message that the sender still has in its
hands. Permits and entries match as well exactly if no connection ends with messages in `sent`.
-/
theorem settles_throughout_iff {maxPending : Nat} {s : BoxcSystem}
    {trace : List (BoxcSystem × BoxcAction)}
    (hrun : Run (step maxPending) start trace s) :
    (((∀ p ∈ trace, p.1.Settles) ∧ s.Settles) ↔ ∀ p ∈ trace, ¬ p.1.AcknowledgesHeld p.2) ∧
    (((∀ p ∈ trace, p.1.Settles ∧ p.1.PermitsMatch maxPending) ∧
        s.Settles ∧ s.PermitsMatch maxPending) ↔
      ∀ p ∈ trace, ¬ p.1.AcknowledgesHeld p.2 ∧ ¬ p.1.SetsApart maxPending p.2) := by
  constructor
  · apply hrun.throughout_iff_of_invariant (P := Settles)
      (C := fun s a => ¬ s.AcknowledgesHeld a) (inv_start maxPending)
    · exact fun s hinv => hinv.settles
    · exact fun s a s' hinv hfree h => step_inv hinv hfree h
    · intro s a s' hinv hheld h hsettles
      exact step_acknowledgesHeld hinv (not_not.mp hheld) h hsettles.1
  · apply hrun.throughout_iff_of_invariant
      (I := fun s => s.Inv maxPending ∧ s.PermitsMatch maxPending)
      (P := fun s => s.Settles ∧ s.PermitsMatch maxPending)
      (C := fun s a => ¬ s.AcknowledgesHeld a ∧ ¬ s.SetsApart maxPending a)
    · refine ⟨inv_start maxPending, ?_⟩
      intro conn hconn
      cases hconn
    · exact fun s hinv => ⟨hinv.1.settles, hinv.2⟩
    · intro s a s' hinv hC h
      exact ⟨step_inv hinv.1 hC.1 h, step_permits hinv.1 hinv.2 hC.2 h⟩
    · rintro s a s' hinv hC h ⟨hsettles, hpermits⟩
      rw [not_and_or, not_not, not_not] at hC
      rcases hC with hheld | hapart
      · exact step_acknowledgesHeld hinv.1 hheld h hsettles.1
      · exact step_setsApart hinv.2 hapart h hpermits

theorem length_sampleId (octet : UInt8) : (replicate 16 octet).length = 16 :=
  length_replicate

def sampleMsg (octet : UInt8) : Sms :=
  smsCreate ⟨replicate 16 octet, length_sampleId octet⟩

def plainDelivery : List BoxcAction :=
  [.connect, .arrive (sampleMsg 1) (some 0), .sender 0 true, .sender 0 true, .sender 0 true,
    .sender 0 true, .sender 0 true, .acknowledge 0 (sampleMsg 1).id false, .receiver 0]

theorem plainDelivery_settled : ∃ trace s, Run (step 1) start trace s ∧
    s.Settles ∧ s.PermitsMatch 1 ∧ s.settled = [(sampleMsg 1).id] := by
  obtain ⟨trace, s, hrun, hsteps, hsettled⟩ : ∃ trace s, Run (step 1) start trace s ∧
      (∀ p ∈ trace, ¬ p.1.AcknowledgesHeld p.2 ∧ ∀ conn ∈ p.1.conns, conn.receiver.stage < 3) ∧
      s.settled = [(sampleMsg 1).id] :=
    exists_run plainDelivery (by decide +kernel)
  have hall := (settles_throughout_iff hrun).2.mpr ?_
  · exact ⟨trace, s, hrun, hall.2.1, hall.2.2, hsettled⟩
  · intro p hp
    obtain ⟨hfree, hearly⟩ := hsteps p hp
    refine ⟨hfree, ?_⟩
    rintro ⟨i, conn, -, hi, hapart⟩
    have hstage := hearly conn (mem_of_getElem? hi)
    rcases hapart with ⟨hclosing, -⟩ | ⟨hdraining, -⟩
    · simp [hclosing] at hstage
    · simp [hdraining] at hstage

def twoCopies : List BoxcAction :=
  [.connect, .connect, .arrive (sampleMsg 1) (some 0), .sender 0 true, .sender 0 true,
    .sender 0 true, .sender 0 true, .sender 0 false, .acknowledge 0 (sampleMsg 1).id true,
    .receiver 0, .receiver 0, .sender 0 true, .sender 0 true,
    .take, .route (some 1) false, .take, .route (some 1) false,
    .sender 1 true, .sender 1 true, .sender 1 true, .sender 1 true, .sender 1 true,
    .sender 1 true, .sender 1 true, .sender 1 true, .sender 1 true, .sender 1 true,
    .arrive (sampleMsg 2) (some 1), .sender 1 true, .sender 1 true,
    .disconnect 1, .receiver 1, .receiver 1, .receiver 1, .sender 1 true]

theorem senderAlone_blocked {bbDead : Bool} (h : conn.sender = .pushing msg)
    (hpermits : conn.pending = 0) (written : Nat → Bool) (n : Nat) :
    senderAlone bbDead written n conn = conn := by
  cases n with
  | zero => rfl
  | succ n => simp [senderAlone, senderStep, h, hpermits]

/-- The message is in two places, and the second sender waits for a permit that nobody gives it.
-/
theorem twoCopies_not_settled : ∃ trace s, Run (step 2) start trace s ∧
    (∃ p ∈ trace, ¬ p.1.Placed) ∧ ¬ s.JoinsReturn := by
  obtain ⟨trace, s, hrun, ⟨p, hp, harrived, htwo⟩, conn, hconn, hjoining, hpushing, hpermits⟩ :
      ∃ trace s, Run (step 2) start trace s ∧
        (∃ p ∈ trace, (sampleMsg 1).id ∈ p.1.arrived ∧ p.1.places (sampleMsg 1).id = 2) ∧
        ∃ conn ∈ s.conns, conn.receiver = .joining false ∧
          conn.sender = .pushing (sampleMsg 2) ∧ conn.pending = 0 :=
    exists_run twoCopies (by decide +kernel)
  refine ⟨trace, s, hrun, ⟨p, hp, ?_⟩, ?_⟩
  · intro hplaced
    have hone := hplaced _ harrived
    rw [htwo] at hone
    split_ifs at hone
    cases hone
  · intro hreturns
    obtain ⟨n, hleft⟩ := hreturns conn hconn false hjoining fun _ => true
    rw [senderAlone_blocked hpushing hpermits, hpushing] at hleft
    cases hleft

end BoxcSystem
end Kannel
