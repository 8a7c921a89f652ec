import Kannel.Gw.Msg
import Kannel.Gwlib.PrioQueue

/-!
# The outgoing queue of an SMSC driver

Of two messages with one priority `sms_priority_compare` takes the *later* one to be bigger, so
the queue returns it first.
-/

namespace Kannel
open List
open Prioqueue

def smsPriorityCompare (a b : Sms) : ℤ :=
  if a.priority > b.priority then 1
  else if a.priority < b.priority then -1
  else if a.time > b.time then 1
  else if a.time < b.time then -1
  else 0

structure QueuedSms where
  turn : ℕ
  msg : Sms
  deriving DecidableEq

def compareQueued (a b : QueuedSms) : ℤ := smsPriorityCompare a.msg b.msg

def numbered : ℕ → List (Op Sms) → List (Op QueuedSms)
  | _, [] => []
  | n, .insert m :: ops => .insert ⟨n, m⟩ :: numbered (n + 1) ops
  | n, .remove :: ops => .remove :: numbered n ops

def submittedTimes : List (Op Sms) → List ℤ
  | [] => []
  | .insert m :: ops => m.time :: submittedTimes ops
  | .remove :: ops => submittedTimes ops

def AtRemovals {α : Type} [DecidableEq α] (P : List α → α → Prop) :
    List α → List (Op α) → List (Option α) → Prop
  | waiting, .insert x :: ops, outs => AtRemovals P (waiting ++ [x]) ops outs
  | waiting, .remove :: ops, some m :: outs =>
    P waiting m ∧ AtRemovals P (waiting.erase m) ops outs
  | waiting, .remove :: ops, none :: outs => AtRemovals P waiting ops outs
  | _, _, _ => True

/-- **First submitted, first sent**: no message of this priority waits since before. -/
def FirstSubmitted (waiting : List QueuedSms) (m : QueuedSms) : Prop :=
  ∀ x ∈ waiting, x.msg.priority = m.msg.priority → m.turn ≤ x.turn

def IsTop (waiting : List QueuedSms) (x : QueuedSms) : Prop :=
  ∀ z ∈ waiting, z.msg.priority ≤ x.msg.priority

def TopTied (waiting : List QueuedSms) (_ : QueuedSms) : Prop :=
  ∀ x ∈ waiting, ∀ y ∈ waiting, IsTop waiting x → IsTop waiting y → x.msg.time = y.msg.time

theorem totalPreorder_compareQueued : TotalPreorder compareQueued where
  swap a b := by
    unfold compareQueued smsPriorityCompare
    split_ifs <;> omega
  trans a b c := by
    unfold compareQueued smsPriorityCompare
    split_ifs <;> omega

theorem compareQueued_neg {a b : QueuedSms} (h : compareQueued a b < 0) :
    a.msg.priority < b.msg.priority ∨
      a.msg.priority = b.msg.priority ∧ a.msg.time < b.msg.time := by
  unfold compareQueued smsPriorityCompare at h
  split_ifs at h <;> omega

theorem compareQueued_nonpos {a b : QueuedSms} (h : compareQueued a b ≤ 0) :
    a.msg.priority < b.msg.priority ∨
      a.msg.priority = b.msg.priority ∧ a.msg.time ≤ b.msg.time := by
  unfold compareQueued smsPriorityCompare at h
  split_ifs at h <;> omega

def InTurn (waiting : List QueuedSms) : Prop :=
  waiting.Pairwise fun x y => x.turn < y.turn ∧ x.msg.time ≤ y.msg.time

section step
variable {waiting rest : List QueuedSms} {m : QueuedSms}

section Serving
variable (h : Serves compareQueued waiting m rest)
include h

theorem isTop_of_serves : IsTop waiting m := by
  obtain ⟨older, newer, rfl, -, holder, hnewer⟩ := h
  intro z hz
  rcases mem_append.mp hz with hz | hz
  · have := compareQueued_neg (holder z hz)
    omega
  · rcases mem_cons.mp hz with rfl | hz
    · exact le_rfl
    · have := compareQueued_nonpos (hnewer z hz)
      omega

theorem mem_of_serves : m ∈ waiting := by
  obtain ⟨older, newer, rfl, -⟩ := h
  exact mem_append_right _ mem_cons_self

theorem firstSubmitted_iff_topTied (hturn : InTurn waiting) :
    FirstSubmitted waiting m ↔ TopTied waiting m := by
  have htop := isTop_of_serves h
  have hmem := mem_of_serves h
  obtain ⟨older, newer, rfl, -, holder, hnewer⟩ := h
  obtain ⟨-, hcons, hacross⟩ := pairwise_append.mp hturn
  have hlater := (pairwise_cons.mp hcons).1
  constructor
  · intro hfirst
    have htime : ∀ x ∈ older ++ m :: newer, IsTop (older ++ m :: newer) x →
        x.msg.time = m.msg.time := by
      intro x hx hxtop
      have hle := htop x hx
      have hge := hxtop m hmem
      rcases mem_append.mp hx with hold | hx'
      · have hturns := (hacross x hold m mem_cons_self).1
        have := hfirst x hx (by omega)
        omega
      · rcases mem_cons.mp hx' with rfl | hnew
        · rfl
        · have hlow := compareQueued_nonpos (hnewer x hnew)
          have hhigh := (hlater x hnew).2
          omega
    intro x hx y hy hxtop hytop
    rw [htime x hx hxtop, htime y hy hytop]
  · intro htied x hx hprio
    rcases mem_append.mp hx with hold | hx'
    · -- an older message of this priority would have an earlier time
      have hearlier := compareQueued_neg (holder x hold)
      have hxtop : IsTop (older ++ m :: newer) x := fun z hz => by
        rw [hprio]
        exact htop z hz
      have hsame := htied x hx m hmem hxtop htop
      omega
    · rcases mem_cons.mp hx' with rfl | hnew
      · exact le_rfl
      · exact (hlater x hnew).1.le

theorem erase_of_serves : waiting.erase m = rest := by
  obtain ⟨older, newer, rfl, rfl, holder, -⟩ := h
  have hnot : m ∉ older := by
    intro hm
    have hneg := holder m hm
    rw [totalPreorder_compareQueued.self] at hneg
    exact lt_irrefl 0 hneg
  rw [erase_append_right _ hnot, erase_cons_head]

theorem inTurn_of_serves (hturn : InTurn waiting) : InTurn rest := by
  obtain ⟨older, newer, rfl, rfl, -⟩ := h
  exact Pairwise.sublist ((sublist_cons_self m newer).append_left older) hturn

theorem subset_of_serves : rest ⊆ waiting := by
  rw [← erase_of_serves h]
  exact erase_subset

end Serving
end step

structure Ahead (waiting : List QueuedSms) (n : ℕ) (ops : List (Op Sms)) : Prop where
  inTurn : InTurn waiting
  before : ∀ x ∈ waiting, x.turn < n ∧ ∀ t ∈ submittedTimes ops, x.msg.time ≤ t
  later : (submittedTimes ops).Pairwise (· ≤ ·)

variable {ops : List (Op Sms)} {n : ℕ}

theorem Ahead.insert {waiting : List QueuedSms} {m : Sms} (h : Ahead waiting n (.insert m :: ops)) :
    Ahead (waiting ++ [⟨n, m⟩]) (n + 1) ops where
  inTurn := by
    refine pairwise_append.mpr ⟨h.inTurn, pairwise_singleton _ _, ?_⟩
    intro x hx y hy
    obtain rfl := mem_singleton.mp hy
    exact ⟨(h.before x hx).1, (h.before x hx).2 m.time mem_cons_self⟩
  before x hx := by
    rcases mem_append.mp hx with hx | hx
    · obtain ⟨hlt, htimes⟩ := h.before x hx
      exact ⟨Nat.lt_succ_of_lt hlt, fun t ht => htimes t (mem_cons_of_mem _ ht)⟩
    · obtain rfl := mem_singleton.mp hx
      exact ⟨Nat.lt_succ_self n, (pairwise_cons.mp h.later).1⟩
  later := (pairwise_cons.mp h.later).2

theorem Ahead.remove {waiting rest : List QueuedSms} {m : QueuedSms}
    (h : Ahead waiting n (.remove :: ops)) (hserves : Serves compareQueued waiting m rest) :
    Ahead rest n ops :=
  ⟨inTurn_of_serves hserves h.inTurn, fun x hx => h.before x (subset_of_serves hserves hx), h.later⟩

theorem atRemovals_firstSubmitted_iff (ops : List (Op Sms)) {waiting later : List QueuedSms}
    {outs : List (Option QueuedSms)}
    (hbeh : Behaves compareQueued waiting (numbered n ops) outs later)
    (hahead : Ahead waiting n ops) :
    AtRemovals FirstSubmitted waiting (numbered n ops) outs ↔
      AtRemovals TopTied waiting (numbered n ops) outs := by
  induction ops generalizing n waiting outs with
  | nil => exact Iff.rfl
  | cons op ops ih =>
    cases op with
    | insert m =>
      cases hbeh with
      | insert tail =>
        exact ih tail hahead.insert
    | remove =>
      cases hbeh with
      | empty tail =>
        exact ih tail ⟨hahead.inTurn, hahead.before, hahead.later⟩
      | remove serves tail =>
        have hstep := firstSubmitted_iff_topTied serves hahead.inTurn
        have hrest := ih tail (hahead.remove serves)
        simp only [numbered, AtRemovals, erase_of_serves serves]
        exact and_congr hstep hrest

/-- **The order of sending.**  The queue returns the messages of one priority in the order of
their insertion exactly if, whenever it returns one, those with the highest priority have the
same time. -/
theorem outgoingQueue_inOrder_iff (ops : List (Op Sms))
    (hsorted : (submittedTimes ops).Pairwise (· ≤ ·)) :
    ∃ outs q, (gwPrioqueueCreate >>= fun q => runOps compareQueued q (numbered 0 ops)) =
        .ok (outs, q) ∧
      (AtRemovals FirstSubmitted [] (numbered 0 ops) outs ↔
        AtRemovals TopTied [] (numbered 0 ops) outs) := by
  obtain ⟨q₀, g₀, hcreate, h₀⟩ := gwPrioqueueCreate_holds compareQueued
  obtain ⟨outs, q, g, es, hrun, -, hbeh⟩ :=
    runOps_holds totalPreorder_compareQueued (numbered 0 ops) h₀
  refine ⟨outs, q, by rw [hcreate, ok_bind, hrun], atRemovals_firstSubmitted_iff ops hbeh ?_⟩
  exact ⟨Pairwise.nil, fun x hx => absurd hx not_mem_nil, hsorted⟩

def timedSms (time : ℤ) : Sms := { smsCreate uuidClear with time := time }

/-- Two messages of one second are sent in their order, before one of the next second comes. -/
theorem sameSecond_inOrder :
    ∃ outs q, (gwPrioqueueCreate >>= fun q => runOps compareQueued q
        (numbered 0 [.insert (timedSms 1), .insert (timedSms 1), .remove, .remove,
          .insert (timedSms 2)])) = .ok (outs, q) ∧
      outs = [some ⟨0, timedSms 1⟩, some ⟨1, timedSms 1⟩] ∧
      AtRemovals FirstSubmitted [] (numbered 0 [.insert (timedSms 1), .insert (timedSms 1),
        .remove, .remove, .insert (timedSms 2)]) outs := by
  obtain ⟨outs, q, hrun, hiff⟩ := outgoingQueue_inOrder_iff
    [.insert (timedSms 1), .insert (timedSms 1), .remove, .remove, .insert (timedSms 2)]
    (by decide)
  have houts : outs = [some ⟨0, timedSms 1⟩, some ⟨1, timedSms 1⟩] :=
    congrArg Prod.fst (Except.ok.inj (hrun.symm.trans rfl))
  refine ⟨outs, q, hrun, houts, hiff.mpr ?_⟩
  subst houts
  have htied : ∀ (waiting : List QueuedSms) (m : QueuedSms),
      (∀ x ∈ waiting, x.msg.time = 1) → TopTied waiting m :=
    fun _ _ hall x hx y hy _ _ => (hall x hx).trans (hall y hy).symm
  exact ⟨htied _ _ (by decide), htied _ _ (by decide), trivial⟩

theorem laterMessage_sent_first :
    ∃ outs q,
      (submittedTimes [.insert (timedSms 1), .insert (timedSms 2), .remove, .remove]).Pairwise
        (· ≤ ·) ∧
      (gwPrioqueueCreate >>= fun q => runOps compareQueued q
        (numbered 0 [.insert (timedSms 1), .insert (timedSms 2), .remove, .remove])) =
          .ok (outs, q) ∧
      outs = [some ⟨1, timedSms 2⟩, some ⟨0, timedSms 1⟩] ∧
      ¬ AtRemovals FirstSubmitted []
        (numbered 0 [.insert (timedSms 1), .insert (timedSms 2), .remove, .remove]) outs := by
  refine ⟨_, _, by decide, rfl, rfl, ?_⟩
  intro h
  have hfirst := h.1 ⟨0, timedSms 1⟩ (by decide) rfl
  exact absurd hfirst (by decide)

end Kannel
