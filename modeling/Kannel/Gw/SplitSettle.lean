import Kannel.Gw.SplitSend

/-!
# When a split message is settled

The counter is what the sender counts on minus the reports, so the message is passed on at most
once, and is lost only if the sender corrects the counter after the last report.
-/

namespace Kannel
open List
open Machine (Run of_guard)

def PartPhase.counted : PartPhase → Bool
  | .disposing _ | .finished _ => true
  | .handed | .writing _ | .counting _ => false

def PartPhase.isDisposing : PartPhase → Bool
  | .disposing _ => true
  | .handed | .writing _ | .counting _ | .finished _ => false

def PartPhase.Failed : PartPhase → Prop
  | .counting r | .disposing r | .finished r => r ≠ .success
  | .handed | .writing _ => False

theorem PartPhase.finished_of_counted {p : PartPhase} (hcounted : p.counted = true)
    (hnot : ¬ p.isDisposing = true) : ∃ r, p = .finished r := by
  cases p with
  | finished r => exact ⟨r, rfl⟩
  | disposing r => exact absurd rfl hnot
  | handed => cases hcounted
  | writing r => cases hcounted
  | counting r => cases hcounted

namespace Split

def counted (s : Split) : Nat := s.handed.countP PartPhase.counted

def settled (s : Split) : Nat := s.handed.countP PartPhase.isDisposing + s.disposed.length

def Complete (s : Split) : Prop :=
  s.sender = .finished ∧ ∀ p ∈ s.handed, ∃ r, p = .finished r

end Split

/-- **What the original message receives**: at most one disposition, when everything is
complete, and `sent` only if all `n` parts succeeded. -/
structure Disposed (n : Nat) (s : Split) : Prop where
  once : s.disposed.length ≤ 1
  last : s.disposed ≠ [] → s.Complete
  sent : .sent ∈ s.disposed → s.handed.length = n ∧ ∀ p ∈ s.handed, p = .finished .success
  done : s.Complete → s.disposed.length = 1

/-- A correction is in time if a part that was handed over has not been counted yet. -/
def InTime (s : Split) (a : SplitAction) : Prop :=
  a = .correct → ∃ p ∈ s.handed, p.counted = false

section Steps
variable {n j : Nat} {s s' : Split} {a : SplitAction}

inductive SenderStep (n : Nat) (s : Split) : SplitAction → Split → Prop
  | send : s.sender = .sending →
      SenderStep n s .send { s with
        handed := s.handed ++ [.handed]
        sender := if s.handed.length + 1 = n then .finished else .sending }
  | sendFail : s.sender = .sending → 0 < s.handed.length →
      SenderStep n s .sendFail { s with sender := .rejecting }
  | reject : s.sender = .rejecting →
      SenderStep n s .reject { s with status := .failedRejected, sender := .correcting }
  | correct : s.sender = .correcting →
      SenderStep n s .correct { s with
        partsLeft := (counterIncreaseWith s.partsLeft (toUlong (-(n - s.handed.length : Nat)))).2
        sender := .finished }

inductive ReportStep (s : Split) (j : Nat) : PartPhase → PartPhase → Split → Prop
  | complete {r : Reason} : r ≠ .failedTemporarily →
      ReportStep s j .handed (handleSplit s.status r)
        { s with handed := s.handed.set j (handleSplit s.status r) }
  | write {r : Reason} :
      ReportStep s j (.writing r) (.counting r)
        { s with status := r, handed := s.handed.set j (.counting r) }
  | last {r : Reason} : s.partsLeft ≤ 1 →
      ReportStep s j (.counting r) (.disposing r)
        { s with partsLeft := s.partsLeft - 1, handed := s.handed.set j (.disposing r) }
  | count {r : Reason} : 1 < s.partsLeft →
      ReportStep s j (.counting r) (.finished r)
        { s with partsLeft := s.partsLeft - 1, handed := s.handed.set j (.finished r) }
  | dispose {r : Reason} :
      ReportStep s j (.disposing r) (.finished r)
        { s with
          disposed := s.disposed ++ [if s.status = .success then .sent else .failed s.status]
          handed := s.handed.set j (.finished r) }

theorem splitStep_cases (h : splitStep n s a = some s') :
    SenderStep n s a s' ∨
      (a ≠ .correct ∧ ∃ j p q, s.handed[j]? = some p ∧ ReportStep s j p q s') := by
  cases a with
  | send =>
    obtain ⟨hs, rfl⟩ := of_guard h
    exact Or.inl (.send hs)
  | sendFail =>
    obtain ⟨hs, rfl⟩ := of_guard h
    exact Or.inl (.sendFail hs.1 hs.2)
  | reject =>
    obtain ⟨hs, rfl⟩ := of_guard h
    exact Or.inl (.reject hs)
  | correct =>
    obtain ⟨hs, rfl⟩ := of_guard h
    exact Or.inl (.correct hs)
  | complete j r =>
    simp only [splitStep] at h
    split at h
    · next hj =>
      obtain ⟨hr, ⟨⟩⟩ := Option.ite_none_left_eq_some.mp h
      exact Or.inr ⟨nofun, j, _, _, hj, .complete hr⟩
    · cases h
  | write j =>
    simp only [splitStep] at h
    split at h
    · next r hj =>
      cases h
      exact Or.inr ⟨nofun, j, _, _, hj, .write⟩
    · cases h
  | count j =>
    simp only [splitStep] at h
    split at h
    · next r hj =>
      cases h
      by_cases hold : s.partsLeft ≤ 1
      · rw [if_pos (show (counterDecrease s.partsLeft).1 ≤ 1 from hold)]
        exact Or.inr ⟨nofun, j, _, _, hj, .last hold⟩
      · rw [if_neg (show ¬ (counterDecrease s.partsLeft).1 ≤ 1 from hold)]
        exact Or.inr ⟨nofun, j, _, _, hj, .count (Nat.not_le.mp hold)⟩
    · cases h
  | dispose j =>
    simp only [splitStep] at h
    split at h
    · next r hj =>
      cases h
      exact Or.inr ⟨nofun, j, _, _, hj, .dispose⟩
    · cases h

end Steps

variable {l : List PartPhase}

private theorem countP_replace {j : Nat} {p q : PartPhase} (f : PartPhase → Bool)
    (hj : l[j]? = some p) :
    (l.set j q).countP f + (f p).toNat = l.countP f + (f q).toNat := by
  obtain ⟨hlt, hget⟩ := List.getElem?_eq_some_iff.mp hj
  have hpos : f p = true → 0 < l.countP f :=
    fun hp => countP_pos_iff.mpr ⟨p, hget ▸ getElem_mem hlt, hp⟩
  rw [countP_set hlt, hget]
  cases hp : f p with
  | false => cases hq : f q <;> simp
  | true =>
    have := hpos hp
    cases hq : f q <;> simp <;> omega

theorem finished_of_countP (hall : l.countP PartPhase.counted = l.length)
    (hnone : l.countP PartPhase.isDisposing = 0) : ∀ p ∈ l, ∃ r, p = .finished r := by
  intro p hp
  apply PartPhase.finished_of_counted
  · exact countP_eq_length.mp hall p hp
  · exact countP_eq_zero.mp hnone p hp

structure CountsAt (n : Nat) (sender : SenderPhase) (len left counted settled : Nat) : Prop where
  sending : sender = .sending → len < n
  failing : sender = .rejecting ∨ sender = .correcting → 0 < len ∧ len < n
  through : sender = .finished → len ≤ n
  counted_le : counted ≤ len
  left : left + counted = if sender = .finished then len else n
  once : settled ≤ 1
  last : 0 < settled → sender = .finished ∧ counted = len

section Numbers
variable {n len left counted settled : Nat} {sender : SenderPhase}

theorem CountsAt.busy (h : CountsAt n sender len left counted settled)
    (hs : sender ≠ .finished) : left + counted = n ∧ settled = 0 :=
  ⟨by have hleft := h.left; rwa [if_neg hs] at hleft,
    Nat.eq_zero_of_not_pos fun h0 => hs (h.last h0).1⟩

theorem CountsAt.len_lt (h : CountsAt n sender len left counted settled)
    (hs : sender ≠ .finished) : len < n := by
  cases sender with
  | sending => exact h.sending rfl
  | rejecting => exact (h.failing (.inl rfl)).2
  | correcting => exact (h.failing (.inr rfl)).2
  | finished => exact absurd rfl hs

theorem countsAt_send (h : CountsAt n .sending len left counted settled) :
    CountsAt n (if len + 1 = n then .finished else .sending) (len + 1) left counted settled := by
  obtain ⟨hleft, hzero⟩ := h.busy nofun
  have hlt := h.sending rfl
  have hle := h.counted_le
  by_cases hlast : len + 1 = n
  · rw [if_pos hlast]
    exact ⟨nofun, nofun, fun _ => by omega, by omega, by rw [if_pos rfl]; omega, by omega,
      by omega⟩
  · rw [if_neg hlast]
    exact ⟨fun _ => by omega, nofun, nofun, by omega, by rw [if_neg nofun]; omega, by omega,
      by omega⟩

theorem countsAt_sendFail (h : CountsAt n .sending len left counted settled) (hpos : 0 < len) :
    CountsAt n .rejecting len left counted settled := by
  obtain ⟨hleft, hzero⟩ := h.busy nofun
  exact ⟨nofun, fun _ => ⟨hpos, h.sending rfl⟩, nofun, h.counted_le, by rwa [if_neg nofun],
    h.once, by omega⟩

theorem countsAt_reject (h : CountsAt n .rejecting len left counted settled) :
    CountsAt n .correcting len left counted settled := by
  obtain ⟨hleft, hzero⟩ := h.busy nofun
  exact ⟨nofun, fun _ => h.failing (Or.inl rfl), nofun, h.counted_le, by rwa [if_neg nofun],
    h.once, by omega⟩

theorem countsAt_correct (h : CountsAt n .correcting len left counted settled) (hn : n < 2 ^ 64) :
    CountsAt n .finished len (counterIncreaseWith left (toUlong (-(n - len : Nat)))).2 counted
      settled := by
  obtain ⟨hleft, hzero⟩ := h.busy nofun
  obtain ⟨hpos, hlt⟩ := h.failing (Or.inr rfl)
  have hle := h.counted_le
  rw [counterIncreaseWith_neg (by omega) (by omega)]
  exact ⟨nofun, nofun, fun _ => by omega, hle, by rw [if_pos rfl]; omega, h.once, by omega⟩

section
variable (h : CountsAt n sender len left counted settled) (hlt : counted < len)
include h hlt

theorem CountsAt.uncounted : settled = 0 ∧ 0 < left := by
  refine ⟨Nat.eq_zero_of_not_pos fun h0 => ?_, ?_⟩
  · have := (h.last h0).2
    omega
  · have hleft := h.left
    split at hleft <;> rename_i hs
    · have := h.through hs
      omega
    · have := h.len_lt hs
      omega

theorem countsAt_count :
    CountsAt n sender len (left - 1) (counted + 1) (if left ≤ 1 then settled + 1 else settled) := by
  obtain ⟨hzero, hpos⟩ := h.uncounted hlt
  have hleft := h.left
  refine ⟨h.sending, h.failing, h.through, hlt, by omega, by split <;> omega, fun h0 => ?_⟩
  have hlast : left ≤ 1 := by
    by_contra hmore
    rw [if_neg hmore] at h0
    omega
  split at hleft <;> rename_i hs
  · exact ⟨hs, by omega⟩
  · have := h.len_lt hs
    omega

end
end Numbers

def Counts (n : Nat) (s : Split) : Prop :=
  CountsAt n s.sender s.handed.length s.partsLeft s.counted s.settled

theorem counts_start {n : Nat} (hn : 0 < n) : Counts n (splitStart n) where
  sending _ := hn
  failing h := by rcases h with h | h <;> cases h
  through := nofun
  counted_le := Nat.le_refl 0
  left := rfl
  once := Nat.zero_le 1
  last h0 := absurd h0 (Nat.lt_irrefl 0)

theorem Counts.of_sender {n : Nat} {s : Split} {ph : SenderPhase} (h : Counts n s)
    (hs : s.sender = ph) : CountsAt n ph s.handed.length s.partsLeft s.counted s.settled :=
  hs ▸ h

section Reports
variable {n j : Nat} {s s' : Split} {a : SplitAction} {p q : PartPhase}

theorem counted_lt (hj : s.handed[j]? = some p) (hp : p.counted = false) :
    s.counted < s.handed.length :=
  countP_lt_length_iff.mpr ⟨p, mem_of_getElem? hj, hp⟩

theorem handleSplit_uncounted (status r : Reason) :
    (handleSplit status r).counted = false ∧ (handleSplit status r).isDisposing = false := by
  unfold handleSplit
  split <;> first | exact ⟨rfl, rfl⟩ | (split <;> exact ⟨rfl, rfl⟩)

theorem report_numbers (hj : s.handed[j]? = some p) (hstep : ReportStep s j p q s') :
    s'.sender = s.sender ∧ s'.handed.length = s.handed.length ∧
      ((s'.partsLeft = s.partsLeft ∧ s'.counted = s.counted ∧ s'.settled = s.settled) ∨
        (p.counted = false ∧ s'.partsLeft = s.partsLeft - 1 ∧ s'.counted = s.counted + 1 ∧
          s'.settled = if s.partsLeft ≤ 1 then s.settled + 1 else s.settled)) := by
  have hcount := countP_replace PartPhase.counted (q := q) hj
  have hdispose := countP_replace PartPhase.isDisposing (q := q) hj
  unfold Split.counted Split.settled
  cases hstep with
  | @complete r hr =>
    obtain ⟨hc, hd⟩ := handleSplit_uncounted s.status r
    rw [hc] at hcount
    rw [hd] at hdispose
    refine ⟨rfl, length_set, Or.inl ⟨rfl, Nat.add_right_cancel hcount, ?_⟩⟩
    exact congrArg (· + _) (Nat.add_right_cancel hdispose)
  | @write r =>
    refine ⟨rfl, length_set, Or.inl ⟨rfl, Nat.add_right_cancel hcount, ?_⟩⟩
    exact congrArg (· + _) (Nat.add_right_cancel hdispose)
  | @last r hold =>
    refine ⟨rfl, length_set, Or.inr ⟨rfl, rfl, hcount, ?_⟩⟩
    simp only [PartPhase.isDisposing, Bool.toNat_true, Bool.toNat_false] at hdispose
    rw [if_pos hold]
    dsimp only
    omega
  | @count r hold =>
    refine ⟨rfl, length_set, Or.inr ⟨rfl, rfl, hcount, ?_⟩⟩
    rw [if_neg (Nat.not_le.mpr hold)]
    exact congrArg (· + _) (Nat.add_right_cancel hdispose)
  | @dispose r =>
    refine ⟨rfl, length_set, Or.inl ⟨rfl, Nat.add_right_cancel hcount, ?_⟩⟩
    simp only [PartPhase.isDisposing, Bool.toNat_true, Bool.toNat_false] at hdispose
    simp only [length_append, length_singleton]
    omega

theorem counts_report (h : Counts n s) (hj : s.handed[j]? = some p)
    (hstep : ReportStep s j p q s') : Counts n s' := by
  unfold Counts
  rcases report_numbers hj hstep with
    ⟨hs, hlen, ⟨hleft, hcount, hset⟩ | ⟨hp, hleft, hcount, hset⟩⟩
  · rw [hs, hlen, hleft, hcount, hset]
    exact h
  · rw [hs, hlen, hleft, hcount, hset]
    exact countsAt_count h (counted_lt hj hp)

theorem counts_step (h : Counts n s) (hn : n < 2 ^ 64) (hstep : splitStep n s a = some s') :
    Counts n s' := by
  rcases splitStep_cases hstep with hsend | ⟨-, j, p, q, hj, hreport⟩
  · cases hsend with
    | send hs =>
      have hnext := countsAt_send (h.of_sender hs)
      simpa [Counts, Split.counted, Split.settled, PartPhase.counted,
        PartPhase.isDisposing] using hnext
    | sendFail hs hpos => exact countsAt_sendFail (h.of_sender hs) hpos
    | reject hs => exact countsAt_reject (h.of_sender hs)
    | correct hs => exact countsAt_correct (h.of_sender hs) hn
  · exact counts_report h hj hreport

end Reports

structure Statuses (n : Nat) (s : Split) : Prop where
  writes : ∀ r, .writing r ∈ s.handed → r ≠ .success
  failed : ∀ p ∈ s.handed, p.Failed → s.status ≠ .success
  short : s.sender = .correcting ∨ (s.sender = .finished ∧ s.handed.length < n) →
    s.status ≠ .success
  sent : .sent ∈ s.disposed → s.handed.length = n ∧ ∀ p ∈ s.handed, p = .finished .success

theorem statuses_start (n : Nat) : Statuses n (splitStart n) where
  writes _ h := nomatch h
  failed _ h := nomatch h
  short h := by
    rcases h with h | ⟨h, -⟩ <;> cases h
  sent h := nomatch h

section Statuses
variable {n j : Nat} {s s' : Split} {a : SplitAction} {p q : PartPhase}

theorem Counts.not_sent (h : Counts n s) (hs : s.sender ≠ .finished) : .sent ∉ s.disposed := by
  intro hsent
  have hpos : 0 < s.settled := by
    have := length_pos_of_mem hsent
    unfold Split.settled
    omega
  exact hs (h.last hpos).1

theorem statuses_sender (h : Statuses n s) (hc : Counts n s) (hstep : SenderStep n s a s') :
    Statuses n s' := by
  cases hstep with
  | send hs =>
    have hnot := hc.not_sent (by rw [hs]; nofun)
    refine ⟨fun r hr => h.writes r ?_, fun p hp hfail => h.failed p ?_ hfail, ?_,
      fun hsent => absurd hsent hnot⟩
    · rcases mem_append.mp hr with hr | hr
      · exact hr
      · cases mem_singleton.mp hr
    · rcases mem_append.mp hp with hp | hp
      · exact hp
      · rw [mem_singleton.mp hp] at hfail
        exact hfail.elim
    · simp only [length_append, length_singleton]
      by_cases hlast : s.handed.length + 1 = n
      · simp only [hlast, if_true]
        rintro (hx | ⟨-, hx⟩)
        · cases hx
        · exact absurd hx (Nat.lt_irrefl n)
      · simp only [hlast, if_false]
        rintro (hx | ⟨hx, -⟩) <;> cases hx
  | sendFail hs hpos =>
    have hnot := hc.not_sent (by rw [hs]; nofun)
    refine ⟨h.writes, h.failed, ?_, fun hsent => absurd hsent hnot⟩
    rintro (hx | ⟨hx, -⟩) <;> cases hx
  | reject hs =>
    have hnot := hc.not_sent (by rw [hs]; nofun)
    exact ⟨h.writes, fun _ _ _ => nofun, fun _ => nofun, fun hsent => absurd hsent hnot⟩
  | correct hs =>
    have hnot := hc.not_sent (by rw [hs]; nofun)
    exact ⟨h.writes, h.failed, fun _ => h.short (Or.inl hs), fun hsent => absurd hsent hnot⟩

theorem handleSplit_writing {status r r' : Reason} (h : .writing r' = handleSplit status r) :
    r' ≠ .success := by
  unfold handleSplit at h
  split at h
  · cases h; nofun
  · cases h; nofun
  · cases h; nofun
  · cases h
  · next hr =>
    split at h
    · cases h
      exact hr
    · cases h

theorem handleSplit_failed {status r : Reason} (h : (handleSplit status r).Failed) :
    status ≠ .success := by
  unfold handleSplit at h
  split at h
  · exact h.elim
  · exact h.elim
  · exact h.elim
  · exact absurd rfl h
  · split at h
    · exact h.elim
    · assumption

theorem Counts.finished_of_dispose (h : Counts n s) {r : Reason}
    (hj : s.handed[j]? = some (.disposing r)) :
    s.sender = .finished ∧ ∀ p ∈ s.handed.set j (.finished r), ∃ r', p = .finished r' := by
  have hpos : 0 < s.settled := by
    have := countP_pos_iff.mpr ⟨_, mem_of_getElem? hj, (rfl : (PartPhase.disposing r).isDisposing)⟩
    unfold Split.settled
    omega
  have hcount := countP_replace PartPhase.counted (q := .finished r) hj
  have hdispose := countP_replace PartPhase.isDisposing (q := .finished r) hj
  have honce := h.once
  obtain ⟨hs, hall⟩ := h.last hpos
  unfold Split.settled at honce
  unfold Split.counted at hall
  simp only [PartPhase.counted, PartPhase.isDisposing, Bool.toNat_true, Bool.toNat_false] at *
  have hcounted : (s.handed.set j (.finished r)).countP PartPhase.counted =
      (s.handed.set j (.finished r)).length := by
    rw [length_set]
    omega
  have hnone : (s.handed.set j (.finished r)).countP PartPhase.isDisposing = 0 := by omega
  exact ⟨hs, finished_of_countP hcounted hnone⟩

theorem statuses_report (h : Statuses n s) (hc : Counts n s) (hj : s.handed[j]? = some p)
    (hstep : ReportStep s j p q s') : Statuses n s' := by
  have hp := mem_of_getElem? hj
  -- a report still on its way shows that the message was not passed on as sent
  have hnot : p ≠ .finished .success → .sent ∉ s.disposed := fun hne hsent =>
    hne ((h.sent hsent).2 p hp)
  have hset : ∀ x ∈ s.handed.set j q, x ∈ s.handed ∨ x = q :=
    fun x hx => mem_or_eq_of_mem_set hx
  have hwrites : (∀ r, .writing r ≠ q) → ∀ r, .writing r ∈ s.handed.set j q → r ≠ .success :=
    fun hq r hr => (hset _ hr).elim (h.writes r) fun hnew => absurd hnew (hq r)
  have hfailed : (q.Failed → p.Failed) →
      ∀ x ∈ s.handed.set j q, x.Failed → s.status ≠ .success := by
    intro hq x hx hfail
    rcases hset x hx with hold | rfl
    · exact h.failed x hold hfail
    · exact h.failed p hp (hq hfail)
  have hshort : s.sender = .correcting ∨ (s.sender = .finished ∧ (s.handed.set j q).length < n) →
      s.status ≠ .success := by
    rw [length_set]
    exact h.short
  cases hstep with
  | @complete r hr =>
    refine ⟨fun r' hw => ?_, fun x hx hfail => ?_, hshort, fun hsent => absurd hsent (hnot nofun)⟩
    · rcases hset _ hw with hold | hnew
      · exact h.writes r' hold
      · exact handleSplit_writing hnew
    · rcases hset x hx with hold | rfl
      · exact h.failed x hold hfail
      · exact handleSplit_failed hfail
  | @write r =>
    have hr := h.writes r hp
    exact ⟨hwrites nofun, fun _ _ _ => hr, fun _ => hr, fun hsent => absurd hsent (hnot nofun)⟩
  | @last r hold =>
    exact ⟨hwrites nofun, hfailed id, hshort, fun hsent => absurd hsent (hnot nofun)⟩
  | @count r hold =>
    exact ⟨hwrites nofun, hfailed id, hshort, fun hsent => absurd hsent (hnot nofun)⟩
  | @dispose r =>
    refine ⟨hwrites nofun, hfailed id, hshort, fun hsent => ?_⟩
    have hsuccess : s.status = .success := by
      rcases mem_append.mp hsent with hold | hnew
      · exact absurd hold (hnot nofun)
      · by_contra hne
        rw [if_neg hne] at hnew
        cases mem_singleton.mp hnew
    obtain ⟨hs, hall⟩ := hc.finished_of_dispose hj
    refine ⟨?_, fun x hx => ?_⟩
    · rw [length_set]
      exact Nat.le_antisymm (hc.through hs)
        (Nat.not_lt.mp fun hlt => h.short (Or.inr ⟨hs, hlt⟩) hsuccess)
    · obtain ⟨r', rfl⟩ := hall x hx
      by_contra hne
      exact hfailed id _ hx (fun hr' => hne (by rw [hr'])) hsuccess

theorem statuses_step (h : Statuses n s) (hc : Counts n s) (hstep : splitStep n s a = some s') :
    Statuses n s' := by
  rcases splitStep_cases hstep with hsend | ⟨-, j, p, q, hj, hreport⟩
  · exact statuses_sender h hc hsend
  · exact statuses_report h hc hj hreport

end Statuses

def Settles (s : Split) : Prop :=
  s.sender = .finished → s.counted = s.handed.length → s.settled = 1

section Settling
variable {n j : Nat} {s s' : Split} {a : SplitAction} {p q : PartPhase}

theorem settles_report (h : Settles s) (hc : Counts n s) (hj : s.handed[j]? = some p)
    (hstep : ReportStep s j p q s') : Settles s' := by
  rcases report_numbers hj hstep with
    ⟨hs, hlen, ⟨-, hcount, hset⟩ | ⟨hp, -, hcount, hset⟩⟩
  · rwa [Settles, hs, hlen, hcount, hset]
  · rw [Settles, hs, hset]
    intro hfinished hall
    have hleft := hc.left
    rw [if_pos hfinished] at hleft
    rw [if_pos (by omega), (hc.uncounted (counted_lt hj hp)).1]

theorem settles_step (h : Settles s) (hc : Counts n s) (htime : InTime s a)
    (hstep : splitStep n s a = some s') : Settles s' := by
  rcases splitStep_cases hstep with hsend | ⟨-, j, p, q, hj, hreport⟩
  · have hle := hc.counted_le
    cases hsend with
    | send hs =>
      intro _ hall
      simp only [Split.counted, countP_append, length_append, length_singleton,
        countP_singleton, PartPhase.counted, Bool.false_eq_true, if_false] at hall hle
      omega
    | sendFail hs hpos => exact nofun
    | reject hs => exact nofun
    | correct hs =>
      intro _ hall
      have hlt : s.counted < s.handed.length := countP_lt_length_iff.mpr (htime rfl)
      exact absurd hall (Nat.ne_of_lt hlt)
  · exact settles_report h hc hj hreport

theorem splitStep_complete (h : s.Complete) : splitStep n s a ≠ some s' := by
  intro hstep
  rcases splitStep_cases hstep with hsend | ⟨-, j, p, q, hj, hreport⟩
  · cases hsend <;> simp_all [Split.Complete]
  · obtain ⟨r, rfl⟩ := h.2 p (mem_of_getElem? hj)
    cases hreport

theorem late_correction (hc : Counts n s) (hlate : ¬ InTime s a)
    (hstep : splitStep n s a = some s') : s'.Complete ∧ s'.disposed = [] := by
  obtain ⟨rfl, hall⟩ := Classical.not_imp.mp hlate
  obtain ⟨hs, rfl⟩ := of_guard hstep
  have hzero := (hc.busy (by rw [hs]; nofun)).2
  unfold Split.settled at hzero
  have hnone : s.handed.countP PartPhase.isDisposing = 0 := by omega
  have hempty : s.disposed = [] := eq_nil_of_length_eq_zero (by omega)
  refine ⟨⟨rfl, fun p hp => ?_⟩, hempty⟩
  refine PartPhase.finished_of_counted ?_ (countP_eq_zero.mp hnone p hp)
  by_contra hf
  exact hall ⟨p, hp, Bool.eq_false_of_not_eq_true hf⟩

end Settling

section Runs
variable {n : Nat} {s : Split} {trace : List (Split × SplitAction)}

section
variable (hn : 0 < n) (hn' : n < 2 ^ 64) (hrun : Run (splitStep n) (splitStart n) trace s)
include hn hn' hrun

theorem run_counts : Counts n s ∧ Statuses n s :=
  hrun.invariant (I := fun s => Counts n s ∧ Statuses n s)
    ⟨counts_start hn, statuses_start n⟩
    fun _ _ _ h hstep => ⟨counts_step h.1 hn' hstep, statuses_step h.2 h.1 hstep⟩

theorem run_settles (htime : ∀ p ∈ trace, InTime p.1 p.2) : Settles s :=
  (hrun.invariant_where (I := fun s => Counts n s ∧ Settles s)
    ⟨counts_start hn, nofun⟩
    (fun _ _ _ h htime hstep => ⟨counts_step h.1 hn' hstep, settles_step h.2 h.1 htime hstep⟩)
    htime).2

theorem run_lost (hlate : ¬ ∀ p ∈ trace, InTime p.1 p.2) : s.Complete ∧ s.disposed = [] := by
  induction hrun with
  | start => exact absurd (fun p hp => nomatch hp) hlate
  | @next trace s s' a hrun hstep ih =>
    by_cases hold : ∀ p ∈ trace, InTime p.1 p.2
    · refine late_correction (run_counts hn hn' hrun).1 (fun htime => hlate fun p hp => ?_) hstep
      rcases mem_append.mp hp with hp | hp
      · exact hold p hp
      · rw [mem_singleton.mp hp]
        exact htime
    · exact absurd hstep (splitStep_complete (ih hold).1)

end

theorem disposed_of_settles (hc : Counts n s) (hst : Statuses n s) (h : Settles s) :
    Disposed n s := by
  have hzero : s.Complete → s.handed.countP PartPhase.isDisposing = 0 ∧
      s.counted = s.handed.length := by
    intro hcomplete
    refine ⟨countP_eq_zero.mpr fun p hp => ?_, countP_eq_length.mpr fun p hp => ?_⟩
    · obtain ⟨r, rfl⟩ := hcomplete.2 p hp
      nofun
    · obtain ⟨r, rfl⟩ := hcomplete.2 p hp
      rfl
  have honce := hc.once
  unfold Split.settled at honce
  refine ⟨by omega, fun hne => ?_, hst.sent, fun hcomplete => ?_⟩
  · have hpos := length_pos_iff.mpr hne
    obtain ⟨hs, hall⟩ := hc.last (by unfold Split.settled; omega)
    have hnone : s.handed.countP PartPhase.isDisposing = 0 := by omega
    exact ⟨hs, finished_of_countP hall hnone⟩
  · obtain ⟨hnone, hall⟩ := hzero hcomplete
    have hone := h hcomplete.1 hall
    unfold Split.settled at hone
    omega

end Runs

/-- **One disposition.**  In every interleaving the message receives what it should exactly if
every correction of the counter came in time. -/
theorem split_disposed_iff {n : Nat} (hn : 0 < n) (hn' : n < 2 ^ 64) {s : Split}
    {trace : List (Split × SplitAction)} (hrun : Run (splitStep n) (splitStart n) trace s) :
    Disposed n s ↔ ∀ p ∈ trace, InTime p.1 p.2 := by
  constructor
  · intro h
    by_contra hlate
    obtain ⟨hcomplete, hempty⟩ := run_lost hn hn' hrun hlate
    have hone := h.done hcomplete
    rw [hempty] at hone
    cases hone
  · intro htime
    obtain ⟨hc, hst⟩ := run_counts hn hn' hrun
    exact disposed_of_settles hc hst (run_settles hn hn' hrun htime)

theorem split_disposed_two_parts :
    ∃ trace s, Run (splitStep 2) (splitStart 2) trace s ∧ Disposed 2 s ∧ s.disposed = [.sent] := by
  have hrun := Machine.run_of_exec (show Machine.exec (splitStep 2) (splitStart 2)
    [.send, .complete 0 .success, .send, .count 0, .complete 1 .success, .count 1, .dispose 1] =
      some (_, ⟨.finished, [.finished .success, .finished .success], 0, .success, [.sent]⟩)
      from rfl)
  refine ⟨_, _, hrun, (split_disposed_iff (by decide) (by decide) hrun).mpr ?_, rfl⟩
  simp [InTime]

/-- The first part is reported before the sender corrects the counter: the message is never
passed on. -/
theorem split_lost_two_parts :
    ∃ trace s, Run (splitStep 2) (splitStart 2) trace s ∧ s.Complete ∧ s.disposed = [] ∧
      ¬ Disposed 2 s := by
  have hrun := Machine.run_of_exec (show Machine.exec (splitStep 2) (splitStart 2)
    [.send, .complete 0 .success, .count 0, .sendFail, .reject, .correct] =
      some (_, ⟨.finished, [.finished .success], 0, .failedRejected, []⟩) from rfl)
  have hcomplete : Split.Complete ⟨.finished, [.finished .success], 0, .failedRejected, []⟩ :=
    ⟨rfl, by simp⟩
  exact ⟨_, _, hrun, hcomplete, rfl, fun h => nomatch h.done hcomplete⟩

end Kannel
