import Kannel.Gwlib.GwTimer

/-!
# Timer sets: calls, and the thread that fires the timers

Between two calls the heap is in order, the timers in it are the active ones, they know their
places, and none has data left (`Consistent`).  Every call of `gw-timer.c` takes a consistent set to
a consistent one, so that none of the assertions on the way can fail.

A pass of the timer thread takes the top of the heap as long as it is due.  What that comes to is
`Fires`: exactly the active timers that are due, each once, and for each of them its data at the end
of its output list and in the hands of its callback, in the order in which they fire.
-/

namespace Kannel
open List

namespace GwTimer
open HalvingHeap
variable {τ δ : Type} {s s' s'' : Timerset τ δ} {g g' g'' : ℕ → τ} {i j k : ℕ}

/-- The state of a timer set between two calls; `g i` is the timer in slot `i` of the heap. -/
structure Consistent (s : Timerset τ δ) (g : ℕ → τ) : Prop where
  shape : HeapShape s g
  ordered : Ordered (· ≤ ·) (keys s g) 0 s.len
  active : ∀ i, i < s.len → 0 < (s.timers (g i)).elapses
  clear : ∀ i, i < s.len → (s.timers (g i)).elapsedData = none
  inactive : ∀ t, ¬ InHeap g s.len t → (s.timers t).elapses = -1

theorem Consistent.congr (h : Consistent s g) (htab : s'.tab = s.tab) (hlen : s'.len = s.len)
    (helapses : ∀ t, (s'.timers t).elapses = (s.timers t).elapses)
    (hindex : ∀ t, (s'.timers t).index = (s.timers t).index)
    (hclear : ∀ t, (s.timers t).elapsedData = none → (s'.timers t).elapsedData = none) :
    Consistent s' g where
  shape := h.shape.congr htab hlen hindex
  ordered := by
    have hkeys : keys s' g = keys s g := funext fun i => helapses (g i)
    rw [hkeys, hlen]
    exact h.ordered
  active i hi := by
    rw [helapses]
    exact h.active i (by omega)
  clear i hi := hclear _ (h.clear i (by omega))
  inactive t ht := by
    rw [helapses]
    exact h.inactive t (by rwa [← hlen])

theorem Consistent.inHeap_iff (h : Consistent s g) (t : τ) :
    InHeap g s.len t ↔ 0 < (s.timers t).elapses := by
  constructor
  · rintro ⟨i, hi, rfl⟩
    exact h.active i hi
  · intro hpos
    by_contra hnot
    rw [h.inactive t hnot] at hpos
    omega

theorem Consistent.none_active (h : Consistent s g) (hlen : s.len = 0) (t : τ) :
    ¬ 0 < (s.timers t).elapses := by
  intro hpos
  obtain ⟨i, hi, -⟩ := (h.inHeap_iff t).mpr hpos
  omega

section calls
variable [DecidableEq τ]

structure Cleared (s : Timerset τ δ) (t : τ) (s' : Timerset τ δ) : Prop where
  tab : s'.tab = s.tab
  len : s'.len = s.len
  self : s'.timers t = { s.timers t with elapsedData := none }
  other : ∀ t', t' ≠ t → s'.timers t' = s.timers t'

theorem cleared_forgetElapsed (s : Timerset τ δ) (t : τ) : Cleared s t (forgetElapsed s t) :=
  ⟨rfl, rfl, modify_self .., fun _ h => modify_of_ne h ..⟩

theorem cleared_abortElapsed [DecidableEq δ] (s : Timerset τ δ) (t : τ) :
    Cleared s t (abortElapsed s t) := by
  cases hdata : (s.timers t).elapsedData with
  | none =>
    have heq : abortElapsed s t = s := by rw [abortElapsed, hdata]
    rw [heq]
    refine ⟨rfl, rfl, ?_, fun _ _ => rfl⟩
    rw [← hdata]
  | some d =>
    cases hout : (s.timers t).output with
    | none =>
      have heq : abortElapsed s t = forgetElapsed s t := by
        rw [abortElapsed, hdata]
        simp only [hout]
      rw [heq]
      exact cleared_forgetElapsed s t
    | some out =>
      have heq : abortElapsed s t = forgetElapsed (deleteEqual s out d) t := by
        rw [abortElapsed, hdata]
        simp only [hout]
      rw [heq]
      obtain ⟨htab, hlen, hself, hother⟩ := cleared_forgetElapsed (deleteEqual s out d) t
      exact ⟨htab, hlen, hself, hother⟩

variable {t : τ}

theorem Cleared.elapses (h : Cleared s t s') (t' : τ) :
    (s'.timers t').elapses = (s.timers t').elapses := by
  by_cases ht : t' = t
  · rw [ht, h.self]
  · rw [h.other t' ht]

theorem Cleared.consistent (h : Cleared s t s') (hs : Consistent s g) : Consistent s' g := by
  refine hs.congr h.tab h.len h.elapses (fun t' => ?_) fun t' hnone => ?_
  · by_cases ht : t' = t
    · rw [ht, h.self]
    · rw [h.other t' ht]
  · by_cases ht : t' = t
    · rw [ht, h.self]
    · rw [h.other t' ht, hnone]

def Retimed (s : Timerset τ δ) (t : τ) (e : ℤ) (s' : Timerset τ δ) : Prop :=
  ∀ t', (s'.timers t').elapses = if t' = t then e else (s.timers t').elapses

section
variable (s : Timerset τ δ) (t : τ) (e : ℤ)

theorem retimed_modify : Retimed s t e (s.modify t fun x => { x with elapses := e }) := by
  intro t'
  by_cases ht : t' = t
  · rw [if_pos ht, ht, modify_self]
  · rw [if_neg ht, modify_of_ne ht]

theorem modify_elapses_index (t' : τ) :
    ((s.modify t fun x => { x with elapses := e }).timers t').index = (s.timers t').index := by
  by_cases ht : t' = t
  · rw [ht, modify_self]
  · rw [modify_of_ne ht]

theorem modify_elapses_elapsedData (t' : τ) :
    ((s.modify t fun x => { x with elapses := e }).timers t').elapsedData =
      (s.timers t').elapsedData := by
  by_cases ht : t' = t
  · rw [ht, modify_self]
  · rw [modify_of_ne ht]

end

variable {e : ℤ}

/-- Timer `t` has been given the time `e`, and the heap has been brought in order after it. -/
theorem Consistent.retimed (h : Consistent s g) {s₁ : Timerset τ δ} (htime : Retimed s t e s₁)
    (he : 0 < e ∨ e = -1)
    (hdata : ∀ t', InHeap g s.len t' ∨ t' = t → (s₁.timers t').elapsedData = none)
    (hshape : HeapShape s' g') (hframe : Frame s₁ s') (hord : Ordered (· ≤ ·) (keys s₁ g') 0 s'.len)
    (hsame : ∀ t', InHeap g' s'.len t' ↔ if t' = t then 0 < e else InHeap g s.len t') :
    Consistent s' g' ∧ Retimed s t e s' := by
  have htime' : Retimed s t e s' := fun t' => by rw [hframe.elapses, htime]
  refine ⟨⟨hshape, ?_, fun i hi => ?_, fun i hi => ?_, fun t' hout => ?_⟩, htime'⟩
  · rw [hframe.keys]
    exact hord
  · have hin := (hsame (g' i)).mp ⟨i, hi, rfl⟩
    rw [htime']
    split_ifs at hin ⊢
    · exact hin
    · exact (h.inHeap_iff _).mp hin
  · have hin := (hsame (g' i)).mp ⟨i, hi, rfl⟩
    rw [hframe.elapsedData]
    apply hdata
    split_ifs at hin with ht
    · exact .inr ht
    · exact .inl hin
  · rw [hsame] at hout
    rw [htime']
    split_ifs at hout ⊢
    · exact he.resolve_left hout
    · exact h.inactive t' hout

theorem resetTimer_ok (h : Consistent s g) (ht : 0 < (s.timers t).elapses) (he : 0 < e) :
    ∃ s' wakeup g', resetTimer s t e = .ok (s', wakeup) ∧ Consistent s' g' ∧ Retimed s t e s' := by
  obtain ⟨k, hk, rfl⟩ := (h.inHeap_iff t).mpr ht
  let s₁ := s.modify (g k) fun x => { x with elapses := e }
  have hindex := modify_elapses_index s (g k) e
  have hshape : HeapShape s₁ g := h.shape.congr rfl rfl hindex
  have htime : Retimed s (g k) e s₁ := retimed_modify s (g k) e
  have hplace : (s₁.timers (g k)).index = k := (hindex _).trans (h.shape.index k hk)
  have hloose : Loose (· ≤ ·) (keys s₁ g) 0 s₁.len k := by
    refine h.ordered.loose le_rfl hk fun i hi hik => ?_
    rw [keys, htime, if_neg fun heq => hik (h.shape.inj hi hk heq), keys]
  obtain ⟨s', top, g', hadjust, hadj⟩ := heapAdjust_ok hshape hloose hk
  have hrun : resetTimer s (g k) e = .ok (s', decide (e < (s.timers (g k)).elapses ∧
      (s.timers (g k)).index = 0) || top) := by
    rw [resetTimer]
    dsimp only
    rw [hplace, if_neg (by omega), Int.toNat_natCast, hshape.heapSlot hk, ok_bind,
      if_neg (not_not.mpr rfl), hadjust, ok_bind, pure_eq_ok]
  refine ⟨s', _, g', hrun, h.retimed htime (.inl he) (fun t' hin => ?_) hadj.shape hadj.frame
    (by rw [hadj.len]; exact hadj.ordered) fun t' => ?_⟩
  · rw [modify_elapses_elapsedData]
    obtain ⟨i, hi, rfl⟩ : InHeap g s.len t' := hin.elim id fun heq => ⟨k, hk, heq.symm⟩
    exact h.clear i hi
  · rw [hadj.len, hadj.same]
    split_ifs with ht
    · exact iff_of_true ⟨k, hk, ht.symm⟩ he
    · rfl

theorem activateTimer_ok (hclear : ∀ s t, Cleared s t (clear s t)) (h : Consistent s g)
    (ht : ¬ 0 < (s.timers t).elapses) (he : 0 < e) :
    ∃ s' wakeup g', activateTimer clear s t e = .ok (s', wakeup) ∧ Consistent s' g' ∧
      Retimed s t e s' := by
  have hc := hclear s t
  have hcons := hc.consistent h
  have hout : ¬ InHeap g s.len t := fun hin => ht ((h.inHeap_iff t).mp hin)
  let s₁ := (clear s t).modify t fun x => { x with elapses := e }
  have hlen₁ : s₁.len = s.len := hc.len
  have hindex := modify_elapses_index (clear s t) t e
  have hshape : HeapShape s₁ g := hcons.shape.congr rfl rfl hindex
  have htime : Retimed s t e s₁ := by
    intro t'
    rw [retimed_modify, hc.elapses]
  have hfree : ∀ i, i < s₁.len → g i ≠ t := fun i hi heq => hout ⟨i, by omega, heq⟩
  have hord : Ordered (· ≤ ·) (keys s₁ g) 0 s₁.len := by
    have hkeys : ∀ i, i < s₁.len → keys s₁ g i = keys s g i := by
      intro i hi
      rw [keys, htime, if_neg (hfree i hi), keys]
    intro i hlo hi
    rw [hkeys i hi, hkeys (i / 2) (by omega)]
    exact h.ordered i hlo (by omega)
  obtain ⟨s', g', hinsert, hins⟩ := heapInsert_ok hshape hfree hord
  have hrun : activateTimer clear s t e = .ok (s', decide ((s'.timers t).index = 0)) := by
    have hindex' : (s₁.timers t).index = -1 := hshape.outside t hfree
    rw [activateTimer, hindex', if_neg (by omega), hinsert, ok_bind, pure_eq_ok]
  refine ⟨s', _, g', hrun, h.retimed htime (.inl he) (fun t' hin => ?_) hins.shape hins.frame
    hins.ordered fun t' => ?_⟩
  · rw [modify_elapses_elapsedData]
    rcases hin with ⟨i, hi, rfl⟩ | rfl
    · exact hcons.clear i (by rwa [hc.len])
    · rw [hc.self]
  · rw [hins.same, hlen₁]
    split_ifs with ht
    · exact iff_of_true (.inr ht) he
    · exact or_iff_left ht

theorem setData_consistent (h : Consistent s g) (t : τ) (data : Option δ) :
    Consistent (setData s t data) g ∧
      ∀ t', ((setData s t data).timers t').elapses = (s.timers t').elapses := by
  cases data with
  | none => exact ⟨h, fun _ => rfl⟩
  | some d =>
    have hsame : ∀ t', (((setData s t (some d)).timers t').elapses = (s.timers t').elapses ∧
        ((setData s t (some d)).timers t').index = (s.timers t').index ∧
        ((setData s t (some d)).timers t').elapsedData = (s.timers t').elapsedData) := by
      intro t'
      rw [setData]
      by_cases ht : t' = t
      · rw [ht, modify_self]
        exact ⟨rfl, rfl, rfl⟩
      · rw [modify_of_ne ht]
        exact ⟨rfl, rfl, rfl⟩
    refine ⟨h.congr rfl rfl (fun t' => (hsame t').1) (fun t' => (hsame t').2.1) ?_,
      fun t' => (hsame t').1⟩
    intro t' hnone
    rw [(hsame t').2.2, hnone]

theorem startTimer_ok (hclear : ∀ s t, Cleared s t (clear s t)) (h : Consistent s g) (t : τ)
    (he : 0 < e) (data : Option δ) :
    ∃ s' wakeup g', startTimer clear s t e data = .ok (s', wakeup) ∧ Consistent s' g' ∧
      Retimed s t e s' := by
  obtain ⟨s₁, wakeup, g', hbranch, hcons, htime⟩ : ∃ s₁ wakeup g',
      (if (s.timers t).elapses > 0 then resetTimer s t e else activateTimer clear s t e) =
        .ok (s₁, wakeup) ∧ Consistent s₁ g' ∧ Retimed s t e s₁ := by
    by_cases ht : (s.timers t).elapses > 0
    · rw [if_pos ht]
      exact resetTimer_ok h ht he
    · rw [if_neg ht]
      exact activateTimer_ok hclear h ht he
  obtain ⟨hdata, hsame⟩ := setData_consistent hcons t data
  refine ⟨setData s₁ t data, wakeup, g', ?_, hdata, fun t' => ?_⟩
  · rw [startTimer, hbranch]
    rfl
  · rw [hsame, htime]

theorem deactivate_ok (h : Consistent s g) (t : τ) :
    ∃ s' g', deactivate s t = .ok s' ∧ Consistent s' g' ∧ Retimed s t (-1) s' ∧
      (0 < (s.timers t).elapses → s'.len + 1 = s.len) := by
  rw [deactivate]
  by_cases ht : (s.timers t).elapses > 0
  · obtain ⟨k, hk, rfl⟩ := (h.inHeap_iff t).mpr ht
    let s₁ := s.modify (g k) fun x => { x with elapses := -1 }
    have hindex := modify_elapses_index s (g k) (-1)
    have hshape : HeapShape s₁ g := h.shape.congr rfl rfl hindex
    have htime : Retimed s (g k) (-1) s₁ := retimed_modify s (g k) (-1)
    have hplace : (s₁.timers (g k)).index = k := (hindex _).trans (h.shape.index k hk)
    obtain ⟨s', g', hdelete, hrem⟩ := heapDelete_ok hshape hk h.ordered fun i hi hik => by
      rw [keys, htime, if_neg fun heq => hik (h.shape.inj hi hk heq), keys]
    have hresult : Consistent s' g' ∧ Retimed s (g k) (-1) s' := by
      refine h.retimed htime (.inr rfl) (fun t' hin => ?_) hrem.shape hrem.frame hrem.ordered
        fun t' => ?_
      · rw [modify_elapses_elapsedData]
        obtain ⟨i, hi, rfl⟩ : InHeap g s.len t' := hin.elim id fun heq => ⟨k, hk, heq.symm⟩
        exact h.clear i hi
      · rw [hrem.same]
        split_ifs with ht
        · simp [ht]
        · exact and_iff_left ht
    refine ⟨s', g', ?_, hresult.1, hresult.2, fun _ => hrem.len⟩
    rw [if_pos ht]
    dsimp only
    rw [hplace, if_neg (by omega), Int.toNat_natCast, hshape.heapSlot hk, ok_bind,
      if_neg (not_not.mpr rfl), hdelete]
  · refine ⟨s, g, if_neg ht, h, fun t' => ?_, fun hpos => absurd hpos ht⟩
    split
    · subst t'
      exact h.inactive t fun hin => ht ((h.inHeap_iff t).mp hin)
    · rfl

theorem breakLoop_ok [DecidableEq δ] (rounds : ℕ) (h : Consistent s g) (hlen : s.len ≤ rounds) :
    ∃ ret s' g', breakLoop rounds s = .ok (ret, s') ∧ Consistent s' g' ∧ s'.len = 0 ∧
      ret.Nodup ∧ ∀ t, t ∈ ret ↔ 0 < (s.timers t).elapses := by
  induction rounds generalizing s g with
  | zero =>
    have hzero : s.len = 0 := by omega
    refine ⟨[], s, g, if_neg (by omega), h, hzero, nodup_nil, fun t => ?_⟩
    exact iff_of_false not_mem_nil (h.none_active hzero t)
  | succ rounds ih =>
    rw [breakLoop]
    by_cases hpos : s.len > 0
    · have hactive := h.active 0 hpos
      obtain ⟨s₁, g₁, hdeact, h₁, htime, hshort⟩ := deactivate_ok h (g 0)
      have hclear := cleared_abortElapsed s₁ (g 0)
      have hlen₂ := hclear.len
      obtain ⟨ret, s', g', hloop, h', hzero, hnodup, hmem⟩ :=
        ih (hclear.consistent h₁) (by omega)
      have hret : ∀ t, t ∈ ret ↔ t ≠ g 0 ∧ 0 < (s.timers t).elapses := by
        intro t
        rw [hmem, hclear.elapses, htime]
        split
        · exact iff_of_false (by omega) fun hne => hne.1 ‹_›
        · exact ⟨fun hlt => ⟨‹_›, hlt⟩, And.right⟩
      refine ⟨g 0 :: ret, s', g', ?_, h', hzero, ?_, fun t => ?_⟩
      · rw [if_pos hpos, h.shape.heapSlot hpos, ok_bind, hdeact, ok_bind, hloop]
        rfl
      · exact nodup_cons.mpr ⟨fun hin => ((hret _).mp hin).1 rfl, hnodup⟩
      · rw [mem_cons, hret]
        constructor
        · rintro (rfl | ⟨-, hlt⟩)
          · exact hactive
          · exact hlt
        · intro hlt
          by_cases ht : t = g 0
          · exact Or.inl ht
          · exact Or.inr ⟨ht, hlt⟩
    · have hzero : s.len = 0 := by omega
      refine ⟨[], s, g, if_neg hpos, h, hzero, nodup_nil, fun t => ?_⟩
      exact iff_of_false not_mem_nil (h.none_active hzero t)

/-- What the timers `fired` append to the output list `out`. -/
def produced (s : Timerset τ δ) (out : ℕ) (fired : List τ) : List (Option δ) :=
  (fired.filter fun t => (s.timers t).output = some out).map fun t => (s.timers t).data

/-- What the timers `fired` hand to their callbacks. -/
def calledWith (s : Timerset τ δ) (fired : List τ) : List (Option δ) :=
  (fired.filter fun t => (s.timers t).callback).map fun t => (s.timers t).data

/-- One timer has elapsed: it is not active any more, its data has been handed on, and nothing else
has changed but places in the heap. -/
structure Elapsed (s : Timerset τ δ) (t : τ) (s' : Timerset τ δ) : Prop where
  elapses : Retimed s t (-1) s'
  kept : ∀ x, (s'.timers x).output = (s.timers x).output ∧
    (s'.timers x).callback = (s.timers x).callback ∧ (s'.timers x).data = (s.timers x).data
  outputs : ∀ out, s'.outputs out = s.outputs out ++ produced s out [t]
  calls : s'.calls = s.calls ++ calledWith s [t]

theorem elapseTimer_ok (h : (s.timers t).elapsedData = none) :
    ∃ s', elapseTimer s t = .ok s' ∧ s'.tab = s.tab ∧ s'.len = s.len ∧
      s'.timers = (s.modify t fun x => { x with elapsedData := x.data, elapses := -1 }).timers ∧
      (∀ out, s'.outputs out = s.outputs out ++ produced s out [t]) ∧
      s'.calls = s.calls ++ calledWith s [t] := by
  rw [elapseTimer, h, Option.isSome_none]
  refine ⟨_, rfl, ?_⟩
  have hnone : (s.timers t).output = none → ∀ out, produced s out [t] = [] := by
    intro hout out
    simp [produced, hout]
  have hsome : ∀ o, (s.timers t).output = some o → ∀ out, s.outputs out ++ produced s out [t] =
      Function.update s.outputs o (s.outputs o ++ [(s.timers t).data]) out := by
    intro o hout out
    by_cases heq : out = o
    · subst heq
      simp [produced, hout]
    · rw [Function.update_of_ne heq]
      simp [produced, hout, Ne.symm heq]
  cases hout : (s.timers t).output with
  | none =>
    cases hcall : (s.timers t).callback with
    | false => exact ⟨rfl, rfl, rfl, fun out => by simp [hnone hout, Timerset.modify],
        by simp [calledWith, hcall, Timerset.modify]⟩
    | true => exact ⟨rfl, rfl, rfl, fun out => by simp [hnone hout, Timerset.modify],
        by simp [calledWith, hcall, Timerset.modify]⟩
  | some o =>
    cases hcall : (s.timers t).callback with
    | false => exact ⟨rfl, rfl, rfl, fun out => (hsome o hout out).symm,
        by simp [calledWith, hcall, Timerset.modify]⟩
    | true => exact ⟨rfl, rfl, rfl, fun out => (hsome o hout out).symm,
        by simp [calledWith, hcall, Timerset.modify]⟩

omit [DecidableEq τ] in
theorem produced_congr (fired : List τ)
    (h : ∀ x, (s'.timers x).output = (s.timers x).output ∧
      (s'.timers x).callback = (s.timers x).callback ∧ (s'.timers x).data = (s.timers x).data) :
    (∀ out, produced s' out fired = produced s out fired) ∧
      calledWith s' fired = calledWith s fired := by
  have hout : ∀ x, (s'.timers x).output = (s.timers x).output := fun x => (h x).1
  have hcall : ∀ x, (s'.timers x).callback = (s.timers x).callback := fun x => (h x).2.1
  have hdata : ∀ x, (s'.timers x).data = (s.timers x).data := fun x => (h x).2.2
  constructor
  · intro out
    simp only [produced, hout, hdata]
  · simp only [calledWith, hcall, hdata]

theorem expireTop_ok (h : Consistent s g) (hpos : 0 < s.len) :
    ∃ s₁ s' g', heapDelete s 0 = .ok s₁ ∧ elapseTimer s₁ (g 0) = .ok s' ∧ Consistent s' g' ∧
      Elapsed s (g 0) s' ∧ s'.len + 1 = s.len := by
  obtain ⟨s₁, g', hdelete, hrem⟩ := heapDelete_ok h.shape hpos h.ordered fun _ _ _ => rfl
  have hnone : (s₁.timers (g 0)).elapsedData = none :=
    (hrem.frame.elapsedData _).trans (h.clear 0 hpos)
  obtain ⟨s', helapse, htab, hlen, htimers, houtputs, hcalls⟩ := elapseTimer_ok hnone
  have hself : s'.timers (g 0) =
      { s₁.timers (g 0) with elapsedData := (s₁.timers (g 0)).data, elapses := -1 } := by
    rw [htimers, modify_self]
  have hother : ∀ t, t ≠ g 0 → s'.timers t = s₁.timers t := by
    intro t ht
    rw [htimers, modify_of_ne ht]
  have hindex : ∀ t, (s'.timers t).index = (s₁.timers t).index := by
    intro t
    by_cases ht : t = g 0
    · rw [ht, hself]
    · rw [hother t ht]
  have htime : Retimed s (g 0) (-1) s' := by
    intro t
    split
    · subst t
      rw [hself]
    · rw [hother t ‹_›, hrem.frame.elapses]
  have hremain : ∀ i, i < s'.len → InHeap g s.len (g' i) ∧ g' i ≠ g 0 := fun i hi =>
    (hrem.same (g' i)).mp ⟨i, by omega, rfl⟩
  have hkeys : ∀ i, i < s'.len → keys s' g' i = keys s g' i := by
    intro i hi
    rw [keys, htime, if_neg (hremain i hi).2, keys]
  have hcons : Consistent s' g' := by
    refine ⟨hrem.shape.congr htab hlen hindex, fun i hlo hi => ?_, fun i hi => ?_, fun i hi => ?_,
      fun t ht => ?_⟩
    · rw [hkeys i hi, hkeys (i / 2) (by omega)]
      exact hrem.ordered i hlo (by omega)
    · rw [htime, if_neg (hremain i hi).2]
      exact (h.inHeap_iff _).mp (hremain i hi).1
    · obtain ⟨⟨j, hj, hgj⟩, hne⟩ := hremain i hi
      rw [hother _ hne, hrem.frame.elapsedData, ← hgj]
      exact h.clear j hj
    · rw [htime]
      split
      · rfl
      · refine h.inactive t fun hin => ht ?_
        rw [hlen]
        exact (hrem.same t).mpr ⟨hin, ‹_›⟩
  have hframe : ∀ x, (s₁.timers x).output = (s.timers x).output ∧
      (s₁.timers x).callback = (s.timers x).callback ∧ (s₁.timers x).data = (s.timers x).data := by
    intro x
    rw [hrem.frame.timer x]
    exact ⟨rfl, rfl, rfl⟩
  have hkept : ∀ x, (s'.timers x).output = (s.timers x).output ∧
      (s'.timers x).callback = (s.timers x).callback ∧ (s'.timers x).data = (s.timers x).data := by
    intro x
    by_cases hx : x = g 0
    · rw [hx, hself]
      exact hframe (g 0)
    · rw [hother x hx]
      exact hframe x
  have helapsed : Elapsed s (g 0) s' := by
    obtain ⟨hproduced, hcalled⟩ := produced_congr [g 0] hframe
    refine ⟨htime, hkept, fun out => ?_, ?_⟩
    · rw [houtputs, hrem.frame.outputs, hproduced]
    · rw [hcalls, hrem.frame.calls, hcalled]
  exact ⟨s₁, s', g', hdelete, helapse, hcons, helapsed, by rw [hlen]; exact hrem.len⟩

/-- **A pass fires the timers that are due**, each of them once, and no others: the data of each is
appended to its output list and handed to its callback, in the order of firing, and nothing else
comes into a list or to a callback. -/
structure Fires (s : Timerset τ δ) (now : ℤ) (fired : List τ) (s' : Timerset τ δ) : Prop where
  once : fired.Nodup
  due : ∀ t, t ∈ fired ↔ 0 < (s.timers t).elapses ∧ (s.timers t).elapses ≤ now
  elapses : ∀ t, (s'.timers t).elapses = if t ∈ fired then -1 else (s.timers t).elapses
  outputs : ∀ out, s'.outputs out = s.outputs out ++ produced s out fired
  calls : s'.calls = s.calls ++ calledWith s fired

theorem fires_nil {now : ℤ} (h : ∀ t, 0 < (s.timers t).elapses → now < (s.timers t).elapses) :
    Fires s now [] s where
  once := nodup_nil
  due t := iff_of_false not_mem_nil fun hdue => by
    have := h t hdue.1
    omega
  elapses t := (if_neg not_mem_nil).symm
  outputs out := (append_nil _).symm
  calls := (append_nil _).symm

theorem Fires.cons {now : ℤ} {fired : List τ} (hpos : 0 < (s.timers t).elapses)
    (hdue : (s.timers t).elapses ≤ now) (hfirst : Elapsed s t s') (h : Fires s' now fired s'') :
    Fires s now (t :: fired) s'' := by
  have htime := hfirst.elapses
  have happend : ∀ {β : Type} (p : τ → Bool) (f : τ → β),
      ((t :: fired).filter p).map f = ([t].filter p).map f ++ (fired.filter p).map f := by
    intro β p f
    rw [← map_append, ← filter_append, singleton_append]
  obtain ⟨hproduced, hcalled⟩ := produced_congr fired hfirst.kept
  have hmem : ∀ t', t' ∈ fired ↔
      t' ≠ t ∧ 0 < (s.timers t').elapses ∧ (s.timers t').elapses ≤ now := by
    intro t'
    rw [h.due, htime]
    split
    · exact iff_of_false (by omega) fun hne => hne.1 ‹_›
    · exact ⟨fun hlt => ⟨‹_›, hlt⟩, And.right⟩
  refine ⟨nodup_cons.mpr ⟨fun hin => ((hmem t).mp hin).1 rfl, h.once⟩, fun t' => ?_, fun t' => ?_,
    fun out => ?_, ?_⟩
  · rw [mem_cons, hmem]
    constructor
    · rintro (rfl | ⟨-, hlt⟩)
      · exact ⟨hpos, hdue⟩
      · exact hlt
    · intro hlt
      by_cases ht : t' = t
      · exact Or.inl ht
      · exact Or.inr ⟨ht, hlt⟩
  · rw [h.elapses, htime]
    by_cases ht : t' = t
    · rw [if_pos ht, if_pos (mem_cons.mpr (Or.inl ht)), ite_self]
    · simp only [mem_cons, ht, false_or, if_false]
  · rw [h.outputs, hfirst.outputs, hproduced, append_assoc]
    exact congrArg _ (happend _ _).symm
  · rw [h.calls, hfirst.calls, hcalled, append_assoc]
    exact congrArg _ (happend _ _).symm

theorem expireLoop_ok (now : ℤ) (rounds : ℕ) (h : Consistent s g) (hlen : s.len < rounds) :
    ∃ fired s' g', expireLoop now rounds s = .ok (fired, s') ∧ Consistent s' g' ∧
      Fires s now fired s' := by
  induction rounds generalizing s g with
  | zero => omega
  | succ rounds ih =>
    rw [expireLoop]
    by_cases hpos : s.len > 0
    · rw [if_pos hpos, h.shape.heapSlot hpos, ok_bind]
      by_cases hdue : (s.timers (g 0)).elapses ≤ now
      · obtain ⟨s₁, s₂, g₂, hdelete, helapse, h₂, htime, hshort⟩ := expireTop_ok h hpos
        obtain ⟨fired, s', g', hloop, h', hfires⟩ := ih h₂ (by omega)
        refine ⟨g 0 :: fired, s', g', ?_, h', hfires.cons (h.active 0 hpos) hdue htime⟩
        rw [if_pos hdue, hdelete, ok_bind, helapse, ok_bind, hloop]
        rfl
      · refine ⟨[], s, g, if_neg hdue, h, fires_nil fun t ht => ?_⟩
        obtain ⟨i, hi, rfl⟩ := (h.inHeap_iff t).mpr ht
        have htop : keys s g 0 ≤ keys s g i := by
          rcases Nat.eq_zero_or_pos i with rfl | hi'
          · exact le_rfl
          · exact h.ordered.top (by omega) i hi' hi
        simp only [keys] at htop
        omega
    · refine ⟨[], s, g, if_neg hpos, h, fires_nil fun t ht => ?_⟩
      exact absurd ht (h.none_active (by omega) t)

def gwTimersetCreate (output : τ → Option ℕ) (callback : τ → Bool) : Timerset τ δ where
  tab := [none]
  len := 0
  timers t := gwTimerCreate (output t) (callback t)
  outputs _ := []
  calls := []

omit [DecidableEq τ] in
theorem gwTimersetCreate_consistent (output : τ → Option ℕ) (callback : τ → Bool) (g : ℕ → τ) :
    Consistent (δ := δ) (gwTimersetCreate output callback) g where
  shape := ⟨Nat.zero_le _, fun _ hi => absurd hi (Nat.not_lt_zero _),
    fun _ hi => absurd hi (Nat.not_lt_zero _), fun _ _ => rfl⟩
  ordered _ _ hi := absurd hi (Nat.not_lt_zero _)
  active _ hi := absurd hi (Nat.not_lt_zero _)
  clear _ hi := absurd hi (Nat.not_lt_zero _)
  inactive _ _ := rfl

inductive TimerOp (τ δ : Type)
  | start (timer : τ) (interval now : ℤ) (data : Option δ)
  | elapsedStart (timer : τ) (interval now : ℤ) (data : Option δ)
  | stop (timer : τ)
  | elapsedStop (timer : τ)
  | breakAll
  | expire (now : ℤ)
  | consume (out : ℕ)

def timerStep [DecidableEq δ] (s : Timerset τ δ) : TimerOp τ δ → Except Failure (Timerset τ δ)
  | .start timer interval now data => do
    let (s, _) ← gwTimerStart s timer interval now data
    pure s
  | .elapsedStart timer interval now data => do
    let (s, _) ← gwTimerElapsedStart s timer interval now data
    pure s
  | .stop timer => gwTimerStop s timer
  | .elapsedStop timer => gwTimerElapsedStop s timer
  | .breakAll => do
    let (_, s) ← gwTimerBreak s
    pure s
  | .expire now => do
    let (_, s) ← watchTimers s now
    pure s
  | .consume out => pure { s with outputs := Function.update s.outputs out (s.outputs out).tail }

def runTimers [DecidableEq δ] : Timerset τ δ → List (TimerOp τ δ) → Except Failure (Timerset τ δ)
  | s, [] => pure s
  | s, op :: ops => do
    let s ← timerStep s op
    runTimers s ops

def TimerOp.Positive : TimerOp τ δ → Prop
  | .start _ interval now _ | .elapsedStart _ interval now _ => 0 < toInt (interval + now)
  | _ => True

theorem timerStep_ok [DecidableEq δ] (h : Consistent s g) (op : TimerOp τ δ)
    (hpos : op.Positive) : ∃ s' g', timerStep s op = .ok s' ∧ Consistent s' g' := by
  cases op with
  | start timer interval now data =>
    obtain ⟨s', wakeup, g', hrun, h', -⟩ := startTimer_ok cleared_abortElapsed h timer hpos data
    refine ⟨s', g', ?_, h'⟩
    rw [timerStep, gwTimerStart, hrun]
    rfl
  | elapsedStart timer interval now data =>
    obtain ⟨s', wakeup, g', hrun, h', -⟩ := startTimer_ok cleared_forgetElapsed h timer hpos data
    refine ⟨s', g', ?_, h'⟩
    rw [timerStep, gwTimerElapsedStart, hrun]
    rfl
  | stop timer =>
    obtain ⟨s', g', hrun, h', -⟩ := deactivate_ok h timer
    refine ⟨_, g', ?_, (cleared_abortElapsed s' timer).consistent h'⟩
    rw [timerStep, gwTimerStop, hrun, ok_bind, pure_eq_ok]
  | elapsedStop timer =>
    obtain ⟨s', g', hrun, h', -⟩ := deactivate_ok h timer
    refine ⟨_, g', ?_, (cleared_forgetElapsed s' timer).consistent h'⟩
    rw [timerStep, gwTimerElapsedStop, hrun, ok_bind, pure_eq_ok]
  | breakAll =>
    rw [timerStep, gwTimerBreak]
    by_cases hlen : s.len = 0
    · refine ⟨s, g, ?_, h⟩
      rw [if_pos hlen]
      rfl
    · obtain ⟨ret, s', g', hrun, h', -⟩ := breakLoop_ok s.len h le_rfl
      refine ⟨s', g', ?_, h'⟩
      rw [if_neg hlen, hrun]
      rfl
  | expire now =>
    obtain ⟨fired, s', g', hrun, h', -⟩ := expireLoop_ok now (s.len + 1) h (Nat.lt_succ_self _)
    refine ⟨s', g', ?_, h'⟩
    rw [timerStep, watchTimers, hrun]
    rfl
  | consume out =>
    exact ⟨_, g, rfl, h.congr rfl rfl (fun _ => rfl) (fun _ => rfl) fun _ hnone => hnone⟩

theorem runTimers_ok [DecidableEq δ] (ops : List (TimerOp τ δ)) (h : Consistent s g)
    (hpos : ∀ op ∈ ops, op.Positive) :
    ∃ s' g', runTimers s ops = .ok s' ∧ Consistent s' g' := by
  induction ops generalizing s g with
  | nil => exact ⟨s, g, rfl, h⟩
  | cons op ops ih =>
    obtain ⟨s₁, g₁, hstep, h₁⟩ := timerStep_ok h op (hpos op mem_cons_self)
    obtain ⟨s', g', hrun, h'⟩ := ih h₁ fun op' hop => hpos op' (mem_cons_of_mem _ hop)
    refine ⟨s', g', ?_, h'⟩
    rw [runTimers, hstep, ok_bind, hrun]

end calls

/-- **A consistent heap**: no timer elapses before its parent, every timer in a slot knows it,
the timers in the heap, with a place and active are the same, none twice, and the first elapses
first. -/
structure HeapConsistent (s : Timerset τ δ) : Prop where
  parent : ∀ i, i < s.len → ∃ t p, heapSlot s i = .ok t ∧ heapSlot s (i / 2) = .ok p ∧
    (s.timers p).elapses ≤ (s.timers t).elapses
  place : ∀ i t, i < s.len → heapSlot s i = .ok t → (s.timers t).index = i
  index_iff : ∀ t, 0 ≤ (s.timers t).index ↔ ∃ i, i < s.len ∧ heapSlot s i = .ok t
  active_iff : ∀ t, 0 < (s.timers t).elapses ↔ ∃ i, i < s.len ∧ heapSlot s i = .ok t
  once : ∀ i j, i < s.len → j < s.len → heapSlot s i = heapSlot s j → i = j
  first : ∀ t, 0 < (s.timers t).elapses →
    ∃ t₀, heapSlot s 0 = .ok t₀ ∧ (s.timers t₀).elapses ≤ (s.timers t).elapses

theorem HeapShape.slot_iff (h : HeapShape s g) (t : τ) :
    (∃ i, i < s.len ∧ GwTimer.heapSlot s i = .ok t) ↔ InHeap g s.len t := by
  constructor
  · rintro ⟨i, hi, hslot⟩
    rw [h.heapSlot hi] at hslot
    exact ⟨i, hi, Except.ok.inj hslot⟩
  · rintro ⟨i, hi, rfl⟩
    exact ⟨i, hi, h.heapSlot hi⟩

theorem Consistent.heapConsistent (h : Consistent s g) : HeapConsistent s where
  parent i hi := by
    refine ⟨g i, g (i / 2), h.shape.heapSlot hi, h.shape.heapSlot (by omega), ?_⟩
    rcases Nat.eq_zero_or_pos i with rfl | hpos
    · exact le_rfl
    · exact h.ordered i hpos hi
  place i t hi hslot := by
    rw [h.shape.heapSlot hi] at hslot
    rw [← Except.ok.inj hslot]
    exact h.shape.index i hi
  index_iff t := by
    rw [h.shape.slot_iff]
    constructor
    · intro hindex
      by_contra hnot
      rw [h.shape.outside t fun i hi heq => hnot ⟨i, hi, heq⟩] at hindex
      omega
    · rintro ⟨i, hi, rfl⟩
      rw [h.shape.index i hi]
      omega
  active_iff t := by rw [h.shape.slot_iff, h.inHeap_iff]
  once i j hi hj heq := by
    rw [h.shape.heapSlot hi, h.shape.heapSlot hj] at heq
    exact h.shape.inj hi hj (Except.ok.inj heq)
  first t ht := by
    obtain ⟨i, hi, rfl⟩ := (h.inHeap_iff t).mpr ht
    refine ⟨g 0, h.shape.heapSlot (by omega), ?_⟩
    rcases Nat.eq_zero_or_pos i with rfl | hpos
    · exact le_rfl
    · exact h.ordered.top (by omega) i hpos hi

/-- **Timer sets.**  After any calls and passes with positive times no assertion has failed, the
heap is consistent, and a pass fires the active timers that are due and no others. -/
theorem runTimers_heapConsistent [DecidableEq τ] [Inhabited τ] [DecidableEq δ]
    (output : τ → Option ℕ) (callback : τ → Bool) (ops : List (TimerOp τ δ))
    (hpos : ∀ op ∈ ops, op.Positive) :
    ∃ s, runTimers (gwTimersetCreate output callback) ops = .ok s ∧ HeapConsistent s ∧
      ∀ now, ∃ fired s', watchTimers s now = .ok (fired, s') ∧ Fires s now fired s' := by
  have h₀ := gwTimersetCreate_consistent (δ := δ) output callback fun _ => default
  obtain ⟨s, g, hrun, h⟩ := runTimers_ok ops h₀ hpos
  refine ⟨s, hrun, h.heapConsistent, fun now => ?_⟩
  obtain ⟨fired, s', g', hpass, -, hfires⟩ := expireLoop_ok now (s.len + 1) h (Nat.lt_succ_self _)
  exact ⟨fired, s', hpass, hfires⟩

theorem twoTimers_heapConsistent :
    ∃ s, runTimers (gwTimersetCreate (fun _ : ℕ => some 0) fun _ => false)
        [.start 0 30 1000 (some 7), .start 1 20 1000 (some 8), .elapsedStart 0 10 1005 none,
          .stop 1, .expire 1015] = .ok s ∧ HeapConsistent s ∧
      ∀ now, ∃ fired s', watchTimers s now = .ok (fired, s') ∧ Fires s now fired s' :=
  runTimers_heapConsistent (fun _ => some 0) (fun _ => false) _ (by
    intro op hop
    simp only [mem_cons, not_mem_nil, or_false] at hop
    rcases hop with rfl | rfl | rfl | rfl | rfl <;> simp only [TimerOp.Positive] <;> decide)

end GwTimer
end Kannel
