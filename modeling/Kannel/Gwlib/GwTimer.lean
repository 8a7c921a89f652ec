import Kannel.Gwlib.Octstr
import Kannel.Lib.HalvingHeap

/-!
# Timer sets

The active timers of a set are in a heap whose element `i` hangs below `i / 2`, counted from 0 on:
the top hangs below itself, and element 1 is its only other child.  `heap_adjust` moves one timer up
or down until it is in order with its neighbours, `heap_insert` and `heap_delete` put one at the end
or take one out and then adjust.

The set is locked during a call and while timers fire, so that each call of `gw-timer.c` and each
pass of the timer thread is one step.  The lemmas about the heap use the order of `HalvingHeap`;
what the calls keep is in `GwTimerRun`.
-/

namespace Kannel

namespace GwTimer
open HalvingHeap
variable {τ δ : Type}

/-- A timer: where its data goes when it elapses, when that is (negative for a timer that is not
active), the data that has been handed on and may still wait there, and its slot in the heap. -/
structure Timer (δ : Type) where
  output : Option ℕ
  callback : Bool
  elapses : ℤ
  data : Option δ
  elapsedData : Option δ
  index : ℤ

def gwTimerCreate (output : Option ℕ) (callback : Bool) : Timer δ where
  output := output
  callback := callback
  elapses := -1
  data := none
  elapsedData := none
  index := -1

/-- A timer set with all its timers, the output lists and what callbacks have been called with. -/
structure Timerset (τ δ : Type) where
  tab : List (Option τ)
  len : ℕ
  timers : τ → Timer δ
  outputs : ℕ → List (Option δ)
  calls : List (Option δ)

/-- The timer in a slot; reading outside the table, or an unused slot, is a failure. -/
def heapSlot (s : Timerset τ δ) (i : ℕ) : Except Failure τ :=
  match s.tab[i]? with
  | some (some t) => .ok t
  | _ => .error .outside

section model
variable [DecidableEq τ]

def Timerset.modify (s : Timerset τ δ) (t : τ) (f : Timer δ → Timer δ) : Timerset τ δ :=
  { s with timers := Function.update s.timers t (f (s.timers t)) }

/-- `heap_swap`: both slots and both timers' own indices. -/
def heapSwap (s : Timerset τ δ) (index1 index2 : ℕ) : Except Failure (Timerset τ δ) :=
  if ¬ (index1 < s.len ∧ index2 < s.len) then .error .assertion
  else if index1 = index2 then pure s
  else do
    let t ← heapSlot s index1
    let t' ← heapSlot s index2
    let s := { s with tab := (s.tab.set index1 (some t')).set index2 (some t) }
    let s := s.modify t' fun t => { t with index := index1 }
    pure (s.modify t fun t => { t with index := index2 })

/-- The loop of `heap_adjust` that moves a timer towards the top; whether it gets there is what
`heap_adjust` returns. -/
def adjustUp (t : τ) : ℕ → Timerset τ δ → ℕ → Except Failure (Timerset τ δ × Bool)
  | 0, _, _ => .error .outside
  | rounds + 1, s, index => do
    let s ← heapSwap s index (index / 2)
    let parent ← heapSlot s (index / 2 / 2)
    if (s.timers t).elapses < (s.timers parent).elapses then adjustUp t rounds s (index / 2)
    else pure (s, index / 2 = 0)

/-- The other loop of `heap_adjust`: the timer changes places with the child that elapses first, as
long as that is before its own time. -/
def adjustDown (t : τ) : ℕ → Timerset τ δ → ℕ → Except Failure (Timerset τ δ)
  | 0, _, _ => .error .outside
  | rounds + 1, s, index =>
    if index * 2 ≥ s.len then pure s
    else if index * 2 = s.len - 1 then do
      let child ← heapSlot s (index * 2)
      if (s.timers child).elapses < (s.timers t).elapses then heapSwap s index (index * 2)
      else pure s
    else do
      let left ← heapSlot s (index * 2)
      let right ← heapSlot s (index * 2 + 1)
      let childIndex := if (s.timers right).elapses < (s.timers left).elapses
        then index * 2 + 1 else index * 2
      let child ← heapSlot s childIndex
      if (s.timers child).elapses < (s.timers t).elapses then do
        let s ← heapSwap s index childIndex
        adjustDown t rounds s childIndex
      else pure s

/-- `heap_adjust` puts the timer in slot `index`, the only one out of order, where it belongs. -/
def heapAdjust (s : Timerset τ δ) (index : ℤ) : Except Failure (Timerset τ δ × Bool) :=
  if ¬ (0 ≤ index ∧ index < s.len) then .error .assertion
  else do
    let t ← heapSlot s index.toNat
    let parent ← heapSlot s (index.toNat / 2)
    if (s.timers t).elapses < (s.timers parent).elapses then
      adjustUp t (s.len + 1) s index.toNat
    else do
      let s ← adjustDown t (s.len + 1) s index.toNat
      pure (s, false)

/-- `heap_delete` swaps the timer with the last one, cuts it off and adjusts what came in its
place. -/
def heapDelete (s : Timerset τ δ) (index : ℤ) : Except Failure (Timerset τ δ) :=
  if ¬ (0 ≤ index ∧ index < s.len) then .error .assertion
  else do
    let t ← heapSlot s index.toNat
    if (s.timers t).index ≠ index then .error .assertion
    else do
      let last := s.len - 1
      let s ← heapSwap s index.toNat last
      let gone ← heapSlot s last
      let s := s.modify gone fun t => { t with index := -1 }
      let s := { s with len := s.len - 1 }
      if index.toNat ≠ last then do
        let (s, _) ← heapAdjust s index
        pure s
      else pure s

/-- `tab` after it has been given room for one more timer. -/
def growTab (s : Timerset τ δ) : List (Option τ) :=
  s.tab ++ List.replicate (s.len + 1 - s.tab.length) none

def heapInsert (s : Timerset τ δ) (timer : τ) : Except Failure (Timerset τ δ) := do
  let s' := { s with tab := (growTab s).set s.len (some timer), len := s.len + 1 }
  let s' := s'.modify timer fun t => { t with index := s.len }
  let (s', _) ← heapAdjust s' s.len
  pure s'

/-- The data of a timer that has elapsed is not taken back. -/
def forgetElapsed (s : Timerset τ δ) (timer : τ) : Timerset τ δ :=
  s.modify timer fun t => { t with elapsedData := none }

def deleteEqual [DecidableEq δ] (s : Timerset τ δ) (out : ℕ) (d : δ) : Timerset τ δ :=
  { s with outputs := Function.update s.outputs out ((s.outputs out).filter (· ≠ some d)) }

/-- `abort_elapsed`: the data that still waits in the output list is taken out of it. -/
def abortElapsed [DecidableEq δ] (s : Timerset τ δ) (timer : τ) : Timerset τ δ :=
  match (s.timers timer).elapsedData with
  | none => s
  | some d =>
    let s := match (s.timers timer).output with
      | some out => deleteEqual s out d
      | none => s
    forgetElapsed s timer

def resetTimer (s : Timerset τ δ) (timer : τ) (elapses : ℤ) :
    Except Failure (Timerset τ δ × Bool) := do
  let wakeup := elapses < (s.timers timer).elapses ∧ (s.timers timer).index = 0
  let s := s.modify timer fun t => { t with elapses := elapses }
  if (s.timers timer).index < 0 then .error .assertion
  else do
    let found ← heapSlot s (s.timers timer).index.toNat
    if found ≠ timer then .error .assertion
    else do
      let (s, top) ← heapAdjust s (s.timers timer).index
      pure (s, decide wakeup || top)

def activateTimer (clear : Timerset τ δ → τ → Timerset τ δ) (s : Timerset τ δ) (timer : τ)
    (elapses : ℤ) : Except Failure (Timerset τ δ × Bool) := do
  let s := (clear s timer).modify timer fun t => { t with elapses := elapses }
  if (s.timers timer).index ≥ 0 then .error .assertion
  else do
    let s ← heapInsert s timer
    pure (s, decide ((s.timers timer).index = 0))

def setData (s : Timerset τ δ) (timer : τ) (data : Option δ) : Timerset τ δ :=
  match data with
  | some d => s.modify timer fun t => { t with data := some d }
  | none => s

/-- `gw_timer_start` and `gw_timer_elapsed_start`, which differ in what they do with data of
the time before. -/
def startTimer (clear : Timerset τ δ → τ → Timerset τ δ) (s : Timerset τ δ) (timer : τ)
    (elapses : ℤ) (data : Option δ) : Except Failure (Timerset τ δ × Bool) := do
  let (s, wakeup) ← (if (s.timers timer).elapses > 0 then resetTimer s timer elapses
    else activateTimer clear s timer elapses)
  pure (setData s timer data, wakeup)

def gwTimerStart [DecidableEq δ] (s : Timerset τ δ) (timer : τ) (interval now : ℤ)
    (data : Option δ) : Except Failure (Timerset τ δ × Bool) :=
  startTimer abortElapsed s timer (toInt (interval + now)) data

def gwTimerElapsedStart (s : Timerset τ δ) (timer : τ) (interval now : ℤ)
    (data : Option δ) : Except Failure (Timerset τ δ × Bool) :=
  startTimer forgetElapsed s timer (toInt (interval + now)) data

def deactivate (s : Timerset τ δ) (timer : τ) : Except Failure (Timerset τ δ) :=
  if (s.timers timer).elapses > 0 then do
    let s := s.modify timer fun t => { t with elapses := -1 }
    if (s.timers timer).index < 0 then .error .outside
    else do
      let found ← heapSlot s (s.timers timer).index.toNat
      if found ≠ timer then .error .assertion
      else heapDelete s (s.timers timer).index
  else pure s

def gwTimerStop [DecidableEq δ] (s : Timerset τ δ) (timer : τ) : Except Failure (Timerset τ δ) := do
  let s ← deactivate s timer
  pure (abortElapsed s timer)

def gwTimerElapsedStop (s : Timerset τ δ) (timer : τ) : Except Failure (Timerset τ δ) := do
  let s ← deactivate s timer
  pure (forgetElapsed s timer)

def breakLoop [DecidableEq δ] : ℕ → Timerset τ δ → Except Failure (List τ × Timerset τ δ)
  | 0, s => if s.len > 0 then .error .outside else pure ([], s)
  | rounds + 1, s =>
    if s.len > 0 then do
      let timer ← heapSlot s 0
      let s ← deactivate s timer
      let (ret, s) ← breakLoop rounds (abortElapsed s timer)
      pure (timer :: ret, s)
    else pure ([], s)

def gwTimerBreak [DecidableEq δ] (s : Timerset τ δ) :
    Except Failure (Option (List τ) × Timerset τ δ) :=
  if s.len = 0 then pure (none, s)
  else do
    let (ret, s) ← breakLoop s.len s
    pure (some ret, s)

/-- `elapse_timer`: the data goes to the output list and to the callback, if there are such. -/
def elapseTimer (s : Timerset τ δ) (timer : τ) : Except Failure (Timerset τ δ) :=
  if (s.timers timer).elapsedData.isSome then .error .assertion
  else
    let t := s.timers timer
    let s := s.modify timer fun t => { t with elapsedData := t.data, elapses := -1 }
    let s := match t.output with
      | some out => { s with outputs := Function.update s.outputs out (s.outputs out ++ [t.data]) }
      | none => s
    pure (if t.callback then { s with calls := s.calls ++ [t.data] } else s)

/-- One pass of `watch_timers`, with the timers that have fired. -/
def expireLoop (now : ℤ) : ℕ → Timerset τ δ → Except Failure (List τ × Timerset τ δ)
  | 0, _ => .error .outside
  | rounds + 1, s =>
    if s.len > 0 then do
      let timer ← heapSlot s 0
      if (s.timers timer).elapses ≤ now then do
        let s ← heapDelete s 0
        let s ← elapseTimer s timer
        let (fired, s) ← expireLoop now rounds s
        pure (timer :: fired, s)
      else pure ([], s)
    else pure ([], s)

def watchTimers (s : Timerset τ δ) (now : ℤ) : Except Failure (List τ × Timerset τ δ) :=
  expireLoop now (s.len + 1) s

end model

/-- The heap has the timers `g 0`, `g 1` and so on, all different, each with its own index. -/
structure HeapShape (s : Timerset τ δ) (g : ℕ → τ) : Prop where
  room : s.len ≤ s.tab.length
  slot : ∀ i, i < s.len → s.tab[i]? = some (some (g i))
  index : ∀ i, i < s.len → (s.timers (g i)).index = i
  outside : ∀ t, (∀ i, i < s.len → g i ≠ t) → (s.timers t).index = -1

def keys (s : Timerset τ δ) (g : ℕ → τ) (i : ℕ) : ℤ := (s.timers (g i)).elapses

/-- Nothing but the indices of timers has changed, apart from the table. -/
structure Frame (s s' : Timerset τ δ) : Prop where
  timer : ∀ t, s'.timers t = { s.timers t with index := (s'.timers t).index }
  outputs : s'.outputs = s.outputs
  calls : s'.calls = s.calls

variable {s s' s'' : Timerset τ δ} {g g' g'' : ℕ → τ} {i j k : ℕ}

theorem Frame.refl (s : Timerset τ δ) : Frame s s := ⟨fun _ => rfl, rfl, rfl⟩

theorem Frame.trans (h : Frame s s') (h' : Frame s' s'') : Frame s s'' where
  timer t := by rw [h'.timer t, h.timer t]
  outputs := h'.outputs.trans h.outputs
  calls := h'.calls.trans h.calls

theorem Frame.elapses (h : Frame s s') (t : τ) : (s'.timers t).elapses = (s.timers t).elapses := by
  rw [h.timer t]

theorem Frame.elapsedData (h : Frame s s') (t : τ) :
    (s'.timers t).elapsedData = (s.timers t).elapsedData := by
  rw [h.timer t]

theorem Frame.keys (h : Frame s s') (g : ℕ → τ) : keys s' g = keys s g :=
  funext fun i => h.elapses (g i)

theorem HeapShape.heapSlot (h : HeapShape s g) (hi : i < s.len) : heapSlot s i = .ok (g i) := by
  rw [GwTimer.heapSlot, h.slot i hi]

theorem HeapShape.inj (h : HeapShape s g) (hi : i < s.len) (hj : j < s.len) (heq : g i = g j) :
    i = j := by
  have hindex := h.index i hi
  rw [heq, h.index j hj] at hindex
  exact_mod_cast hindex.symm

theorem HeapShape.congr (h : HeapShape s g) (htab : s'.tab = s.tab) (hlen : s'.len = s.len)
    (hindex : ∀ t, (s'.timers t).index = (s.timers t).index) : HeapShape s' g where
  room := by
    rw [hlen, htab]
    exact h.room
  slot i hi := by
    rw [htab]
    exact h.slot i (by omega)
  index i hi := by
    rw [hindex]
    exact h.index i (by omega)
  outside t ht := by
    rw [hindex]
    exact h.outside t fun i hi => ht i (by omega)

def InHeap (g : ℕ → τ) (n : ℕ) (t : τ) : Prop := ∃ i, i < n ∧ g i = t

theorem inHeap_swapAt {n : ℕ} (hi : i < n) (hj : j < n) (t : τ) :
    InHeap (swapAt g i j) n t ↔ InHeap g n t := by
  have hswap : ∀ m, m < n → Equiv.swap i j m < n := by
    intro m hm
    by_cases hmi : m = i
    · rwa [hmi, Equiv.swap_apply_left]
    · by_cases hmj : m = j
      · rwa [hmj, Equiv.swap_apply_right]
      · rwa [Equiv.swap_apply_of_ne_of_ne hmi hmj]
  constructor
  · rintro ⟨m, hm, rfl⟩
    exact ⟨Equiv.swap i j m, hswap m hm, rfl⟩
  · rintro ⟨m, hm, rfl⟩
    refine ⟨Equiv.swap i j m, hswap m hm, ?_⟩
    rw [swapAt, Function.comp_apply, Equiv.swap_apply_self]

structure Adjusted (s : Timerset τ δ) (g : ℕ → τ) (s' : Timerset τ δ) (g' : ℕ → τ) : Prop where
  shape : HeapShape s' g'
  len : s'.len = s.len
  frame : Frame s s'
  ordered : Ordered (· ≤ ·) (keys s g') 0 s.len
  same : ∀ t, InHeap g' s.len t ↔ InHeap g s.len t

theorem Adjusted.of_swap (hi : i < s.len) (hj : j < s.len) (hframe : Frame s s')
    (hlen : s'.len = s.len) (h : Adjusted s' (swapAt g i j) s'' g'') : Adjusted s g s'' g'' where
  shape := h.shape
  len := h.len.trans hlen
  frame := hframe.trans h.frame
  ordered := by
    rw [← hframe.keys, ← hlen]
    exact h.ordered
  same t := by
    have hsame := h.same t
    rw [hlen] at hsame
    rw [hsame, inHeap_swapAt hi hj]

theorem Adjusted.refl (h : HeapShape s g) (hord : Ordered (· ≤ ·) (keys s g) 0 s.len) :
    Adjusted s g s g :=
  ⟨h, rfl, Frame.refl s, hord, fun _ => Iff.rfl⟩

section loops
variable [DecidableEq τ]

theorem modify_self (s : Timerset τ δ) (t : τ) (f : Timer δ → Timer δ) :
    (s.modify t f).timers t = f (s.timers t) := Function.update_self ..

theorem modify_of_ne {t t' : τ} (h : t' ≠ t) (s : Timerset τ δ) (f : Timer δ → Timer δ) :
    (s.modify t f).timers t' = s.timers t' := Function.update_of_ne h ..

theorem heapSwap_ok (h : HeapShape s g) (hi : i < s.len) (hj : j < s.len) :
    ∃ s', heapSwap s i j = .ok s' ∧ HeapShape s' (swapAt g i j) ∧ Frame s s' ∧ s'.len = s.len := by
  have hroom := h.room
  rw [heapSwap, if_neg (not_not.mpr ⟨hi, hj⟩)]
  by_cases hij : i = j
  · subst hij
    refine ⟨s, by rw [if_pos rfl]; rfl, ?_, Frame.refl s, rfl⟩
    rwa [swapAt, Equiv.swap_self, Equiv.coe_refl, Function.comp_id]
  · have hne : g i ≠ g j := fun heq => hij (h.inj hi hj heq)
    rw [if_neg hij, h.heapSlot hi, h.heapSlot hj]
    refine ⟨_, rfl, ⟨?_, ?_, ?_, ?_⟩, ⟨?_, rfl, rfl⟩, rfl⟩
    · simp only [Timerset.modify, List.length_set]
      exact hroom
    · intro m hm
      simp only [Timerset.modify] at hm ⊢
      by_cases hmj : m = j
      · rw [hmj, List.getElem?_set_self (by rw [List.length_set]; omega), swapAt_right]
      · rw [List.getElem?_set_ne (Ne.symm hmj)]
        by_cases hmi : m = i
        · rw [hmi, List.getElem?_set_self (by omega), swapAt_left]
        · rw [List.getElem?_set_ne (Ne.symm hmi), h.slot m hm, swapAt_of_ne g hmi hmj]
    · intro m hm
      by_cases hmj : m = j
      · rw [hmj, swapAt_right, modify_self]
      · by_cases hmi : m = i
        · rw [hmi, swapAt_left, modify_of_ne hne.symm, modify_self]
        · rw [swapAt_of_ne g hmi hmj, modify_of_ne fun heq => hmi (h.inj hm hi heq),
            modify_of_ne fun heq => hmj (h.inj hm hj heq)]
          exact h.index m hm
    · intro t ht
      have hout : ∀ m, m < s.len → g m ≠ t := by
        intro m hm heq
        obtain ⟨m', hm', heq'⟩ := (inHeap_swapAt (g := g) hi hj t).mpr ⟨m, hm, heq⟩
        exact ht m' hm' heq'
      rw [modify_of_ne (hout i hi).symm, modify_of_ne (hout j hj).symm]
      exact h.outside t hout
    · intro t
      by_cases hti : t = g i
      · rw [hti, modify_self, modify_of_ne hne]
      · rw [modify_of_ne hti]
        by_cases htj : t = g j
        · rw [htj, modify_self]
        · rw [modify_of_ne htj]

theorem pos_of_less {key : ℕ → ℤ} {i j : ℕ} (h : key i < key j) (hzero : i = 0 → j = 0) :
    0 < i := by
  by_contra hi
  obtain rfl : i = 0 := by omega
  rw [hzero rfl] at h
  exact lt_irrefl _ h

theorem adjustUp_ok {n rounds : ℕ} (hn : s.len = n) (h : HeapShape s g)
    (hrise : Rising (· ≤ ·) (keys s g) 0 n k) (hk : k < n) (hless : keys s g k < keys s g (k / 2))
    (hrounds : k < rounds) :
    ∃ s' top g', adjustUp (g k) rounds s k = .ok (s', top) ∧ Adjusted s g s' g' := by
  induction rounds generalizing k s g with
  | zero => omega
  | succ rounds ih =>
    have hpos := pos_of_less hless (by omega)
    have hhalf : k / 2 < s.len := by omega
    obtain ⟨s₁, hswap, hshape, hframe, hlen⟩ := heapSwap_ok h (by omega : k < s.len) hhalf
    have hkeys : keys s₁ (swapAt g k (k / 2)) = swapAt (keys s g) k (k / 2) :=
      hframe.keys _
    have hrise' := hrise.step hpos hless.le
    rw [← hkeys] at hrise'
    have hparent := hshape.heapSlot (by omega : k / 2 / 2 < s₁.len)
    rw [adjustUp, hswap, ok_bind, hparent]
    have htop : (s₁.timers (g k)).elapses = keys s₁ (swapAt g k (k / 2)) (k / 2) := by
      rw [keys, swapAt_right]
    rw [htop]
    by_cases hmore : keys s₁ (swapAt g k (k / 2)) (k / 2) < keys s₁ (swapAt g k (k / 2)) (k / 2 / 2)
    · obtain ⟨s', top, g', hloop, hadj⟩ :=
        ih (hlen.trans hn) hshape hrise' (by omega) hmore (by omega)
      rw [swapAt_right] at hloop
      refine ⟨s', top, g', ?_, hadj.of_swap (by omega) hhalf hframe hlen⟩
      rw [← hloop]
      exact if_pos hmore
    · have hord := hrise'.ordered fun _ => not_lt.mp hmore
      rw [← hlen.trans hn] at hord
      refine ⟨s₁, _, swapAt g k (k / 2), if_neg hmore, ?_⟩
      exact (Adjusted.refl hshape hord).of_swap (by omega) hhalf hframe hlen

theorem swap_sinking (h : HeapShape s g) (hsink : Sinking (· ≤ ·) (keys s g) 0 s.len k)
    (hk : k < s.len) {c : ℕ} (hc : 0 < c) (hlen : c < s.len) (hhalf : c / 2 = k)
    (hfirst : ∀ i, 0 < i → i < s.len → i / 2 = k → keys s g c ≤ keys s g i)
    (hdown : keys s g c < keys s g k) :
    ∃ s₁, heapSwap s k c = .ok s₁ ∧ HeapShape s₁ (swapAt g k c) ∧ Frame s s₁ ∧ s₁.len = s.len ∧
      Sinking (· ≤ ·) (keys s₁ (swapAt g k c)) 0 s.len c := by
  obtain ⟨s₁, hswap, hshape, hframe, hlen'⟩ := heapSwap_ok h hk hlen
  have hkeys : keys s₁ (swapAt g k c) = swapAt (keys s g) k c := hframe.keys _
  refine ⟨s₁, hswap, hshape, hframe, hlen', ?_⟩
  rw [hkeys]
  exact hsink.step hc hlen hhalf hfirst hdown.le

theorem adjustDown_ok {n rounds : ℕ} (hn : s.len = n) (h : HeapShape s g)
    (hsink : Sinking (· ≤ ·) (keys s g) 0 n k) (hk : k < n) (hrounds : n < rounds + k) :
    ∃ s' g', adjustDown (g k) rounds s k = .ok s' ∧ Adjusted s g s' g' := by
  induction rounds generalizing k s g with
  | zero => omega
  | succ rounds ih =>
    subst hn
    rw [adjustDown]
    by_cases hbottom : k * 2 ≥ s.len
    · refine ⟨s, g, if_pos hbottom, Adjusted.refl h (hsink.ordered fun i _ hi hhalf => ?_)⟩
      omega
    · have hleft := h.heapSlot (by omega : k * 2 < s.len)
      rw [if_neg hbottom]
      by_cases hone : k * 2 = s.len - 1
      · rw [if_pos hone, hleft]
        by_cases hless : keys s g (k * 2) < keys s g k
        · -- the only child; below it is nothing
          obtain ⟨s₁, hswap, hshape, hframe, hlen, hsink'⟩ :=
            swap_sinking h hsink hk (pos_of_less hless (by omega)) (by omega) (by omega)
              (fun i _ _ _ => by
                obtain rfl : i = k * 2 := by omega
                exact le_rfl) hless
          have hord := hsink'.ordered fun i _ _ _ => by omega
          rw [← hlen] at hord
          refine ⟨s₁, swapAt g k (k * 2), ?_, ?_⟩
          · rw [← hswap]
            exact if_pos hless
          · exact (Adjusted.refl hshape hord).of_swap hk (by omega) hframe hlen
        · refine ⟨s, g, if_neg hless, Adjusted.refl h (hsink.ordered fun i _ _ _ => ?_)⟩
          obtain rfl : i = k * 2 := by omega
          exact not_lt.mp hless
      · rw [if_neg hone, hleft, ok_bind, h.heapSlot (by omega : k * 2 + 1 < s.len), ok_bind]
        obtain ⟨c, hc, hcase, hfirst⟩ : ∃ c,
            c = (if (s.timers (g (k * 2 + 1))).elapses < (s.timers (g (k * 2))).elapses
              then k * 2 + 1 else k * 2) ∧ (c = k * 2 ∨ c = k * 2 + 1) ∧
            ∀ i, i < s.len → i / 2 = k → keys s g c ≤ keys s g i := by
          by_cases hright : (s.timers (g (k * 2 + 1))).elapses < (s.timers (g (k * 2))).elapses
          · refine ⟨k * 2 + 1, (if_pos hright).symm, Or.inr rfl, fun i _ _ => ?_⟩
            obtain rfl | rfl : i = k * 2 ∨ i = k * 2 + 1 := by omega
            · exact hright.le
            · exact le_rfl
          · refine ⟨k * 2, (if_neg hright).symm, Or.inl rfl, fun i _ _ => ?_⟩
            obtain rfl | rfl : i = k * 2 ∨ i = k * 2 + 1 := by omega
            · exact le_rfl
            · exact not_lt.mp hright
        rw [← hc]
        dsimp only
        rw [h.heapSlot (by omega : c < s.len)]
        by_cases hless : keys s g c < keys s g k
        · have hpos := pos_of_less hless (by omega)
          obtain ⟨s₁, hswap, hshape, hframe, hlen, hsink'⟩ :=
            swap_sinking h hsink hk hpos (by omega) (by omega) (fun i _ => hfirst i) hless
          obtain ⟨s', g', hloop, hadj⟩ := ih hlen hshape hsink' (by omega) (by omega)
          rw [swapAt_right] at hloop
          refine ⟨s', g', ?_, hadj.of_swap hk (by omega) hframe hlen⟩
          rw [hswap, ← hloop]
          exact if_pos hless
        · refine ⟨s, g, if_neg hless, Adjusted.refl h (hsink.ordered fun i _ hi hhalf => ?_)⟩
          exact (not_lt.mp hless).trans (hfirst i hi hhalf)

theorem heapAdjust_ok (h : HeapShape s g) (hloose : Loose (· ≤ ·) (keys s g) 0 s.len k)
    (hk : k < s.len) : ∃ s' top g', heapAdjust s k = .ok (s', top) ∧ Adjusted s g s' g' := by
  have hin : 0 ≤ (k : ℤ) ∧ (k : ℤ) < s.len := by omega
  rw [heapAdjust, if_neg (not_not.mpr hin), Int.toNat_natCast, h.heapSlot hk, ok_bind,
    h.heapSlot (by omega : k / 2 < s.len), ok_bind]
  by_cases hup : keys s g k < keys s g (k / 2)
  · have hpos := pos_of_less hup (by omega)
    obtain ⟨s', top, g', hloop, hadj⟩ :=
      adjustUp_ok rfl h (hloose.rising hpos hup.le) hk hup (Nat.lt_succ_of_lt hk)
    refine ⟨s', top, g', ?_, hadj⟩
    rw [← hloop]
    exact if_pos hup
  · have hsink : Sinking (· ≤ ·) (keys s g) 0 s.len k := ⟨hloose, fun _ => not_lt.mp hup⟩
    obtain ⟨s', g', hloop, hadj⟩ :=
      adjustDown_ok rfl h hsink hk (by omega : s.len < s.len + 1 + k)
    refine ⟨s', false, g', ?_, hadj⟩
    rw [if_neg (show ¬ (s.timers (g k)).elapses < (s.timers (g (k / 2))).elapses from hup), hloop,
      ok_bind, pure_eq_ok]

structure Removed (s : Timerset τ δ) (g : ℕ → τ) (k : ℕ) (s' : Timerset τ δ) (g' : ℕ → τ) :
    Prop where
  shape : HeapShape s' g'
  len : s'.len + 1 = s.len
  frame : Frame s s'
  ordered : Ordered (· ≤ ·) (keys s g') 0 s'.len
  same : ∀ t, InHeap g' s'.len t ↔ InHeap g s.len t ∧ t ≠ g k

theorem HeapShape.cutLast (h : HeapShape s g) {t : τ} {last : ℕ} (hlast : last + 1 = s.len)
    (ht : g last = t) :
    HeapShape { s.modify t fun t => { t with index := -1 } with len := last } g where
  room := by
    have hroom := h.room
    simp only [Timerset.modify]
    omega
  slot i hi := h.slot i (by simp only at hi; omega)
  index i hi := by
    simp only at hi
    have hne : g i ≠ t := by
      intro heq
      have := h.inj (by omega) (by omega : last < s.len) (heq.trans ht.symm)
      omega
    have hsame := modify_of_ne hne s fun t => { t with index := -1 }
    rw [hsame]
    exact h.index i (by omega)
  outside x hx := by
    by_cases hxt : x = t
    · rw [hxt]
      have hself := modify_self s t fun t => { t with index := -1 }
      rw [hself]
    · have hsame := modify_of_ne hxt s fun t => { t with index := -1 }
      rw [hsame]
      refine h.outside x fun i hi heq => ?_
      by_cases hil : i = last
      · rw [hil, ht] at heq
        exact hxt heq.symm
      · exact hx i (by simp only; omega) heq

omit [DecidableEq τ] in
theorem inHeap_cutLast (h : HeapShape s g) (hk : k < s.len) {last : ℕ}
    (hlast : last + 1 = s.len) (t : τ) :
    InHeap (swapAt g k last) last t ↔ InHeap g s.len t ∧ t ≠ g k := by
  have hll : last < s.len := by omega
  constructor
  · rintro ⟨i, hi, rfl⟩
    refine ⟨(inHeap_swapAt hk hll _).mp ⟨i, by omega, rfl⟩, ?_⟩
    by_cases hik : i = k
    · rw [hik, swapAt_left]
      intro heq
      have := h.inj hll hk heq
      omega
    · rw [swapAt_of_ne g hik (by omega)]
      intro heq
      exact hik (h.inj (by omega) hk heq)
  · rintro ⟨⟨i, hi, rfl⟩, hne⟩
    by_cases hil : i = last
    · subst hil
      refine ⟨k, ?_, swapAt_left g k i⟩
      by_contra hnot
      obtain rfl : k = i := by omega
      exact hne rfl
    · exact ⟨i, by omega, swapAt_of_ne g (fun heq => hne (by rw [heq])) hil⟩

theorem heapDelete_ok (h : HeapShape s g) (hk : k < s.len) {key : ℕ → ℤ}
    (hord : Ordered (· ≤ ·) key 0 s.len) (hsame : ∀ i, i < s.len → i ≠ k → keys s g i = key i) :
    ∃ s' g', heapDelete s k = .ok s' ∧ Removed s g k s' g' := by
  obtain ⟨last, hlast⟩ : ∃ last, last + 1 = s.len := ⟨s.len - 1, by omega⟩
  obtain ⟨s₁, hswap, hshape, hframe, hlen⟩ := heapSwap_ok h hk (by omega : last < s.len)
  have hgone : swapAt g k last last = g k := swapAt_right g k last
  let s₂ := { s₁.modify (g k) fun t => { t with index := -1 } with len := last }
  have hshape₂ : HeapShape s₂ (swapAt g k last) := hshape.cutLast (by omega) hgone
  have hframe₂ : Frame s s₂ := by
    refine hframe.trans ⟨fun t => ?_, rfl, rfl⟩
    by_cases ht : t = g k
    · rw [ht, modify_self]
    · rw [modify_of_ne ht]
  have hmembers := inHeap_cutLast h hk hlast
  have hin : 0 ≤ (k : ℤ) ∧ (k : ℤ) < s.len := by omega
  have hpred : s.len - 1 = last := by omega
  have hpred₁ : s₁.len - 1 = last := by omega
  have hindex : ¬ (s.timers (g k)).index ≠ (k : ℤ) := not_not.mpr (h.index k hk)
  have hother : ∀ i, i < last → i ≠ k → keys s₂ (swapAt g k last) i = key i := by
    intro i hi hik
    have hkeep := hsame i (by omega) hik
    rw [hframe₂.keys, keys, swapAt_of_ne g hik (by omega)]
    exact hkeep
  have hrun : heapDelete s k =
      (if k ≠ last then (do let (s, _) ← heapAdjust s₂ k; pure s) else pure s₂) := by
    rw [heapDelete, if_neg (not_not.mpr hin), Int.toNat_natCast, h.heapSlot hk, ok_bind,
      if_neg hindex]
    dsimp only
    rw [hpred, hswap, ok_bind, hshape.heapSlot (by omega), hgone]
    dsimp only [Timerset.modify]
    rw [hpred₁]
    rfl
  by_cases hkl : k = last
  · refine ⟨s₂, swapAt g k last, ?_, hshape₂, hlast, hframe₂, ?_, hmembers⟩
    · rw [hrun, if_neg (not_not.mpr hkl)]
      rfl
    · intro i hlo hi
      have hi' : i < last := hi
      rw [← hframe₂.keys, hother i hi' (by omega), hother (i / 2) (by omega) (by omega)]
      exact hord i hlo (by omega)
  · have hloose : Loose (· ≤ ·) (keys s₂ (swapAt g k last)) 0 s₂.len k :=
      hord.loose (by omega : last ≤ s.len) hk hother
    obtain ⟨s', top, g', hadjust, hadj⟩ := heapAdjust_ok hshape₂ hloose (by
      show k < last
      omega)
    refine ⟨s', g', ?_, hadj.shape, ?_, hframe₂.trans hadj.frame, ?_, ?_⟩
    · rw [hrun, if_pos hkl, hadjust]
      rfl
    · rw [hadj.len]
      exact hlast
    · rw [hadj.len, ← hframe₂.keys]
      exact hadj.ordered
    · intro t
      rw [hadj.len, hadj.same]
      exact hmembers t

structure Inserted (s : Timerset τ δ) (g : ℕ → τ) (t : τ) (s' : Timerset τ δ) (g' : ℕ → τ) :
    Prop where
  shape : HeapShape s' g'
  len : s'.len = s.len + 1
  frame : Frame s s'
  ordered : Ordered (· ≤ ·) (keys s g') 0 s'.len
  same : ∀ x, InHeap g' s'.len x ↔ InHeap g s.len x ∨ x = t

theorem heapInsert_ok (h : HeapShape s g) {t : τ} (hout : ∀ i, i < s.len → g i ≠ t)
    (hord : Ordered (· ≤ ·) (keys s g) 0 s.len) :
    ∃ s' g', heapInsert s t = .ok s' ∧ Inserted s g t s' g' := by
  have hroom := h.room
  let s₁ : Timerset τ δ := { s with tab := (growTab s).set s.len (some t), len := s.len + 1 }
  let s₂ := s₁.modify t fun t => { t with index := s.len }
  let g₁ : ℕ → τ := Function.update g s.len t
  have hold : ∀ i, i < s.len → g₁ i = g i := fun i hi => Function.update_of_ne (by omega) _ _
  have hnew : g₁ s.len = t := Function.update_self ..
  have hbig : s.len < (growTab s).length := by
    simp only [growTab, List.length_append, List.length_replicate]
    omega
  have hframe : Frame s s₂ := by
    refine ⟨fun x => ?_, rfl, rfl⟩
    by_cases hx : x = t
    · rw [hx, modify_self]
    · rw [modify_of_ne hx]
  have hshape : HeapShape s₂ g₁ := by
    refine ⟨?_, fun i hi => ?_, fun i hi => ?_, fun x hx => ?_⟩
    · simp only [s₂, s₁, Timerset.modify, List.length_set]
      exact hbig
    · have hi' : i < s.len + 1 := hi
      by_cases hlast : i = s.len
      · rw [hlast, hnew]
        exact List.getElem?_set_self hbig
      · rw [hold i (by omega)]
        simp only [s₂, s₁, Timerset.modify]
        rw [List.getElem?_set_ne (Ne.symm hlast), growTab, List.getElem?_append_left (by omega)]
        exact h.slot i (by omega)
    · have hi' : i < s.len + 1 := hi
      by_cases hlast : i = s.len
      · rw [hlast, hnew, modify_self]
      · rw [hold i (by omega), modify_of_ne (hout i (by omega))]
        exact h.index i (by omega)
    · have hne : x ≠ t := fun heq => hx s.len (Nat.lt_succ_self _) (hnew.trans heq.symm)
      rw [modify_of_ne hne]
      refine h.outside x fun i hi heq => hx i (Nat.lt_succ_of_lt hi) ?_
      rw [hold i hi, heq]
  have hmembers : ∀ x, InHeap g₁ (s.len + 1) x ↔ InHeap g s.len x ∨ x = t := by
    intro x
    constructor
    · rintro ⟨i, hi, rfl⟩
      by_cases hlast : i = s.len
      · exact Or.inr (by rw [hlast, hnew])
      · exact Or.inl ⟨i, by omega, (hold i (by omega)).symm⟩
    · rintro (⟨i, hi, rfl⟩ | rfl)
      · exact ⟨i, by omega, hold i hi⟩
      · exact ⟨s.len, by omega, hnew⟩
  have hrise : Rising (· ≤ ·) (keys s₂ g₁) 0 (s.len + 1) s.len := by
    refine hord.rising fun i hi => ?_
    rw [hframe.keys, keys, keys, hold i hi]
  obtain ⟨s', top, g', hadjust, hadj⟩ :=
    heapAdjust_ok hshape hrise.toLoose (Nat.lt_succ_self s.len)
  have hlen : s'.len = s.len + 1 := hadj.len
  refine ⟨s', g', ?_, hadj.shape, hlen, hframe.trans hadj.frame, ?_, ?_⟩
  · rw [heapInsert]
    rw [hadjust]
    rfl
  · rw [hlen, ← hframe.keys]
    exact hadj.ordered
  · intro x
    rw [hlen, ← hmembers x]
    exact hadj.same x

end loops
end GwTimer
end Kannel
