import Kannel.Gw.Concat
import Kannel.Gw.SplitSend

/-!
# The table of incoming parts

`concat_handling_clear_old_parts` hands the parts of an old entry over without the lock. What is
refused is put back, or moved to an entry made meanwhile, whose counter stays as it is.
-/

namespace Kannel
open List
open Machine

def Reason.takesPart : Reason → Bool
  | .failedRejected | .queued | .success => true
  | _ => false

def flushLoop (receive : Nat → Reason) : Nat → List (Option Sms) → List (Option Sms) × Nat × Bool
  | _, [] => ([], 0, true)
  | i, none :: parts =>
    let (left, gone, all) := flushLoop receive (i + 1) parts
    (none :: left, gone, all)
  | i, some part :: parts =>
    if (receive i).takesPart then
      let (left, gone, all) := flushLoop receive (i + 1) parts
      (none :: left, gone + 1, all)
    else (some part :: parts, 0, false)

variable (receive : Nat → Reason)

theorem length_flushLoop (i : Nat) (parts : List (Option Sms)) :
    (flushLoop receive i parts).1.length = parts.length := by
  induction parts generalizing i with
  | nil => rfl
  | cons part parts ih =>
    cases part with
    | none => simp [flushLoop, ih]
    | some part =>
      rw [flushLoop]
      split_ifs
      · simp [ih]
      · rfl

def ConcatMsg.flush (x : ConcatMsg) (receive : Nat → Reason) : ConcatMsg :=
  { x with
    numParts := x.numParts - (flushLoop receive 0 x.parts).2.1
    parts := (flushLoop receive 0 x.parts).1
    parts_len := by rw [length_flushLoop, x.parts_len] }

def ConcatMsg.flushed (x : ConcatMsg) (receive : Nat → Reason) : Bool :=
  (flushLoop receive 0 x.parts).2.2

def ConcatMsg.mergeInto (x x1 : ConcatMsg) (h : x.totalParts = x1.totalParts) : ConcatMsg :=
  { x1 with
    parts := List.zipWith Option.or x1.parts x.parts
    parts_len := by rw [length_zipWith, x.parts_len, x1.parts_len, h, Nat.min_self] }

def ConcatMsg.mergeLeft (x x1 : ConcatMsg) : List (Sms × AckStatus) :=
  ((List.zipWith (fun new old => if new.isSome then old else none)
    x1.parts x.parts).filterMap id).map
    fun part => (part, x.ack)

variable {size : Nat} [NeZero size]

def putBack (table : Dict ConcatMsg size) (x : ConcatMsg) :
    Dict ConcatMsg size × List (Sms × AckStatus) :=
  match dictGet table x.key with
  | some x1 =>
    if h : x.totalParts = x1.totalParts then
      (dictPut table x.key (some (x.mergeInto x1 h)), x.mergeLeft x1)
    else
      let key := x.key ++ 32 :: formatDecimal x.totalParts
      (dictPut table key (some { x with key := key }),
        ((dictGet table key).map destroyConcatMsg).getD [])
  | none => (dictPut table x.key (some x), [])

structure ConcatSystem (size : Nat) [NeZero size] where
  state : ConcatState size
  flushing : List ConcatMsg
  acked : List (Sms × AckStatus)

inductive ConcatAction
  | check (env : Surroundings) (storeSave : Sms → Bool) (msg : Sms) (smscid : Option Octstr)
  | expire (key : Octstr) (now : Nat) (force : Bool)
  | flush (i : Nat) (found : Bool) (receive : Nat → Reason)
  | shutdown

namespace ConcatSystem

def start (sizeHint : Nat) [NeZero (sizeHint * 2)] : ConcatSystem (sizeHint * 2) where
  state := ⟨true, some (dictCreate ConcatMsg sizeHint)⟩
  flushing := []
  acked := []

def finishFlush (s : ConcatSystem size) (table : Dict ConcatMsg size) (i : Nat) (x : ConcatMsg)
    (found : Bool) (receive : Nat → Reason) : ConcatSystem size :=
  if found = false then
    { s with flushing := s.flushing.eraseIdx i, acked := s.acked ++ destroyConcatMsg x }
  else if x.flushed receive then { s with flushing := s.flushing.eraseIdx i }
  else
    { state := { s.state with incomingConcatMsgs := some (putBack table (x.flush receive)).1 }
      flushing := s.flushing.eraseIdx i
      acked := s.acked ++ (putBack table (x.flush receive)).2 }

def step (concatenatedMoTimeout : Nat) (s : ConcatSystem size) :
    ConcatAction → Option (ConcatSystem size)
  | .check env storeSave msg smscid =>
    match concatHandlingCheckAndHandle env storeSave s.state msg smscid with
    | .ok (outcome, state) =>
      some { s with state := state, acked := s.acked ++ outcome.acked }
    | .error _ => none
  | .expire key now force => do
    let table ← s.state.incomingConcatMsgs
    let x ← dictGet table key
    if force = false ∧ (now : Int) - x.trecv < concatenatedMoTimeout then none
    else some { s with
      state := { s.state with incomingConcatMsgs := some (dictRemove table x.key).2 }
      flushing := s.flushing ++ [x] }
  | .flush i found receive => do
    let table ← s.state.incomingConcatMsgs
    let x ← s.flushing[i]?
    some (s.finishFlush table i x found receive)
  | .shutdown => some { s with state := { s.state with handleConcatenatedMo := false } }

end ConcatSystem

/-- The counter is the number of the parts, and some are missing. -/
def ConcatMsg.Tallies (cmsg : ConcatMsg) : Prop :=
  cmsg.numParts = cmsg.parts.countP Option.isSome ∧ cmsg.numParts < cmsg.totalParts

namespace ConcatSystem

def Tallies (s : ConcatSystem size) : Prop :=
  ∀ table, s.state.incomingConcatMsgs = some table →
    ∀ key cmsg, dictGet table key = some cmsg → cmsg.Tallies

def FailsToSave (s : ConcatSystem size) : ConcatAction → Prop
  | .check env storeSave msg smscid =>
    ∃ outcome state, concatHandlingCheckAndHandle env storeSave s.state msg smscid =
      .ok (outcome, state) ∧ outcome.ret = .error
  | _ => False

def MovesPart (s : ConcatSystem size) : ConcatAction → Prop
  | .flush i true receive =>
    ∃ table x x1, s.state.incomingConcatMsgs = some table ∧ s.flushing[i]? = some x ∧
      x.flushed receive = false ∧ dictGet table x.key = some x1 ∧
      x.totalParts = x1.totalParts ∧
      ∃ (k : Nat) (part : Sms),
        (x.flush receive).parts[k]? = some (some part) ∧ x1.parts[k]? = some none
  | _ => False

end ConcatSystem

theorem flushLoop_count (i : Nat) (parts : List (Option Sms)) :
    (flushLoop receive i parts).1.countP Option.isSome + (flushLoop receive i parts).2.1 =
      parts.countP Option.isSome := by
  induction parts generalizing i with
  | nil => rfl
  | cons part parts ih =>
    have hrest := ih (i + 1)
    cases part with
    | none => simpa [flushLoop] using hrest
    | some part =>
      rw [flushLoop]
      generalize flushLoop receive (i + 1) parts = rest at hrest ⊢
      obtain ⟨left, gone, all⟩ := rest
      split_ifs
      · simp only [countP_cons, Option.isSome_none, Option.isSome_some, if_true,
          Bool.false_eq_true, if_false] at hrest ⊢
        omega
      · simp

theorem ConcatMsg.Tallies.flush {x : ConcatMsg} (h : x.Tallies) (receive : Nat → Reason) :
    (x.flush receive).Tallies := by
  obtain ⟨hcount, hless⟩ := h
  have hflush := flushLoop_count receive 0 x.parts
  unfold ConcatMsg.Tallies ConcatMsg.flush
  dsimp only
  omega

theorem ConcatMsg.Tallies.new (info : ConcatInfo) (key smscid : Octstr) :
    (newConcatMsg info key smscid).Tallies := by
  have hpos := info.part_pos
  have hle := info.part_le
  refine ⟨?_, ?_⟩
  · simp [newConcatMsg, countP_replicate]
  · show (0 : Int) < info.totalParts
    omega

variable {cmsg : ConcatMsg}

theorem ConcatMsg.enter_count {part : Nat} (msg : Sms) (now : Nat)
    (hslot : cmsg.parts[part - 1]? = some none)
    (hcount : cmsg.numParts = cmsg.parts.countP Option.isSome) :
    (cmsg.enter part msg now).numParts = (cmsg.enter part msg now).parts.countP Option.isSome := by
  obtain ⟨hlt, hnone⟩ := List.getElem?_eq_some_iff.mp hslot
  have hset := countP_set (p := Option.isSome) (l := cmsg.parts) (a := some msg) hlt
  rw [hnone] at hset
  show cmsg.numParts + 1 = ((cmsg.parts.set (part - 1) (some msg)).countP Option.isSome : Int)
  rw [hset, hcount]
  simp

variable {new old : List (Option Sms)}

theorem zipWith_or_self (hlength : new.length = old.length)
    (h : ∀ (k : Nat) (part : Sms), old[k]? = some (some part) → new[k]? ≠ some none) :
    List.zipWith Option.or new old = new := by
  induction new generalizing old with
  | nil => simp
  | cons slot new ih =>
    obtain ⟨slot', old, rfl⟩ : ∃ slot' old', old = slot' :: old' :=
      exists_cons_of_length_eq_add_one hlength.symm
    rw [zipWith_cons_cons, ih (by simpa using hlength) fun k part hk => ?_]
    · cases slot with
      | some part => rfl
      | none =>
        cases slot' with
        | none => rfl
        | some part => exact absurd rfl (h 0 part rfl)
    · exact h (k + 1) part hk

theorem countP_or_lt (hlength : new.length = old.length) {k : Nat} {part : Sms}
    (hold : old[k]? = some (some part)) (hnew : new[k]? = some none) :
    new.countP Option.isSome < (List.zipWith Option.or new old).countP Option.isSome := by
  have hle : ∀ {new old : List (Option Sms)}, new.length = old.length →
      new.countP Option.isSome ≤ (List.zipWith Option.or new old).countP Option.isSome := by
    intro new
    induction new with
    | nil => simp
    | cons slot new ih =>
      intro old hlength
      obtain ⟨slot', old, rfl⟩ : ∃ slot' old', old = slot' :: old' :=
        exists_cons_of_length_eq_add_one hlength.symm
      have hrest := ih (show new.length = old.length by simpa using hlength)
      rw [zipWith_cons_cons, countP_cons, countP_cons]
      cases slot <;> simp <;> omega
  induction new generalizing old k with
  | nil => simp at hnew
  | cons slot new ih =>
    obtain ⟨slot', old, rfl⟩ : ∃ slot' old', old = slot' :: old' :=
      exists_cons_of_length_eq_add_one hlength.symm
    have hlength' : new.length = old.length := by simpa using hlength
    rw [zipWith_cons_cons, countP_cons, countP_cons]
    cases k with
    | zero =>
      simp only [List.getElem?_cons_zero, Option.some.injEq] at hold hnew
      subst hold hnew
      have hrest := hle hlength'
      simp
      omega
    | succ k =>
      have hrest := ih hlength' hold hnew
      cases slot <;> simp <;> omega

def EntriesOk (table : Dict ConcatMsg size) : Prop :=
  ∀ key cmsg, dictGet table key = some cmsg → cmsg.key = key ∧ cmsg.Tallies

variable {env : Surroundings} {msg : Sms} {outcome : ConcatOutcome} {storeSave : Sms → Bool}

section Table
variable {table table' : Dict ConcatMsg size}

theorem EntriesOk.put (h : EntriesOk table) {key : Octstr} (hkey : cmsg.key = key)
    (htallies : cmsg.Tallies) :
    EntriesOk (dictPut table key (some cmsg)) := by
  intro key' cmsg' hget
  rw [dictGet_dictPut] at hget
  split_ifs at hget with hsame
  · cases hget
    exact ⟨hkey.trans hsame.symm, htallies⟩
  · exact h key' cmsg' hget

theorem EntriesOk.remove (h : EntriesOk table) (key : Octstr) :
    EntriesOk (dictRemove table key).2 := by
  intro key' cmsg' hget
  rw [dictGet_dictRemove] at hget
  split_ifs at hget
  exact h key' cmsg' hget

variable {info : ConcatInfo} {smscid : Octstr}

theorem fileConcatPart_cases
    (h : fileConcatPart env storeSave table msg smscid info = .ok (outcome, table')) :
    (outcome.ret = .pending ∧ table' = table) ∨
      ∃ key cmsg, key = concatKey msg smscid info ∧
        cmsg = (dictGet table key).getD (newConcatMsg info key smscid) ∧
        cmsg.parts[info.part - 1]? = some none ∧
        (outcome.ret = .pending ∧ cmsg.numParts + 1 < cmsg.totalParts ∧
            table' = dictPut table key (some (cmsg.enter info.part msg env.now)) ∨
          outcome.ret = .complete ∧
            table' = dictPut (dictPut table key (some (cmsg.enter info.part msg env.now))) cmsg.key
              none ∨
          outcome.ret = .error ∧ cmsg.totalParts ≤ cmsg.numParts + 1 ∧
            table' = dictPut table key (some (cmsg.enter info.part msg env.now))) := by
  unfold fileConcatPart at h
  dsimp only at h
  generalize hkey : concatKey msg smscid info = key at h
  generalize hcmsg : (dictGet table key).getD (newConcatMsg info key smscid) = cmsg at h
  split at h
  · cases h
  · cases h
    exact .inl ⟨rfl, rfl⟩
  · rename_i hslot
    refine .inr ⟨key, cmsg, rfl, hcmsg.symm, hslot, ?_⟩
    have hnum : (cmsg.enter info.part msg env.now).numParts = cmsg.numParts + 1 := rfl
    have htotal : (cmsg.enter info.part msg env.now).totalParts = cmsg.totalParts := rfl
    rw [hnum, htotal] at h
    by_cases hless : cmsg.numParts + 1 < cmsg.totalParts
    · rw [if_pos hless] at h
      cases h
      exact .inl ⟨rfl, hless, rfl⟩
    · rw [if_neg hless] at h
      obtain ⟨joined, -, h⟩ := bind_eq_ok_iff.mp h
      by_cases hsave : storeSave (stamp env joined) = true
      · rw [if_pos hsave] at h
        cases h
        exact .inr (.inl ⟨rfl, rfl⟩)
      · rw [if_neg hsave] at h
        cases h
        exact .inr (.inr ⟨rfl, Int.not_lt.mp hless, rfl⟩)

theorem EntriesOk.entry (h : EntriesOk table) {key : Octstr} (info : ConcatInfo) (smscid : Octstr)
    (hcmsg : cmsg = (dictGet table key).getD (newConcatMsg info key smscid)) :
    cmsg.key = key ∧ cmsg.Tallies := by
  subst hcmsg
  cases hget : dictGet table key with
  | none => exact ⟨rfl, ConcatMsg.Tallies.new info key smscid⟩
  | some cmsg => exact h key cmsg hget

theorem EntriesOk.file (h : EntriesOk table) {env : Surroundings} {storeSave : Sms → Bool}
    {msg : Sms} {outcome : ConcatOutcome}
    (hfile : fileConcatPart env storeSave table msg smscid info = .ok (outcome, table'))
    (hret : outcome.ret ≠ .error) : EntriesOk table' := by
  rcases fileConcatPart_cases hfile with ⟨-, rfl⟩ | ⟨key, cmsg, -, hcmsg, hslot, hcases⟩
  · exact h
  obtain ⟨hkey, hcount, -⟩ := h.entry info smscid hcmsg
  have henter := ConcatMsg.enter_count msg env.now hslot hcount
  rcases hcases with ⟨-, hless, rfl⟩ | ⟨-, rfl⟩ | ⟨herror, -⟩
  · exact h.put hkey ⟨henter, hless⟩
  · intro key' cmsg' hget
    rw [dictPut, dictGet_dictRemove] at hget
    split_ifs at hget with hsame
    rw [dictGet_dictPut, if_neg (by rwa [← hkey])] at hget
    exact h key' cmsg' hget
  · exact absurd herror hret

theorem file_error
    (hfile : fileConcatPart env storeSave table msg smscid info = .ok (outcome, table'))
    (hret : outcome.ret = .error) :
    ∃ key cmsg, dictGet table' key = some cmsg ∧ ¬ cmsg.Tallies := by
  rcases fileConcatPart_cases hfile with ⟨hpending, -⟩ | ⟨key, cmsg, -, -, -, hcases⟩
  · rw [hret] at hpending
    cases hpending
  rcases hcases with ⟨hpending, -⟩ | ⟨hcomplete, -⟩ | ⟨-, hfull, rfl⟩
  · rw [hret] at hpending
    cases hpending
  · rw [hret] at hcomplete
    cases hcomplete
  · refine ⟨key, _, by rw [dictGet_dictPut, if_pos rfl], ?_⟩
    rintro ⟨-, hless⟩
    have hnum : (cmsg.enter info.part msg env.now).numParts = cmsg.numParts + 1 := rfl
    have htotal : (cmsg.enter info.part msg env.now).totalParts = cmsg.totalParts := rfl
    omega

theorem check_cases {state state' : ConcatState size} {smscid : Option Octstr}
    (h : concatHandlingCheckAndHandle env storeSave state msg smscid = .ok (outcome, state')) :
    (state' = state ∧ outcome.ret = .none) ∨
      ∃ table table' info smscid', state.incomingConcatMsgs = some table ∧
        fileConcatPart env storeSave table msg smscid' info = .ok (outcome, table') ∧
        state' = { state with incomingConcatMsgs := some table' } := by
  unfold concatHandlingCheckAndHandle at h
  split at h
  · rename_i table info smscid' htable hinfo
    split_ifs at h
    · obtain ⟨⟨outcome', table'⟩, hfile, h⟩ := bind_eq_ok_iff.mp h
      cases h
      exact .inr ⟨table, table', info, smscid', htable, hfile, rfl⟩
    · cases h
      exact .inl ⟨rfl, rfl⟩
  · cases h
    exact .inl ⟨rfl, rfl⟩

theorem EntriesOk.putBack (h : EntriesOk table) {x : ConcatMsg} (hx : x.Tallies)
    (hmoves : ∀ x1, dictGet table x.key = some x1 → x.totalParts = x1.totalParts →
      ∀ (k : Nat) (part : Sms), x.parts[k]? = some (some part) → x1.parts[k]? ≠ some none) :
    EntriesOk (putBack table x).1 := by
  unfold Kannel.putBack
  split
  · rename_i x1 hx1
    obtain ⟨hkey, htallies⟩ := h x.key x1 hx1
    split_ifs with htotal
    · have hlength : x1.parts.length = x.parts.length := by
        rw [x.parts_len, x1.parts_len, htotal]
      have hsame := zipWith_or_self hlength (hmoves x1 hx1 htotal)
      refine h.put hkey ?_
      unfold ConcatMsg.Tallies ConcatMsg.mergeInto
      dsimp only
      rw [hsame]
      exact htallies
    · exact h.put rfl hx
  · exact h.put rfl hx

theorem putBack_moves {x x1 : ConcatMsg} (h : EntriesOk table)
    (hx1 : dictGet table x.key = some x1) (htotal : x.totalParts = x1.totalParts) {k : Nat}
    {part : Sms} (hold : x.parts[k]? = some (some part)) (hnew : x1.parts[k]? = some none) :
    ∃ key cmsg, dictGet (putBack table x).1 key = some cmsg ∧ ¬ cmsg.Tallies := by
  have hlength : x1.parts.length = x.parts.length := by rw [x.parts_len, x1.parts_len, htotal]
  have hmore := countP_or_lt hlength hold hnew
  have hcount := (h x.key x1 hx1).2.1
  refine ⟨x.key, x.mergeInto x1 htotal, ?_, ?_⟩
  · unfold Kannel.putBack
    rw [hx1]
    dsimp only
    rw [dif_pos htotal, dictGet_dictPut, if_pos rfl]
  · rintro ⟨hmerged, -⟩
    unfold ConcatMsg.mergeInto at hmerged
    dsimp only at hmerged
    omega

end Table

namespace ConcatSystem

structure Inv (s : ConcatSystem size) : Prop where
  entries : ∀ table, s.state.incomingConcatMsgs = some table → EntriesOk table
  flushing : ∀ x ∈ s.flushing, x.Tallies

theorem Inv.tallies {s : ConcatSystem size} (h : s.Inv) : s.Tallies :=
  fun table htable key cmsg hget => (h.entries table htable key cmsg hget).2

theorem inv_start (sizeHint : Nat) [NeZero (sizeHint * 2)] : (start sizeHint).Inv := by
  refine ⟨?_, ?_⟩
  · rintro table htable key cmsg hget
    cases htable
    cases hget
  · intro x hx
    cases hx

section Steps
variable {timeout : Nat} {s s' : ConcatSystem size} {a : ConcatAction}

theorem step_inv (hinv : s.Inv) (hsave : ¬ s.FailsToSave a) (hmoves : ¬ s.MovesPart a)
    (h : s.step timeout a = some s') : s'.Inv := by
  cases a with
  | check env storeSave msg smscid =>
    simp only [step] at h
    split at h
    · rename_i outcome state hcheck
      cases h
      refine ⟨?_, hinv.flushing⟩
      rcases check_cases hcheck with ⟨rfl, -⟩ | ⟨table, table', info, smscid', htable, hfile, rfl⟩
      · exact hinv.entries
      · rintro table'' htable''
        cases htable''
        exact (hinv.entries table htable).file hfile fun hret =>
          hsave ⟨outcome, _, hcheck, hret⟩
    · cases h
  | expire key now force =>
    obtain ⟨table, x, htable, hx, h⟩ := of_bind_bind h
    obtain ⟨-, h⟩ := Option.ite_none_left_eq_some.mp h
    cases h
    have hentries := hinv.entries table htable
    refine ⟨?_, ?_⟩
    · rintro table' htable'
      cases htable'
      exact hentries.remove x.key
    · rw [forall_mem_append, forall_mem_singleton]
      exact ⟨hinv.flushing, (hentries key x hx).2⟩
  | flush i found receive =>
    obtain ⟨table, x, htable, hx, ⟨⟩⟩ := of_bind_bind h
    have hothers : ∀ y ∈ s.flushing.eraseIdx i, y.Tallies :=
      fun y hy => hinv.flushing y (mem_of_mem_eraseIdx hy)
    unfold finishFlush
    split_ifs with hfound hflushed
    · exact ⟨hinv.entries, hothers⟩
    · exact ⟨hinv.entries, hothers⟩
    · refine ⟨?_, hothers⟩
      rintro table' htable'
      cases htable'
      have hx' := (hinv.flushing x (mem_of_getElem? hx)).flush receive
      refine (hinv.entries table htable).putBack hx' ?_
      intro x1 hx1 htotal k part hold hnew
      obtain rfl : found = true := by simpa using hfound
      exact hmoves ⟨table, x, x1, htable, hx, by simpa using hflushed, hx1, htotal, k, part, hold,
        hnew⟩
  | shutdown =>
    cases h
    exact ⟨hinv.entries, hinv.flushing⟩

theorem step_failsToSave (hfails : s.FailsToSave a) (h : s.step timeout a = some s') :
    ¬ s'.Tallies := by
  cases a with
  | expire | flush | shutdown => cases hfails
  | check env storeSave msg smscid =>
    obtain ⟨outcome, state, hcheck, hret⟩ := hfails
    simp only [step, hcheck, Option.some.injEq] at h
    subst h
    intro htallies
    rcases check_cases hcheck with ⟨-, hnone⟩ | ⟨table, table', info, smscid', -, hfile, rfl⟩
    · rw [hret] at hnone
      cases hnone
    · obtain ⟨key, cmsg, hget, hnot⟩ := file_error hfile hret
      exact hnot (htallies table' rfl key cmsg hget)

theorem step_movesPart (hinv : s.Inv) (hmoves : s.MovesPart a) (h : s.step timeout a = some s') :
    ¬ s'.Tallies := by
  cases a with
  | check | expire | shutdown => cases hmoves
  | flush i found receive =>
    cases found with
    | false => cases hmoves
    | true =>
      obtain ⟨table, x, x1, htable, hx, hflushed, hx1, htotal, k, part, hold, hnew⟩ := hmoves
      obtain ⟨table', x', htable', hx', ⟨⟩⟩ := of_bind_bind h
      obtain rfl : table = table' := Option.some.inj (htable.symm.trans htable')
      obtain rfl : x = x' := Option.some.inj (hx.symm.trans hx')
      unfold finishFlush
      rw [if_neg (by decide), if_neg (by simp [hflushed])]
      intro htallies
      obtain ⟨key, cmsg, hget, hnot⟩ :=
        putBack_moves (x := x.flush receive) (hinv.entries table htable) hx1 htotal hold hnew
      exact hnot (htallies _ rfl key cmsg hget)

end Steps

/-- **The counters are right** throughout a run exactly if no joined message failed to be saved
and no refused part was moved to an entry made meanwhile. -/
theorem tallies_throughout_iff {sizeHint : Nat} [NeZero (sizeHint * 2)] {timeout : Nat}
    {s : ConcatSystem (sizeHint * 2)} {trace : List (ConcatSystem (sizeHint * 2) × ConcatAction)}
    (hrun : Run (step timeout) (start sizeHint) trace s) :
    ((∀ p ∈ trace, p.1.Tallies) ∧ s.Tallies) ↔
      ∀ p ∈ trace, ¬ p.1.FailsToSave p.2 ∧ ¬ p.1.MovesPart p.2 := by
  apply hrun.throughout_iff_of_invariant (I := Inv) (P := Tallies)
    (C := fun s a => ¬ s.FailsToSave a ∧ ¬ s.MovesPart a) (inv_start sizeHint)
  · exact fun s hinv => hinv.tallies
  · exact fun s a s' hinv hC h => step_inv hinv hC.1 hC.2 h
  · intro s a s' hinv hC h
    rw [not_and_or, not_not, not_not] at hC
    rcases hC with hfails | hmoves
    · exact step_failsToSave hfails h
    · exact step_movesPart hinv hmoves h

def partOfThree (part : UInt8) : Sms :=
  { smsCreate uuidClear with udhdata := some [5, 0, 3, 7, 3, part], msgdata := some [part] }

def comesIn (part : UInt8) : ConcatAction :=
  .check ⟨.random uuidClear, 0⟩ (fun _ => true) (partOfThree part) (some [115])

def keyOfThree : Octstr :=
  (((partOfThree 1).udhdata.bind concatInfo).map (concatKey (partOfThree 1) [115])).getD []

def handedOver : List ConcatAction :=
  [comesIn 1, .expire keyOfThree 0 true, .flush 0 true fun _ => .success, comesIn 2]

instance small_neZero : NeZero (1 * 2) := ⟨by decide⟩

theorem handedOver_tallies : ∃ trace s, Run (step 0) (start 1) trace s ∧ s.Tallies ∧
    ∃ table cmsg, s.state.incomingConcatMsgs = some table ∧
      dictGet table keyOfThree = some cmsg ∧ cmsg.numParts = 1 := by
  obtain ⟨trace, s, hrun, hsteps, table, htable, cmsg, hcmsg, hnum⟩ : ∃ trace s,
      Run (step 0) (start 1) trace s ∧
        (∀ p ∈ trace, (match p.2 with
          | .check env storeSave msg smscid =>
            match concatHandlingCheckAndHandle env storeSave p.1.state msg smscid with
            | .ok (outcome, _) => decide (outcome.ret ≠ .error)
            | .error _ => true
          | .flush i _ receive => p.1.flushing[i]?.all fun x => x.flushed receive
          | _ => true) = true) ∧
        ∃ table, s.state.incomingConcatMsgs = some table ∧
          ∃ cmsg, dictGet table keyOfThree = some cmsg ∧ cmsg.numParts = 1 :=
    exists_run handedOver (by decide +kernel)
  refine ⟨trace, s, hrun, ((tallies_throughout_iff hrun).mpr ?_).2, table, cmsg, htable,
    hcmsg, hnum⟩
  rintro ⟨s, a⟩ hp
  have hstep := hsteps _ hp
  cases a with
  | expire | shutdown => exact ⟨id, id⟩
  | check env storeSave msg smscid =>
    refine ⟨?_, id⟩
    rintro ⟨outcome, state, hcheck, hret⟩
    simp [hcheck, hret] at hstep
  | flush i found receive =>
    refine ⟨id, ?_⟩
    cases found with
    | false => exact id
    | true =>
      rintro ⟨table, x, x1, -, hx, hflushed, -⟩
      simp [hx, hflushed] at hstep

def refusedPart : List ConcatAction :=
  [comesIn 1, .expire keyOfThree 0 true, comesIn 2, .flush 0 true fun _ => .failedTemporarily]

/-- The entry has two parts and counts one. -/
theorem refusedPart_not_tallies : ∃ trace s, Run (step 0) (start 1) trace s ∧ ¬ s.Tallies ∧
    ∃ table cmsg, s.state.incomingConcatMsgs = some table ∧
      dictGet table keyOfThree = some cmsg ∧ cmsg.numParts = 1 ∧
      cmsg.parts = [some (partOfThree 1), some (partOfThree 2), none] := by
  obtain ⟨trace, s, hrun, table, htable, cmsg, hcmsg, hnum, hparts⟩ : ∃ trace s,
      Run (step 0) (start 1) trace s ∧ ∃ table, s.state.incomingConcatMsgs = some table ∧
        ∃ cmsg, dictGet table keyOfThree = some cmsg ∧ cmsg.numParts = 1 ∧
          cmsg.parts = [some (partOfThree 1), some (partOfThree 2), none] :=
    exists_run refusedPart (by decide +kernel)
  refine ⟨trace, s, hrun, ?_, table, cmsg, htable, hcmsg, hnum, hparts⟩
  intro htallies
  have hcount := (htallies table htable keyOfThree cmsg hcmsg).1
  rw [hnum, hparts] at hcount
  simp at hcount

end ConcatSystem
end Kannel
