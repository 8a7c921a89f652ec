import Kannel.Gw.Dlr
import Kannel.Lib.Machine

/-!
# Delivery reports in memory

`dlr_find` looks up and removes in two searches with a lock each, and each is a step here.
Entries carry a number that tells equal ones apart.
-/

namespace Kannel
open List
open Machine (Run)

def dlrMemEntryMatch (smsc ts : Octstr) (dst : Option Octstr) (dlr : DlrEntry) : Bool :=
  match dst with
  | some dst =>
    if dlr.destination.length < dst.length then false
    else
      dlr.smsc = smsc && dlr.timestamp = ts &&
        (octstrSearch dlr.destination dst (dlr.destination.length - dst.length)).isSome
  | none => dlr.smsc = smsc && dlr.timestamp = ts

def dlrMemAdd (waiting : List DlrEntry) (dlr : DlrEntry) : List DlrEntry := waiting ++ [dlr]

def dlrMemGet (waiting : List DlrEntry) (smsc ts : Octstr) (dst : Option Octstr) :
    Option DlrEntry :=
  (waiting.find? (dlrMemEntryMatch smsc ts dst)).map dlrEntryDuplicate

def dlrMemRemove (waiting : List DlrEntry) (smsc ts : Octstr) (dst : Option Octstr) :
    List DlrEntry :=
  waiting.eraseP (dlrMemEntryMatch smsc ts dst)

def dlrMemHandles : DlrStorage (List DlrEntry) where
  add := dlrMemAdd
  get := dlrMemGet
  remove := dlrMemRemove
  update := fun waiting _ _ _ _ => waiting

structure Stored where
  number : Nat
  entry : DlrEntry
  deriving DecidableEq

structure DlrCall where
  smsc : Octstr
  ts : Octstr
  dstMin : Option Octstr
  typ : Int
  number : Nat
  dlr : DlrEntry
  report : Option Sms
  report_typ : ∀ msg, report = some msg → msg.dlrMask = typ
  deriving DecidableEq

structure DlrState where
  waiting : List Stored
  next : Nat
  calls : List DlrCall
  reports : List (Nat × Sms)
  removals : List (Nat × Nat)
  deriving DecidableEq

def dlrStart : DlrState := ⟨[], 0, [], [], []⟩

inductive DlrAction where
  | add (smsc : Octstr) (ts : Option Octstr) (msg : Sms) (useDst : Bool)
  | find (smsc ts : Octstr) (dst : Option Octstr) (typ : Int) (useDst : Bool) (id : Uuid)
      (now : Int)
  | settle (call : Nat)

def Stored.matches (smsc ts : Octstr) (dst : Option Octstr) (e : Stored) : Bool :=
  dlrMemEntryMatch smsc ts dst e.entry

def addStep (s : DlrState) (smsc : Octstr) (ts : Option Octstr) (msg : Sms) (useDst : Bool) :
    DlrState :=
  match dlrEntryOf smsc ts msg useDst with
  | none => s
  | some dlr => { s with waiting := s.waiting ++ [⟨s.next, dlr⟩], next := s.next + 1 }

variable {c : DlrCall}

theorem dlrReport_dlrMask {dlr : DlrEntry} {ts : Octstr} {typ : Int} {id : Uuid} {now : Int}
    {msg : Sms} (h : dlrReport dlr ts typ id now = some msg) : msg.dlrMask = typ := by
  unfold dlrReport at h
  split at h
  · rw [← Option.some.inj h]
  · cases h

def callOf (smsc ts : Octstr) (dst : Option Octstr) (typ : Int) (useDst : Bool) (id : Uuid)
    (now : Int) (found : Stored) : DlrCall where
  smsc := smsc
  ts := ts
  dstMin := dlrDstMin dst useDst
  typ := typ
  number := found.number
  dlr := dlrEntryDuplicate found.entry
  report := dlrReport (dlrEntryDuplicate found.entry) ts typ id now
  report_typ := fun _ => dlrReport_dlrMask

def dlrLookup (s : DlrState) (smsc ts : Octstr) (dst : Option Octstr) (useDst : Bool) :
    Option Stored :=
  if smsc.length = 0 then none
  else s.waiting.find? (Stored.matches smsc ts (dlrDstMin dst useDst))

def DlrCall.reported (c : DlrCall) : List (Nat × Sms) :=
  match c.report with
  | none => []
  | some msg => [(c.number, msg)]

def startCall (s : DlrState) (c : DlrCall) : DlrState :=
  { s with calls := s.calls ++ [c], reports := s.reports ++ c.reported }

def DlrCall.target (c : DlrCall) (waiting : List Stored) : Option Stored :=
  waiting.find? (Stored.matches c.smsc c.ts c.dstMin)

def settleStep (s : DlrState) (k : Nat) (c : DlrCall) : DlrState :=
  if dlrStillWaiting c.typ c.dlr.mask then { s with calls := s.calls.eraseIdx k }
  else
    { s with
      calls := s.calls.eraseIdx k
      waiting := s.waiting.eraseP (Stored.matches c.smsc c.ts c.dstMin)
      removals := s.removals ++
        match c.target s.waiting with
        | none => []
        | some e => [(c.number, e.number)] }

def dlrStep (s : DlrState) : DlrAction → Option DlrState
  | .add smsc ts msg useDst => some (addStep s smsc ts msg useDst)
  | .find smsc ts dst typ useDst id now =>
    match dlrLookup s smsc ts dst useDst with
    | none => some s
    | some found => some (startCall s (callOf smsc ts dst typ useDst id now found))
  | .settle k => (s.calls[k]?).map (settleStep s k)

variable {α : Type} {l : List α}

section
variable {p q : α → Bool} {a b : α} (hb : l.find? q = some b)
include hb

theorem eraseP_split : ∃ as bs, l = as ++ b :: bs ∧ l.eraseP q = as ++ bs := by
  obtain ⟨hq, as, bs, rfl, has⟩ := List.find?_eq_some_iff_append.mp hb
  refine ⟨as, bs, rfl, ?_⟩
  rw [eraseP_append_right _ (by simpa using has), eraseP_cons_of_pos hq]

theorem find_eraseP_of_ne (ha : l.find? p = some a) (hne : b ≠ a) :
    (l.eraseP q).find? p = some a := by
  obtain ⟨as, bs, rfl, herase⟩ := eraseP_split hb
  rw [List.find?_append, List.find?_cons] at ha
  rw [herase, List.find?_append]
  cases hfirst : as.find? p <;> cases hp : p b <;> simp_all

theorem not_mem_eraseP (hl : l.Nodup) : b ∉ l.eraseP q := by
  obtain ⟨as, bs, rfl, herase⟩ := eraseP_split hb
  rw [herase]
  exact (nodup_cons.mp (nodup_middle.mp hl)).1

end

theorem eraseP_of_find_none {q : α → Bool} (h : l.find? q = none) : l.eraseP q = l := by
  apply eraseP_of_forall_not
  intro a ha
  exact List.find?_eq_none.mp h a ha

variable {k : Nat}

theorem mem_eraseIdx_of_ne {a b : α} (hk : l[k]? = some a) (hb : b ∈ l) (hne : b ≠ a) :
    b ∈ l.eraseIdx k := by
  obtain ⟨j, hj⟩ := mem_iff_getElem?.mp hb
  rw [mem_eraseIdx_iff_getElem?]
  refine ⟨j, ?_, hj⟩
  intro hjk
  rw [hjk, hk] at hj
  exact hne (Option.some.inj hj).symm

def DlrState.entries (s : DlrState) : List DlrEntry := s.waiting.map Stored.entry

theorem dlrFind_eq_steps (s : DlrState) (smsc ts : Octstr) (dst : Option Octstr) (typ : Int)
    (useDst : Bool) (id : Uuid) (now : Int) :
    dlrFind dlrMemHandles s.entries smsc ts dst typ useDst id now =
      match dlrLookup s smsc ts dst useDst with
      | none => (none, s.entries)
      | some found =>
        let c := callOf smsc ts dst typ useDst id now found
        (c.report, (settleStep (startCall s c) s.calls.length c).entries) := by
  unfold dlrFind dlrLookup
  by_cases hsmsc : smsc.length = 0
  · simp only [hsmsc, if_true]
  · have hget : dlrMemHandles.get s.entries smsc ts (dlrDstMin dst useDst) =
        (s.waiting.find? (Stored.matches smsc ts (dlrDstMin dst useDst))).map
          (fun e => dlrEntryDuplicate e.entry) := by
      simp only [dlrMemHandles, dlrMemGet, DlrState.entries, List.find?_map, Option.map_map]
      rfl
    simp only [hsmsc, if_false, hget]
    cases s.waiting.find? (Stored.matches smsc ts (dlrDstMin dst useDst)) with
    | none => rfl
    | some found =>
      simp only [Option.map_some]
      refine Prod.ext rfl ?_
      unfold dlrSettle settleStep
      by_cases hkeep : dlrStillWaiting typ (dlrEntryDuplicate found.entry).mask = true
      · simp only [callOf, hkeep, if_true]
        rfl
      · simp only [callOf, hkeep]
        exact eraseP_map ..

def FinalReport (msg : Sms) : Prop := dlrIsNotFinal msg.dlrMask = false

def DlrCall.Final (c : DlrCall) : Prop := ∃ msg, c.report = some msg ∧ FinalReport msg

theorem DlrCall.mem_reported {r : Nat × Sms} :
    r ∈ c.reported ↔ r.1 = c.number ∧ c.report = some r.2 := by
  obtain ⟨n, msg⟩ := r
  unfold DlrCall.reported
  cases hreport : c.report with
  | none => simp
  | some msg' => simp [eq_comm]

theorem DlrCall.Final.removes (h : c.Final) : dlrStillWaiting c.typ c.dlr.mask = false := by
  obtain ⟨msg, hreport, hfinal⟩ := h
  rw [FinalReport, c.report_typ msg hreport] at hfinal
  simp [dlrStillWaiting, hfinal]

structure DlrInv (s : DlrState) : Prop where
  distinct : ∀ e ∈ s.waiting, ∀ e' ∈ s.waiting, e.number = e'.number → e = e'
  nodup : s.waiting.Nodup
  freshEntry : ∀ e ∈ s.waiting, e.number < s.next
  freshCall : ∀ c ∈ s.calls, c.number < s.next
  freshReport : ∀ r ∈ s.reports, r.1 < s.next
  again : ∀ c ∈ s.calls, ∀ e ∈ s.waiting, e.number = c.number → c.target s.waiting = some e
  recorded : ∀ c ∈ s.calls, ∀ r ∈ c.reported, r ∈ s.reports
  held : ∀ r ∈ s.reports, FinalReport r.2 → ∀ e ∈ s.waiting, e.number = r.1 →
    ∃ c ∈ s.calls, c.number = r.1 ∧ c.Final

theorem dlrStart_inv : DlrInv dlrStart := by
  constructor <;> simp [dlrStart]

variable {s : DlrState}

theorem addStep_inv (h : DlrInv s) (smsc : Octstr) (ts : Option Octstr) (msg : Sms)
    (useDst : Bool) :
    DlrInv (addStep s smsc ts msg useDst) := by
  unfold addStep
  cases dlrEntryOf smsc ts msg useDst with
  | none => exact h
  | some dlr =>
    have hnew : ∀ e ∈ s.waiting, e.number ≠ s.next := fun e he => (h.freshEntry e he).ne
    constructor
    · intro e he e' he' heq
      rcases mem_append.mp he with he | he <;> rcases mem_append.mp he' with he' | he'
      · exact h.distinct e he e' he' heq
      · rw [mem_singleton] at he'
        subst he'
        exact absurd heq (hnew e he)
      · rw [mem_singleton] at he
        subst he
        exact absurd heq.symm (hnew e' he')
      · rw [mem_singleton] at he he'
        rw [he, he']
    · have hfresh : (⟨s.next, dlr⟩ : Stored) ∉ s.waiting := fun hmem => hnew _ hmem rfl
      have hconcat := h.nodup.concat hfresh
      rwa [concat_eq_append] at hconcat
    · intro e he
      rcases mem_append.mp he with he | he
      · exact Nat.lt_succ_of_lt (h.freshEntry e he)
      · rw [mem_singleton] at he
        subst he
        exact Nat.lt_succ_self _
    · intro c hc
      exact Nat.lt_succ_of_lt (h.freshCall c hc)
    · intro r hr
      exact Nat.lt_succ_of_lt (h.freshReport r hr)
    · intro c hc e he heq
      rcases mem_append.mp he with he | he
      · have hfound := h.again c hc e he heq
        unfold DlrCall.target at hfound ⊢
        rw [List.find?_append, hfound, Option.some_or]
      · rw [mem_singleton] at he
        subst he
        exact absurd heq (h.freshCall c hc).ne'
    · exact h.recorded
    · intro r hr hfinal e he heq
      rcases mem_append.mp he with he | he
      · exact h.held r hr hfinal e he heq
      · rw [mem_singleton] at he
        subst he
        exact absurd heq (h.freshReport r hr).ne'

theorem dlrLookup_some {smsc ts : Octstr} {dst : Option Octstr} {useDst : Bool} {found : Stored}
    (h : dlrLookup s smsc ts dst useDst = some found) (typ : Int) (id : Uuid) (now : Int) :
    found ∈ s.waiting ∧
      (callOf smsc ts dst typ useDst id now found).target s.waiting = some found := by
  unfold dlrLookup at h
  split at h
  · cases h
  · exact ⟨mem_of_find?_eq_some h, h⟩

theorem startCall_inv (h : DlrInv s) {found : Stored} (hmem : found ∈ s.waiting)
    (hnumber : c.number = found.number) (htarget : c.target s.waiting = some found) :
    DlrInv (startCall s c) := by
  constructor
  · exact h.distinct
  · exact h.nodup
  · exact h.freshEntry
  · intro c' hc'
    rcases mem_append.mp hc' with hc' | hc'
    · exact h.freshCall c' hc'
    · rw [mem_singleton] at hc'
      rw [hc', hnumber]
      exact h.freshEntry found hmem
  · intro r hr
    rcases mem_append.mp hr with hr | hr
    · exact h.freshReport r hr
    · rw [(DlrCall.mem_reported.mp hr).1, hnumber]
      exact h.freshEntry found hmem
  · intro c' hc' e he heq
    rcases mem_append.mp hc' with hc' | hc'
    · exact h.again c' hc' e he heq
    · rw [mem_singleton] at hc'
      rw [hc', hnumber] at heq
      rw [hc', h.distinct e he found hmem heq]
      exact htarget
  · intro c' hc' r hr
    rcases mem_append.mp hc' with hc' | hc'
    · exact mem_append_left _ (h.recorded c' hc' r hr)
    · rw [mem_singleton] at hc'
      subst hc'
      exact mem_append_right _ hr
  · intro r hr hfinal e he heq
    rcases mem_append.mp hr with hr | hr
    · obtain ⟨c', hc', hheld⟩ := h.held r hr hfinal e he heq
      exact ⟨c', mem_append_left _ hc', hheld⟩
    · obtain ⟨hn, hreport⟩ := DlrCall.mem_reported.mp hr
      exact ⟨c, mem_append_right _ (mem_singleton_self c), hn.symm, r.2, hreport, hfinal⟩

variable {e : Stored}

theorem mem_of_settled (h : DlrInv s) (hc : c ∈ s.calls)
    (he : e ∈ s.waiting.eraseP (Stored.matches c.smsc c.ts c.dstMin)) :
    e ∈ s.waiting ∧ e.number ≠ c.number := by
  have hmem := mem_of_mem_eraseP he
  refine ⟨hmem, ?_⟩
  intro heq
  exact not_mem_eraseP (h.again c hc e hmem heq) h.nodup he

theorem again_of_settled (h : DlrInv s) {c' : DlrCall} (hc' : c' ∈ s.calls)
    (he : e ∈ s.waiting.eraseP (Stored.matches c.smsc c.ts c.dstMin)) (heq : e.number = c'.number) :
    c'.target (s.waiting.eraseP (Stored.matches c.smsc c.ts c.dstMin)) = some e := by
  have hagain := h.again c' hc' e (mem_of_mem_eraseP he) heq
  cases htarget : s.waiting.find? (Stored.matches c.smsc c.ts c.dstMin) with
  | none => rw [eraseP_of_find_none htarget, hagain]
  | some b =>
    have hne : b ≠ e := by
      intro hbe
      subst hbe
      exact not_mem_eraseP htarget h.nodup he
    exact find_eraseP_of_ne htarget hagain hne

theorem settleStep_inv (h : DlrInv s) (hk : s.calls[k]? = some c) : DlrInv (settleStep s k c) := by
  have hc : c ∈ s.calls := mem_of_getElem? hk
  have hsub : ∀ c' ∈ s.calls.eraseIdx k, c' ∈ s.calls := fun _ => mem_of_mem_eraseIdx
  unfold settleStep
  split
  · rename_i hkeep
    refine ⟨h.distinct, h.nodup, h.freshEntry, fun c' hc' => h.freshCall c' (hsub c' hc'),
      h.freshReport, fun c' hc' => h.again c' (hsub c' hc'),
      fun c' hc' => h.recorded c' (hsub c' hc'), ?_⟩
    intro r hr hfinal e he heq
    obtain ⟨c', hc', hn, hcfinal⟩ := h.held r hr hfinal e he heq
    refine ⟨c', mem_eraseIdx_of_ne hk hc' ?_, hn, hcfinal⟩
    intro hsame
    rw [← hsame, hcfinal.removes] at hkeep
    cases hkeep
  · refine ⟨?_, h.nodup.sublist eraseP_sublist, ?_,
      fun c' hc' => h.freshCall c' (hsub c' hc'), h.freshReport, ?_,
      fun c' hc' => h.recorded c' (hsub c' hc'), ?_⟩
    · intro e he e' he'
      exact h.distinct e (mem_of_mem_eraseP he) e' (mem_of_mem_eraseP he')
    · intro e he
      exact h.freshEntry e (mem_of_mem_eraseP he)
    · intro c' hc' e he heq
      exact again_of_settled h (hsub c' hc') he heq
    · intro r hr hfinal e he heq
      obtain ⟨hmem, hne⟩ := mem_of_settled h hc he
      obtain ⟨c', hc', hn, hcfinal⟩ := h.held r hr hfinal e hmem heq
      refine ⟨c', mem_eraseIdx_of_ne hk hc' ?_, hn, hcfinal⟩
      intro hsame
      rw [heq, ← hn, hsame] at hne
      exact hne rfl

theorem dlrStep_inv {s' : DlrState} {a : DlrAction} (h : DlrInv s) (hs : dlrStep s a = some s') :
    DlrInv s' := by
  cases a with
  | add smsc ts msg useDst =>
    cases hs
    exact addStep_inv h smsc ts msg useDst
  | find smsc ts dst typ useDst id now =>
    rw [dlrStep] at hs
    split at hs
    · cases hs
      exact h
    · rename_i found hfound
      cases hs
      obtain ⟨hmem, htarget⟩ := dlrLookup_some hfound typ id now
      exact startCall_inv h hmem rfl htarget
  | settle k =>
    obtain ⟨c, hk, rfl⟩ := Option.map_eq_some_iff.mp hs
    exact settleStep_inv h hk

/-- No entry has two final reports, and every call has removed the entry whose
report it made. -/
structure ReportedOnce (s : DlrState) : Prop where
  once : ((s.reports.filter fun r => !dlrIsNotFinal r.2.dlrMask).map Prod.fst).Nodup
  own : ∀ r ∈ s.removals, r.2 = r.1

/-- A look-up that makes a final report finds no entry that a call has still to settle; and when
a call removes, its entry is still in the list or none matches. -/
def Undisturbed (s : DlrState) : DlrAction → Prop
  | .add _ _ _ _ => True
  | .find smsc ts dst typ useDst id now =>
    ∀ found, dlrLookup s smsc ts dst useDst = some found →
      (callOf smsc ts dst typ useDst id now found).Final →
      ∀ c ∈ s.calls, c.number = found.number → ¬ c.Final
  | .settle k =>
    ∀ c, s.calls[k]? = some c → dlrStillWaiting c.typ c.dlr.mask = false →
      (∃ e ∈ s.waiting, e.number = c.number) ∨
        ∀ e ∈ s.waiting, Stored.matches c.smsc c.ts c.dstMin e = false

theorem mem_finals {n : Nat} :
    n ∈ (s.reports.filter fun r => !dlrIsNotFinal r.2.dlrMask).map Prod.fst ↔
      ∃ r ∈ s.reports, FinalReport r.2 ∧ r.1 = n := by
  simp [FinalReport, and_assoc]

theorem reported_iff_held (h : DlrInv s) (he : e ∈ s.waiting) :
    (∃ r ∈ s.reports, FinalReport r.2 ∧ r.1 = e.number) ↔
      ∃ c ∈ s.calls, c.number = e.number ∧ c.Final := by
  constructor
  · intro ⟨r, hr, hfinal, hn⟩
    obtain ⟨c, hc, hcn, hcfinal⟩ := h.held r hr hfinal e he hn.symm
    exact ⟨c, hc, hcn.trans hn, hcfinal⟩
  · intro ⟨c, hc, hn, msg, hreport, hfinal⟩
    exact ⟨(c.number, msg), h.recorded c hc _ (DlrCall.mem_reported.mpr ⟨rfl, hreport⟩), hfinal, hn⟩

theorem startCall_once (h : DlrInv s) {found : Stored} (hmem : found ∈ s.waiting)
    (hnumber : c.number = found.number) :
    ReportedOnce (startCall s c) ↔
      ReportedOnce s ∧ (c.Final → ∀ c' ∈ s.calls, c'.number = found.number → ¬ c'.Final) := by
  by_cases hfinal : c.Final
  · obtain ⟨msg, hreport, hmsg⟩ := hfinal
    have hreports :
        ((startCall s c).reports.filter fun r => !dlrIsNotFinal r.2.dlrMask).map Prod.fst =
        (s.reports.filter fun r => !dlrIsNotFinal r.2.dlrMask).map Prod.fst ++ [c.number] := by
      have hone : c.reported = [(c.number, msg)] := by
        rw [DlrCall.reported, hreport]
      have hkept : dlrIsNotFinal msg.dlrMask = false := hmsg
      simp [startCall, hone, hkept]
    have hfresh : c.number ∉ (s.reports.filter fun r => !dlrIsNotFinal r.2.dlrMask).map Prod.fst ↔
        ∀ c' ∈ s.calls, c'.number = found.number → ¬ c'.Final := by
      rw [mem_finals, hnumber, reported_iff_held h hmem]
      simp
    constructor
    · intro hs'
      have honce := hs'.once
      rw [hreports, ← concat_eq_append, nodup_concat] at honce
      exact ⟨⟨honce.2, hs'.own⟩, fun _ => hfresh.mp honce.1⟩
    · intro ⟨hs, hcalls⟩
      refine ⟨?_, hs.own⟩
      rw [hreports, ← concat_eq_append, nodup_concat]
      exact ⟨hfresh.mpr (hcalls ⟨msg, hreport, hmsg⟩), hs.once⟩
  · have hreports : (startCall s c).reports.filter (fun r => !dlrIsNotFinal r.2.dlrMask) =
        s.reports.filter fun r => !dlrIsNotFinal r.2.dlrMask := by
      have hnone : c.reported.filter (fun r => !dlrIsNotFinal r.2.dlrMask) = [] := by
        rw [filter_eq_nil_iff]
        intro r hr hkept
        rw [Bool.not_eq_true'] at hkept
        exact hfinal ⟨r.2, (DlrCall.mem_reported.mp hr).2, hkept⟩
      rw [startCall, filter_append, hnone, append_nil]
    constructor
    · intro hs'
      have honce := hs'.once
      rw [hreports] at honce
      exact ⟨⟨honce, hs'.own⟩, fun hc => absurd hc hfinal⟩
    · intro ⟨hs, _⟩
      refine ⟨?_, hs.own⟩
      rw [hreports]
      exact hs.once

theorem settleStep_once (h : DlrInv s) (hk : s.calls[k]? = some c) :
    ReportedOnce (settleStep s k c) ↔
      ReportedOnce s ∧ (dlrStillWaiting c.typ c.dlr.mask = false →
        (∃ e ∈ s.waiting, e.number = c.number) ∨
          ∀ e ∈ s.waiting, Stored.matches c.smsc c.ts c.dstMin e = false) := by
  have hc : c ∈ s.calls := mem_of_getElem? hk
  unfold settleStep
  split
  · rename_i hkeep
    constructor
    · intro hs'
      refine ⟨⟨hs'.once, hs'.own⟩, ?_⟩
      rw [hkeep]
      intro hremoves
      cases hremoves
    · intro ⟨hs, _⟩
      exact ⟨hs.once, hs.own⟩
  · rename_i hremoves
    rw [Bool.not_eq_true] at hremoves
    cases htarget : c.target s.waiting with
    | none =>
      have hnone : ∀ e ∈ s.waiting, Stored.matches c.smsc c.ts c.dstMin e = false := by
        intro e he
        exact Bool.eq_false_iff.mpr (List.find?_eq_none.mp htarget e he)
      constructor
      · intro hs'
        have hown := hs'.own
        simp only [append_nil] at hown
        exact ⟨⟨hs'.once, hown⟩, fun _ => .inr hnone⟩
      · intro ⟨hs, _⟩
        refine ⟨hs.once, ?_⟩
        simp only [append_nil]
        exact hs.own
    | some e =>
      have hmem : e ∈ s.waiting := mem_of_find?_eq_some htarget
      constructor
      · intro hs'
        have hsame : e.number = c.number := hs'.own (c.number, e.number) (by simp)
        exact ⟨⟨hs'.once, fun r hr => hs'.own r (mem_append_left _ hr)⟩,
          fun _ => .inl ⟨e, hmem, hsame⟩⟩
      · intro ⟨hs, hcond⟩
        refine ⟨hs.once, ?_⟩
        intro r hr
        rcases mem_append.mp hr with hr | hr
        · exact hs.own r hr
        · rw [mem_singleton] at hr
          subst hr
          rcases hcond hremoves with ⟨e', he', hn⟩ | hnone
          · have hagain := h.again c hc e' he' hn
            rw [htarget] at hagain
            rw [Option.some.inj hagain]
            exact hn
          · have hmatch := List.find?_some htarget
            rw [hnone e hmem] at hmatch
            cases hmatch

theorem dlrStep_once {s' : DlrState} {a : DlrAction} (h : DlrInv s) (hs : dlrStep s a = some s') :
    ReportedOnce s' ↔ ReportedOnce s ∧ Undisturbed s a := by
  cases a with
  | add smsc ts msg useDst =>
    cases hs
    have hkeep : ReportedOnce (addStep s smsc ts msg useDst) ↔ ReportedOnce s := by
      unfold addStep
      cases dlrEntryOf smsc ts msg useDst with
      | none => exact Iff.rfl
      | some dlr => exact ⟨fun h => ⟨h.once, h.own⟩, fun h => ⟨h.once, h.own⟩⟩
    simp only [hkeep, Undisturbed, and_true]
  | find smsc ts dst typ useDst id now =>
    rw [dlrStep] at hs
    split at hs
    · rename_i hnone
      cases hs
      simp [Undisturbed, hnone]
    · rename_i found hfound
      cases hs
      obtain ⟨hmem, -⟩ := dlrLookup_some hfound typ id now
      rw [startCall_once h hmem rfl]
      simp [Undisturbed, hfound]
  | settle k =>
    obtain ⟨c, hk, rfl⟩ := Option.map_eq_some_iff.mp hs
    rw [settleStep_once h hk]
    simp [Undisturbed, hk]

/-- **Reported once.**  In every interleaving no entry had two final reports and every removal
was of the entry reported, exactly if every access met the condition. -/
theorem dlr_reported_once_iff {s : DlrState} {trace : List (DlrState × DlrAction)}
    (hrun : Run dlrStep dlrStart trace s) :
    ReportedOnce s ↔ ∀ p ∈ trace, Undisturbed p.1 p.2 := by
  have hstart : ReportedOnce dlrStart := by
    constructor <;> simp [dlrStart]
  apply hrun.iff_where dlrStart_inv hstart
  · intro s a s' h hs
    exact dlrStep_inv h hs
  · intro s a s' h hs
    exact dlrStep_once h hs

def reportedMsg : Sms :=
  { smsCreate uuidClear with receiver := some (ascii "0451234567"), dlrMask := 3 }

def sentMsg : DlrAction := .add (ascii "smsc") (some (ascii "1")) reportedMsg true

def delivered : DlrAction :=
  .find (ascii "smsc") (ascii "1") (some (ascii "0451234567")) 1 true uuidClear 0

theorem dlr_reported_once_single : ∃ trace s, Run dlrStep dlrStart trace s ∧
    ReportedOnce s ∧ s.waiting = [] ∧ s.reports.map (fun r => (r.1, r.2.dlrMask)) = [(0, 1)] := by
  let added := addStep dlrStart (ascii "smsc") (some (ascii "1")) reportedMsg true
  let found : Stored :=
    ⟨0, ⟨ascii "smsc", ascii "1", [], ascii "0451234567", [], [], [], 3, true⟩⟩
  let call := callOf (ascii "smsc") (ascii "1") (some (ascii "0451234567")) 1 true uuidClear 0 found
  let looked := startCall added call
  have hadd : dlrStep dlrStart sentMsg = some added := rfl
  have hfind : dlrStep added delivered = some looked := by decide +kernel
  have hsettle : dlrStep looked (.settle 0) = some (settleStep looked 0 call) := rfl
  have hrun := ((Run.start.next hadd).next hfind).next hsettle
  refine ⟨_, _, hrun, (dlr_reported_once_iff hrun).mpr ?_, by decide +kernel, by decide +kernel⟩
  simp only [nil_append, forall_mem_append, forall_mem_singleton]
  refine ⟨⟨trivial, ?_⟩, ?_⟩
  · intro found _ _ c hc
    cases hc
  · intro c hc _
    obtain rfl : call = c := Option.some.inj hc
    exact .inl ⟨found, by decide +kernel, rfl⟩

/-- Two reports are looked up before the first call settles: the first message is reported
twice, the second not at all. -/
theorem dlr_reported_twice : ∃ trace s, Run dlrStep dlrStart trace s ∧
    s.reports.map (fun r => (r.1, r.2.dlrMask)) = [(0, 1), (0, 1)] ∧
    s.removals = [(0, 0), (0, 1)] ∧ s.waiting = [] ∧ ¬ ReportedOnce s := by
  have hexec : (Machine.exec dlrStep dlrStart
      [sentMsg, sentMsg, delivered, delivered, .settle 0, .settle 0]).isSome := by
    decide +kernel
  have hrun := Machine.run_of_exec (Option.some_get hexec).symm
  refine ⟨_, _, hrun, by decide +kernel, by decide +kernel, by decide +kernel, ?_⟩
  intro honce
  have hown := honce.own (0, 1) (by decide +kernel)
  cases hown

/-- At most one call is between its searches, and its entry is still there. -/
structure DlrSerial (s : DlrState) : Prop extends DlrInv s, ReportedOnce s where
  single : ∀ c ∈ s.calls, s.calls = [c] ∧ ∃ e ∈ s.waiting, e.number = c.number

theorem dlrStep_serial {s' : DlrState} {a : DlrAction} (h : DlrSerial s)
    (hserial : a matches .find .. → s.calls = []) (hs : dlrStep s a = some s') : DlrSerial s' := by
  have hsingle := h.single
  refine ⟨dlrStep_inv h.1 hs, (dlrStep_once h.1 hs).mpr ⟨h.2, ?_⟩, ?_⟩
  · cases a with
    | add => trivial
    | find => simp [Undisturbed, hserial rfl]
    | settle => exact fun c hk _ => .inl (hsingle c (mem_of_getElem? hk)).2
  · cases a with
    | add => grind [dlrStep, addStep]
    | find => grind [dlrStep, startCall, callOf, dlrLookup]
    | settle => grind [dlrStep, settleStep, getElem_mem, mem_of_mem_eraseIdx]

/-- **Look-ups one after the other.**  If none falls between the two searches of a call, no entry
has two final reports and every removal is of the entry reported. -/
theorem dlr_serial_once {trace : List (DlrState × DlrAction)} (hrun : Run dlrStep dlrStart trace s)
    (hserial : ∀ p ∈ trace, p.2 matches .find .. → p.1.calls = []) : ReportedOnce s := by
  have hstart : DlrSerial dlrStart := ⟨dlrStart_inv, ⟨.nil, nofun⟩, by simp [dlrStart]⟩
  exact (hrun.invariant_where hstart (fun _ _ _ => dlrStep_serial) hserial).2

theorem dlr_serial_once_two : ∃ trace s, Run dlrStep dlrStart trace s ∧ ReportedOnce s ∧
    s.reports.map Prod.fst = [0, 1] := by
  have hexec : (Machine.exec dlrStep dlrStart
      [sentMsg, sentMsg, delivered, .settle 0, delivered, .settle 0]).isSome := by decide +kernel
  have hrun := Machine.run_of_exec (Option.some_get hexec).symm
  exact ⟨_, _, hrun, dlr_serial_once hrun (by decide +kernel), by decide +kernel⟩

end Kannel
