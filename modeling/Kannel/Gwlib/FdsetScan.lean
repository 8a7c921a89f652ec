import Kannel.Gwlib.Fdset

/-!
# The polling thread

The thread carries out requests, polls, and scans the table; the requests of a callback are
carried out at once. The calls are recorded with what was registered then.
-/

namespace Kannel
open List
variable {κ δ : Type}

inductive FdPhase
  | idle
  | scan (i : Nat) (now : Int)
  | callback (i : Nat) (now : Int) (event : Bool)
  deriving DecidableEq

structure FdCall (κ δ : Type) where
  fd : Int
  revents : BitVec 16
  callback : κ
  data : δ
  current : Option (Registration κ δ)

structure FdSystem (κ δ : Type) where
  set : FDSet κ δ
  phase : FdPhase
  actions : List (FdRequest κ δ)
  clock : Int
  registered : Int → Option (Registration κ δ)
  calls : List (FdCall κ δ)

inductive FdAction (κ δ : Type)
  | tick (clock : Int)
  | submit (req : FdRequest κ δ)
  | handle
  | poll (revents : List (BitVec 16))
  | scan
  | call (req : FdRequest κ δ)
  | ret

def FDSet.timedOut (set : FDSet κ δ) (e : FdEntry κ δ) (now : Int) : Bool :=
  0 < set.timeout ∧ e.time + set.timeout - now ≤ 0

instance decidableEventsWithin (revents events : BitVec 16) :
    Decidable (EventsWithin revents events) :=
  inferInstanceAs (Decidable (_ = _))

instance decidableDistinct (registered : Int → Option (Registration κ δ)) (req : FdRequest κ δ) :
    Decidable (req.Distinct registered) :=
  match req with
  | .register fd _ _ _ =>
    match h : registered fd with
    | none => decidable_of_iff (0 ≤ fd) ⟨fun hfd => ⟨hfd, h⟩, fun hd => hd.1⟩
    | some _ => isFalse fun hd => by
      have := hd.2
      rw [h] at this
      cases this
  | .listen .. => isTrue trivial
  | .unregister _ => isTrue trivial
  | .setTimeout _ => isTrue trivial

def pollResult : List (FdEntry κ δ) → List (BitVec 16) → Bool
  | [], [] => true
  | e :: table, r :: revents =>
    EventsWithin r e.events && (decide (0 ≤ e.fd) || r == 0) && pollResult table revents
  | _, _ => false

def FdEntry.key (e : FdEntry κ δ) : Int × Registration κ δ := (e.fd, e.registration)

namespace FdSystem

def perform (s : FdSystem κ δ) (req : FdRequest κ δ) : Option (FdSystem κ δ) :=
  if req.Distinct s.registered then
    some { s with set := s.set.perform s.clock req, registered := req.apply s.registered }
  else none

def callBack (s : FdSystem κ δ) (i : Nat) (now : Int) (e : FdEntry κ δ) (revents : BitVec 16)
    (event : Bool) : FdSystem κ δ :=
  { s with
    phase := .callback i now event
    calls := s.calls ++ [⟨e.fd, revents, e.callback, e.data, s.registered e.fd⟩] }

def withRevents (set : FDSet κ δ) (revents : List (BitVec 16)) : FDSet κ δ :=
  { set with
    table := List.zipWith (fun e r => { e with revents := r }) set.table revents
    scanning := true }

def endScan (set : FDSet κ δ) : FDSet κ δ :=
  let set := { set with scanning := false }
  if 0 < set.deletedEntries then removeDeletedEntries set else set

def scanEntry (s : FdSystem κ δ) (i : Nat) (now : Int) : FdSystem κ δ :=
  match s.set.table[i]? with
  | none => { s with set := endScan s.set, phase := .idle }
  | some e =>
    if e.revents ≠ 0 then s.callBack i now e e.revents true
    else if s.set.timedOut e now then s.callBack i now e pollErr false
    else { s with phase := .scan (i + 1) now }

def afterCall (s : FdSystem κ δ) (i : Nat) (now : Int) (event : Bool) : FdSystem κ δ :=
  { s with
    set := { s.set with
      table := if event then s.set.table.modify i fun e => { e with time := s.clock }
        else s.set.table }
    phase := .scan (i + 1) now }

def step (s : FdSystem κ δ) : FdAction κ δ → Option (FdSystem κ δ)
  | .tick clock => some { s with clock := clock }
  | .submit req => some { s with actions := s.actions ++ [req] }
  | .handle =>
    match s.phase, s.actions with
    | .idle, req :: actions => perform { s with actions := actions } req
    | _, _ => none
  | .poll revents =>
    match s.phase, s.actions with
    | .idle, [] =>
      if pollResult s.set.table revents then
        some { s with set := withRevents s.set revents, phase := .scan 0 s.clock }
      else none
    | _, _ => none
  | .scan =>
    match s.phase with
    | .scan i now => some (s.scanEntry i now)
    | _ => none
  | .call req =>
    match s.phase with
    | .callback _ _ _ => s.perform req
    | _ => none
  | .ret =>
    match s.phase with
    | .callback i now event => some (s.afterCall i now event)
    | _ => none

def create (timeout clock : Int) : FdSystem κ δ where
  set := ⟨[], if 0 < timeout then timeout else -1, false, 0⟩
  phase := .idle
  actions := []
  clock := clock
  registered := fun _ => none
  calls := []

section Frame
variable {table table' : List (FdEntry κ δ)} {registered : Int → Option (Registration κ δ)}

theorem exists_same_key (hkeys : table'.map FdEntry.key = table.map FdEntry.key)
    {e : FdEntry κ δ} (he : e ∈ table) :
    ∃ e' ∈ table', e'.fd = e.fd ∧ e'.registration = e.registration := by
  have hmem : e.key ∈ table'.map FdEntry.key := hkeys ▸ List.mem_map_of_mem he
  obtain ⟨e', he', hkey⟩ := List.mem_map.mp hmem
  exact ⟨e', he', congrArg Prod.fst hkey, congrArg Prod.snd hkey⟩

theorem mirrors_of_keys (h : Mirrors table registered)
    (hkeys : table'.map FdEntry.key = table.map FdEntry.key) : Mirrors table' registered where
  nonneg e he := by
    obtain ⟨e', he', hfd, -⟩ := exists_same_key hkeys.symm he
    exact hfd ▸ h.nonneg e' he'
  own e he := by
    obtain ⟨e', he', hfd, hreg⟩ := exists_same_key hkeys.symm he
    rw [← hfd, ← hreg]
    exact h.own e' he'
  once := by
    have hfds : table'.map FdEntry.fd = table.map FdEntry.fd := by
      have := congrArg (List.map Prod.fst) hkeys
      rwa [List.map_map, List.map_map] at this
    rw [hfds]
    exact h.once
  all fd r hr := by
    obtain ⟨e, he, rfl⟩ := h.all fd r hr
    obtain ⟨e', he', hfd, -⟩ := exists_same_key hkeys he
    exact ⟨e', he', hfd⟩

theorem live_keys (hkeys : table'.map FdEntry.key = table.map FdEntry.key) :
    (live table').map FdEntry.key = (live table).map FdEntry.key := by
  have hfilter : ∀ t : List (FdEntry κ δ),
      (live t).map FdEntry.key = (t.map FdEntry.key).filter fun k => decide (0 ≤ k.1) := by
    intro t
    rw [List.filter_map]
    rfl
  rw [hfilter, hfilter, hkeys]

theorem dead_of_keys (hkeys : table'.map FdEntry.key = table.map FdEntry.key) :
    dead table' = dead table := by
  have hcount : ∀ t : List (FdEntry κ δ),
      dead t = (t.map FdEntry.key).countP fun k => decide (k.1 < 0) := by
    intro t
    rw [countP_map]
    rfl
  rw [hcount, hcount, hkeys]

theorem tableOk_of_keys {set set' : FDSet κ δ} (h : TableOk set registered)
    (hkeys : set'.table.map FdEntry.key = set.table.map FdEntry.key)
    (hdeleted : set'.deletedEntries = set.deletedEntries) : TableOk set' registered where
  mirrors := mirrors_of_keys h.mirrors (live_keys hkeys)
  marks e he := by
    obtain ⟨e', he', hfd, -⟩ := exists_same_key hkeys.symm he
    rw [← hfd]
    exact h.marks e' he'
  counted := by
    rw [hdeleted, dead_of_keys hkeys]
    exact h.counted

end Frame

variable {table : List (FdEntry κ δ)} {revents : List (BitVec 16)}

theorem withRevents_keys (h : pollResult table revents = true) :
    (List.zipWith (fun e r => { e with revents := r }) table revents).map FdEntry.key =
      table.map FdEntry.key := by
  induction table generalizing revents with
  | nil => cases revents <;> rfl
  | cons e table ih =>
    cases revents with
    | nil => cases h
    | cons r revents =>
      simp only [pollResult, Bool.and_eq_true] at h
      rw [zipWith_cons_cons, map_cons, ih h.2]
      rfl

theorem withRevents_within (h : pollResult table revents = true) :
    ∀ e ∈ List.zipWith (fun (e : FdEntry κ δ) r => { e with revents := r }) table revents,
      EventsWithin e.revents e.events := by
  induction table generalizing revents with
  | nil => cases revents <;> simp
  | cons e table ih =>
    cases revents with
    | nil => cases h
    | cons r revents =>
      simp only [pollResult, Bool.and_eq_true] at h
      intro a ha
      rcases mem_cons.mp ha with rfl | ha
      · exact of_decide_eq_true h.1.1
      · exact ih h.2 a ha

variable {set : FDSet κ δ}

theorem endScan_spec {registered : Int → Option (Registration κ δ)} (h : TableOk set registered) :
    TableOk (endScan set) registered ∧ dead (endScan set).table = 0 ∧
      (endScan set).scanning = false ∧
      (endScan set).deletedEntries + dead set.table = set.deletedEntries := by
  have hcounted := h.counted
  unfold endScan
  by_cases hdeleted : 0 < set.deletedEntries
  · rw [if_pos hdeleted]
    have hfront : ∀ a ∈ ([] : List (FdEntry κ δ)), decide (a.fd < 0) = false := by simp
    obtain ⟨hperm, hcount⟩ := SwapRemove.sweep_spec hfront (Nat.le_refl set.table.length) hcounted
    rw [nil_append] at hperm hcount
    have hlive : (set.table.filter fun e => ! decide (e.fd < 0)) = live set.table := by
      refine filter_congr fun e _ => ?_
      by_cases hfd : e.fd < 0
      · simp [hfd]
      · have : 0 ≤ e.fd := by omega
        simp [hfd, this]
    rw [hlive] at hperm
    have hall : ∀ e ∈ (removeDeletedEntries { set with scanning := false }).table, 0 ≤ e.fd :=
      fun e he => (mem_live.mp (hperm.mem_iff.mp he)).2
    have hdead : dead (removeDeletedEntries { set with scanning := false }).table = 0 := by
      refine countP_eq_zero.mpr fun e he => ?_
      have := hall e he
      simpa using this
    refine ⟨⟨?_, fun e he => .inl (hall e he), ?_⟩, hdead, rfl, hcount⟩
    · have hself : live (removeDeletedEntries { set with scanning := false }).table =
          (removeDeletedEntries { set with scanning := false }).table :=
        filter_eq_self.mpr fun e he => decide_eq_true (hall e he)
      rw [hself]
      exact h.mirrors.perm hperm.symm
    · rw [hdead]
      exact Nat.zero_le _
  · rw [if_neg hdeleted]
    have hdead : dead set.table = 0 := by omega
    exact ⟨⟨h.mirrors, h.marks, h.counted⟩, hdead, rfl, by rw [hdead, Nat.add_zero]⟩

structure Sound (s : FdSystem κ δ) : Prop where
  table : TableOk s.set s.registered
  idle : s.phase = .idle → dead s.set.table = 0 ∧ s.set.scanning = false
  busy : s.phase ≠ .idle → s.set.scanning = true ∧ ReventsOk s.set

def GoodCall (c : FdCall κ δ) : Prop :=
  ∃ r, c.current = some r ∧ r.callback = c.callback ∧ r.data = c.data ∧
    EventsWithin c.revents r.events

/-- The table holds what is registered, the deleted entries are counted, and only registered
callbacks were called, with events they listened for. -/
structure Correct (s : FdSystem κ δ) : Prop where
  mirrors : Mirrors (live s.set.table) s.registered
  counted : s.set.deletedEntries = dead s.set.table
  called : ∀ c ∈ s.calls, GoodCall c

def Careful (s : FdSystem κ δ) : FdAction κ δ → Prop
  | .scan =>
    ∀ i now e, s.phase = .scan i now → s.set.table[i]? = some e → e.fd = -1 →
      e.revents = 0 ∧ s.set.timedOut e now = false
  | .call req => ¬ HitsDeleted s.set req
  | _ => True

variable {e : FdEntry κ δ} {s : FdSystem κ δ}

theorem careful_scan_some {i : Nat} {now : Int} (hphase : s.phase = .scan i now)
    (hentry : s.set.table[i]? = some e) :
    Careful s .scan ↔ (e.fd = -1 → e.revents = 0 ∧ s.set.timedOut e now = false) := by
  constructor
  · exact fun h => h i now e hphase hentry
  · intro h j t e' hphase' he'
    cases hphase.symm.trans hphase'
    cases hentry.symm.trans he'
    exact h

theorem careful_scan_none (h : ∀ i now, s.phase = .scan i now → s.set.table[i]? = none) :
    Careful s .scan := by
  intro i now e hphase he
  rw [h i now hphase] at he
  cases he

instance decidableCareful (s : FdSystem κ δ) (a : FdAction κ δ) : Decidable (Careful s a) :=
  match a with
  | .scan =>
    match hphase : s.phase with
    | .idle => isTrue (careful_scan_none fun _ _ h => nomatch hphase.symm.trans h)
    | .callback .. => isTrue (careful_scan_none fun _ _ h => nomatch hphase.symm.trans h)
    | .scan i now =>
      match hentry : s.set.table[i]? with
      | none => isTrue (careful_scan_none fun _ _ h => by cases hphase.symm.trans h; exact hentry)
      | some _ => decidable_of_iff _ (careful_scan_some hphase hentry).symm
  | .call req => inferInstanceAs (Decidable (¬ HitsDeleted s.set req))
  | .tick _ => isTrue trivial
  | .submit _ => isTrue trivial
  | .handle => isTrue trivial
  | .poll _ => isTrue trivial
  | .ret => isTrue trivial

section Steps
variable {s s' : FdSystem κ δ}

theorem scanning_perform (set : FDSet κ δ) (now : Int) (req : FdRequest κ δ) :
    (set.perform now req).scanning = set.scanning := by
  cases req with
  | register fd events callback data => rfl
  | listen fd mask events =>
    rw [FDSet.perform, fdsetListen]
    split <;> rfl
  | unregister fd =>
    rw [FDSet.perform, fdsetUnregister]
    split
    · rfl
    · split_ifs <;> rfl
  | setTimeout timeout => rfl

theorem deletedEntries_perform (hidle : set.scanning = false) (now : Int) (req : FdRequest κ δ) :
    (set.perform now req).deletedEntries = set.deletedEntries := by
  cases req with
  | register fd events callback data => rfl
  | listen fd mask events => exact deletedEntries_fdsetListen mask events now
  | unregister fd =>
    rw [FDSet.perform, fdsetUnregister]
    split
    · rfl
    · split_ifs with hlast hscan
      · rfl
      · rw [hidle] at hscan
        cases hscan
      · rfl
  | setTimeout timeout => rfl

variable {req : FdRequest κ δ}

theorem perform_cases (h : s.perform req = some s') :
    req.Distinct s.registered ∧
      s' = { s with set := s.set.perform s.clock req, registered := req.apply s.registered } := by
  obtain ⟨hreq, heq⟩ := Option.ite_none_right_eq_some.mp h
  exact ⟨hreq, (Option.some.inj heq).symm⟩

theorem not_hitsDeleted (hdead : dead set.table = 0) (req : FdRequest κ δ) :
    ¬ HitsDeleted set req := by
  cases req with
  | unregister fd =>
    rintro ⟨hfd, hfound⟩
    obtain ⟨entry, hentry⟩ := Option.isSome_iff_exists.mp hfound
    obtain ⟨front, e, back, htable, -, rfl⟩ := findEntry_split hentry
    have hmem : e ∈ set.table := htable ▸ mem_append_right _ mem_cons_self
    exact absurd hfd (by simpa using countP_eq_zero.mp hdead e hmem)
  | register fd events callback data => exact id
  | listen fd mask events => exact id
  | setTimeout timeout => exact id

theorem perform_step (hs : Sound s) (h : s.perform req = some s') :
    Sound s' ∧ (Correct s' ↔ Correct s ∧ ¬ HitsDeleted s.set req) := by
  obtain ⟨hreq, rfl⟩ := perform_cases h
  have htable := perform_tableOk hs.table hreq s.clock
  have hcount : (s.set.perform s.clock req).deletedEntries + dead s.set.table =
    s.set.deletedEntries + dead (s.set.perform s.clock req).table +
      if HitsDeleted s.set req then 1 else 0 := perform_count hreq s.clock
  refine ⟨⟨htable, fun hidle => ?_, fun hbusy => ?_⟩, ?_⟩
  · obtain ⟨hdead, hscan⟩ := hs.idle hidle
    rw [deletedEntries_perform hscan] at hcount
    refine ⟨?_, by rw [scanning_perform]; exact hscan⟩
    dsimp only
    omega
  · obtain ⟨hscan, hrevents⟩ := hs.busy hbusy
    exact ⟨by rw [scanning_perform]; exact hscan, perform_reventsOk hrevents hscan req s.clock⟩
  · have hcounted := hs.table.counted
    by_cases hhit : HitsDeleted s.set req
    · rw [if_pos hhit] at hcount
      refine ⟨fun hc => ?_, fun hc => absurd hhit hc.2⟩
      have := hc.counted
      dsimp only at this
      omega
    · rw [if_neg hhit] at hcount
      constructor
      · intro hc
        have := hc.counted
        dsimp only at this
        exact ⟨⟨hs.table.mirrors, by omega, hc.called⟩, hhit⟩
      · rintro ⟨hc, -⟩
        have := hc.counted
        refine ⟨htable.mirrors, ?_, hc.called⟩
        dsimp only
        omega

theorem frame_step (hs : Sound s) (s' : FdSystem κ δ) (hregistered : s'.registered = s.registered)
    (hcalls : s'.calls = s.calls)
    (hkeys : s'.set.table.map FdEntry.key = s.set.table.map FdEntry.key)
    (hdeleted : s'.set.deletedEntries = s.set.deletedEntries)
    (hidle : s'.phase = .idle → dead s.set.table = 0 ∧ s'.set.scanning = false)
    (hbusy : s'.phase ≠ .idle → s'.set.scanning = true ∧ ReventsOk s'.set)
    {a : FdAction κ δ} (ha : Careful s a) : Sound s' ∧ (Correct s' ↔ Correct s ∧ Careful s a) := by
  have hdead := dead_of_keys hkeys
  have htable : TableOk s'.set s'.registered :=
    hregistered ▸ tableOk_of_keys hs.table hkeys hdeleted
  refine ⟨⟨htable, fun h => hdead ▸ hidle h, hbusy⟩, fun hc => ⟨?_, ha⟩, fun ⟨hc, _⟩ => ?_⟩
  · exact ⟨hs.table.mirrors, hdeleted ▸ hdead ▸ hc.counted, hcalls ▸ hc.called⟩
  · refine ⟨htable.mirrors, ?_, hcalls ▸ hc.called⟩
    rw [hdeleted, hdead]
    exact hc.counted

theorem pollErr_within (events : BitVec 16) : EventsWithin pollErr events := by
  have hbits : ∀ i < 16, pollErr.getLsbD i = true → pollErrors.getLsbD i = true := by decide
  exact eventsWithin_iff.mpr fun i hi hbit => .inr (hbits i hi hbit)

variable {revents : BitVec 16}

theorem goodCall_iff (hs : Sound s) (he : e ∈ s.set.table)
    (hrevents : EventsWithin revents e.events) :
    GoodCall ⟨e.fd, revents, e.callback, e.data, s.registered e.fd⟩ ↔ e.fd ≠ -1 := by
  constructor
  · rintro ⟨r, hr, -⟩ hfd
    have hnone : s.registered e.fd = none := hs.table.unregistered (.inl (by omega))
    rw [hnone] at hr
    cases hr
  · intro hfd
    have hlive : e ∈ live s.set.table :=
      mem_live.mpr ⟨he, (hs.table.marks e he).resolve_right hfd⟩
    exact ⟨e.registration, hs.table.mirrors.own e hlive, rfl, rfl, hrevents⟩

theorem callBack_step (i : Nat) (now : Int) (event : Bool) (hs : Sound s) (hphase : s.phase ≠ .idle)
    (he : e ∈ s.set.table) (hrevents : EventsWithin revents e.events) :
    Sound (s.callBack i now e revents event) ∧
      (Correct (s.callBack i now e revents event) ↔ Correct s ∧ e.fd ≠ -1) := by
  have hgood := goodCall_iff hs he hrevents
  refine ⟨⟨hs.table, fun h => (nomatch h), fun _ => hs.busy hphase⟩, fun hc => ?_, ?_⟩
  · refine ⟨⟨hc.mirrors, hc.counted, fun c hc' => ?_⟩, ?_⟩
    · exact hc.called c (mem_append_left _ hc')
    · exact hgood.mp (hc.called _ (mem_append_right _ (mem_singleton_self _)))
  · rintro ⟨hc, hfd⟩
    refine ⟨hc.mirrors, hc.counted, fun c hc' => ?_⟩
    rcases mem_append.mp hc' with hc' | hc'
    · exact hc.called c hc'
    · rw [mem_singleton.mp hc']
      exact hgood.mpr hfd

theorem scanEntry_step {i : Nat} {now : Int} (hs : Sound s) (hphase : s.phase = .scan i now) :
    Sound (s.scanEntry i now) ∧ (Correct (s.scanEntry i now) ↔ Correct s ∧ Careful s .scan) := by
  have hbusy : s.phase ≠ .idle := by
    rw [hphase]
    exact fun h => nomatch h
  obtain ⟨hscan, hrevents⟩ := hs.busy hbusy
  unfold scanEntry
  cases hentry : s.set.table[i]? with
  | none =>
    obtain ⟨htable, hdead, hscan', hcount⟩ := endScan_spec hs.table
    have hcareful : Careful s .scan := careful_scan_none fun j t h => by
      cases hphase.symm.trans h
      exact hentry
    refine ⟨⟨htable, fun _ => ⟨hdead, hscan'⟩, fun h => absurd rfl h⟩, fun hc => ?_, ?_⟩
    · have := hc.counted
      dsimp only at this
      exact ⟨⟨hs.table.mirrors, by omega, hc.called⟩, hcareful⟩
    · rintro ⟨hc, -⟩
      have := hc.counted
      refine ⟨htable.mirrors, ?_, hc.called⟩
      dsimp only
      omega
  | some e =>
    have he : e ∈ s.set.table := mem_of_getElem? hentry
    rw [careful_scan_some hphase hentry]
    dsimp only
    by_cases hevents : e.revents ≠ 0
    · rw [if_pos hevents]
      obtain ⟨hsound, hcorrect⟩ := callBack_step i now true hs hbusy he (hrevents e he)
      refine ⟨hsound, hcorrect.trans (and_congr_right fun _ => ?_)⟩
      exact ⟨fun hfd h => absurd h hfd, fun h hfd => hevents (h hfd).1⟩
    · rw [if_neg hevents]
      by_cases htimeout : s.set.timedOut e now = true
      · rw [if_pos htimeout]
        obtain ⟨hsound, hcorrect⟩ := callBack_step i now false hs hbusy he (pollErr_within _)
        refine ⟨hsound, hcorrect.trans (and_congr_right fun _ => ?_)⟩
        refine ⟨fun hfd h => absurd h hfd, fun h hfd => ?_⟩
        rw [(h hfd).2] at htimeout
        cases htimeout
      · rw [if_neg htimeout]
        have hquiet : e.fd = -1 → e.revents = 0 ∧ s.set.timedOut e now = false :=
          fun _ => ⟨not_not.mp hevents, by simpa using htimeout⟩
        refine ⟨⟨hs.table, fun h => (nomatch h), fun _ => ⟨hscan, hrevents⟩⟩, ?_⟩
        exact ⟨fun hc => ⟨⟨hc.mirrors, hc.counted, hc.called⟩, hquiet⟩,
          fun hc => ⟨hc.1.mirrors, hc.1.counted, hc.1.called⟩⟩

section
variable (s : FdSystem κ δ) (i : Nat) (now : Int) (event : Bool)

theorem afterCall_table :
    (s.afterCall i now event).set.table = s.set.table ∨
      ∃ front e back, s.set.table = front ++ e :: back ∧
        (s.afterCall i now event).set.table = front ++ { e with time := s.clock } :: back := by
  unfold afterCall
  cases event with
  | false => exact .inl rfl
  | true =>
    cases hentry : s.set.table[i]? with
    | none =>
      refine .inl (modify_eq_self ?_)
      exact List.getElem?_eq_none_iff.mp hentry
    | some e =>
      obtain ⟨front, back, htable, rfl⟩ := SwapRemove.split_at hentry
      refine .inr ⟨front, e, back, htable, ?_⟩
      rw [if_pos rfl, htable, modify_split]

theorem afterCall_keys :
    (s.afterCall i now event).set.table.map FdEntry.key = s.set.table.map FdEntry.key := by
  rcases afterCall_table s i now event with h | ⟨front, e, back, htable, h⟩
  · rw [h]
  · rw [h, htable, map_append, map_append]
    rfl

end

theorem afterCall_reventsOk (h : ReventsOk s.set) (i : Nat) (now : Int) (event : Bool) :
    ReventsOk (s.afterCall i now event).set := by
  intro a ha
  rcases afterCall_table s i now event with htable | ⟨front, e, back, htable, h'⟩
  · rw [htable] at ha
    exact h a ha
  · rw [h'] at ha
    rcases mem_of_mem_replaced e ha with ha | rfl
    · exact h a (htable ▸ ha)
    · exact h e (htable ▸ mem_append_cons_self)

theorem step_correct {a : FdAction κ δ} (hs : Sound s) (h : step s a = some s') :
    Sound s' ∧ (Correct s' ↔ Correct s ∧ Careful s a) := by
  cases a with
  | tick clock =>
    cases h
    exact frame_step hs { s with clock := clock } rfl rfl rfl rfl hs.idle hs.busy trivial
  | submit req =>
    cases h
    exact frame_step hs { s with actions := s.actions ++ [req] } rfl rfl rfl rfl hs.idle hs.busy
      trivial
  | handle =>
    simp only [step] at h
    split at h
    · next req actions hphase hactions =>
      have hs' : Sound { s with actions := actions } := ⟨hs.table, hs.idle, hs.busy⟩
      obtain ⟨hsound, hcorrect⟩ := perform_step hs' h
      have hmiss := not_hitsDeleted (hs.idle hphase).1 req
      refine ⟨hsound, hcorrect.trans ⟨fun hc => ?_, fun hc => ?_⟩⟩
      · exact ⟨⟨hc.1.mirrors, hc.1.counted, hc.1.called⟩, trivial⟩
      · exact ⟨⟨hc.1.mirrors, hc.1.counted, hc.1.called⟩, hmiss⟩
    · cases h
  | poll revents =>
    simp only [step] at h
    split at h
    · next hphase hactions =>
      obtain ⟨hpoll, rfl⟩ := Machine.of_guard h
      exact frame_step hs
        { s with set := withRevents s.set revents, phase := .scan 0 s.clock } rfl rfl
        (withRevents_keys hpoll) rfl (fun h => (nomatch h))
        (fun _ => ⟨rfl, withRevents_within hpoll⟩) trivial
    · cases h
  | scan =>
    simp only [step] at h
    split at h
    · next i now hphase =>
      cases h
      exact scanEntry_step hs hphase
    · cases h
  | call req =>
    simp only [step] at h
    split at h
    · exact perform_step hs h
    · cases h
  | ret =>
    simp only [step] at h
    split at h
    · next i now event hphase =>
      cases h
      have hbusy := hs.busy (by rw [hphase]; exact fun h => (nomatch h))
      exact frame_step hs (s.afterCall i now event) rfl rfl
        (afterCall_keys s i now event) rfl (fun h => (nomatch h))
        (fun _ => ⟨hbusy.1, afterCall_reventsOk hbusy.2 i now event⟩) trivial
    · cases h

end Steps

theorem create_sound (timeout clock : Int) : Sound (create timeout clock : FdSystem κ δ) where
  table := by
    refine ⟨⟨?_, ?_, nodup_nil, ?_⟩, ?_, Nat.le_refl 0⟩
    · exact fun e he => (nomatch he)
    · exact fun e he => (nomatch he)
    · exact fun fd r hr => (nomatch hr)
    · exact fun e he => (nomatch he)
  idle _ := ⟨rfl, rfl⟩
  busy h := absurd rfl h

/-- **Callbacks.**  In every run the table and the calls are right exactly if no round came to a
deleted entry that had events or was timed out, and no callback unregistered a deleted entry
once more. -/
theorem correct_iff {timeout clock : Int} {trace : List (FdSystem κ δ × FdAction κ δ)}
    {s : FdSystem κ δ} (hrun : Machine.Run step (create timeout clock) trace s) :
    Correct s ↔ ∀ p ∈ trace, Careful p.1 p.2 := by
  have hsound := create_sound (κ := κ) (δ := δ) timeout clock
  refine hrun.iff_where hsound ?_ ?_ ?_
  · exact ⟨hsound.table.mirrors, rfl, fun c hc => (nomatch hc)⟩
  · exact fun s a s' hs h => (step_correct hs h).1
  · exact fun s a s' hs h => (step_correct hs h).2

def ownRequests : List (FdAction Nat Nat) :=
  [.submit (.register 7 1 0 0), .handle, .poll [1], .scan, .call (.unregister 7), .ret, .scan]

theorem ownRequests_correct :
    ∃ trace s, Machine.exec step (create 0 0) ownRequests = some (trace, s) ∧ Correct s := by
  obtain ⟨⟨trace, s⟩, hexec, hcareful⟩ : ∃ r, Machine.exec step (create 0 0) ownRequests = some r ∧
      ∀ p ∈ r.1, Careful p.1 p.2 := by decide +kernel
  exact ⟨trace, s, hexec, (correct_iff (Machine.run_of_exec hexec)).mpr hcareful⟩

def otherRequests : List (FdAction Nat Nat) :=
  [.submit (.register 7 1 0 0), .submit (.register 8 1 1 1), .submit (.register 9 1 2 2), .handle,
    .handle, .handle, .poll [1, 1, 0], .scan, .call (.unregister 8), .ret, .scan]

/-- The callback that was registered for the second one is called all the same, with
the descriptor -1. -/
theorem otherRequests_called :
    ∃ trace s, Machine.exec step (create 0 0) otherRequests = some (trace, s) ∧
      s.calls.map (fun c => (c.fd, c.callback)) = [(7, 0), (-1, 1)] ∧ ¬ Correct s := by
  obtain ⟨⟨trace, s⟩, hexec, hcalls, c, hc, hnone⟩ :
      ∃ r, Machine.exec step (create 0 0) otherRequests = some r ∧
        r.2.calls.map (fun c => (c.fd, c.callback)) = [(7, 0), (-1, 1)] ∧
        ∃ c ∈ r.2.calls, c.current.isSome = false := by
    decide +kernel
  refine ⟨trace, s, hexec, hcalls, fun hcorrect => ?_⟩
  obtain ⟨r, hr, -⟩ := hcorrect.called c hc
  rw [hr] at hnone
  cases hnone

end FdSystem
end Kannel
