import Kannel.Lib.SwapRemove
import Kannel.Lib.Machine

/-!
# The table of an fdset

An entry that is unregistered during a scan gets the descriptor -1, and is taken out after it.
-/

namespace Kannel
open List
variable {κ δ : Type}

structure FdEntry (κ δ : Type) where
  fd : Int
  events : BitVec 16
  revents : BitVec 16
  callback : κ
  data : δ
  time : Int

structure FDSet (κ δ : Type) where
  table : List (FdEntry κ δ)
  timeout : Int
  scanning : Bool
  deletedEntries : Nat

def findEntry (set : FDSet κ δ) (fd : Int) : Option Nat := set.table.findIdx? fun e => e.fd = fd

def removeEntry (set : FDSet κ δ) (entry : Nat) : FDSet κ δ :=
  { set with table := SwapRemove.swapRemove set.table entry }

def removeDeletedEntries (set : FDSet κ δ) : FDSet κ δ :=
  let (table, deletedEntries) :=
    SwapRemove.sweep (fun e => decide (e.fd < 0)) set.table.length 0 set.table set.deletedEntries
  { set with table := table, deletedEntries := deletedEntries }

def fdsetRegister (set : FDSet κ δ) (fd : Int) (events : BitVec 16) (callback : κ) (data : δ)
    (now : Int) : FDSet κ δ :=
  { set with table := set.table ++ [⟨fd, events, 0, callback, data, now⟩] }

def listenEvents (old mask events : BitVec 16) : BitVec 16 :=
  (old &&& ~~~mask) ||| (events &&& mask)

def fdsetListen (set : FDSet κ δ) (fd : Int) (mask events : BitVec 16) (now : Int) : FDSet κ δ :=
  match findEntry set fd with
  | none => set
  | some entry =>
    { set with
      table := set.table.modify entry fun e =>
        { e with
          events := listenEvents e.events mask events
          revents := if set.scanning then e.revents &&& (events ||| ~~~mask) else e.revents
          time := now } }

def fdsetUnregister (set : FDSet κ δ) (fd : Int) : FDSet κ δ :=
  match findEntry set fd with
  | none => set
  | some entry =>
    if entry + 1 = set.table.length then { set with table := set.table.dropLast }
    else if set.scanning then
      { set with
        table := set.table.modify entry fun e => { e with fd := -1 }
        deletedEntries := set.deletedEntries + 1 }
    else removeEntry set entry

inductive FdRequest (κ δ : Type)
  | register (fd : Int) (events : BitVec 16) (callback : κ) (data : δ)
  | listen (fd : Int) (mask events : BitVec 16)
  | unregister (fd : Int)
  | setTimeout (timeout : Int)

def FDSet.perform (set : FDSet κ δ) (now : Int) : FdRequest κ δ → FDSet κ δ
  | .register fd events callback data => fdsetRegister set fd events callback data now
  | .listen fd mask events => fdsetListen set fd mask events now
  | .unregister fd => fdsetUnregister set fd
  | .setTimeout timeout => { set with timeout := timeout }

structure Registration (κ δ : Type) where
  callback : κ
  data : δ
  events : BitVec 16

def FdRequest.apply (registered : Int → Option (Registration κ δ)) :
    FdRequest κ δ → Int → Option (Registration κ δ)
  | .register fd events callback data =>
    Function.update registered fd (some ⟨callback, data, events⟩)
  | .listen fd mask events =>
    Function.update registered fd
      ((registered fd).map fun r => { r with events := listenEvents r.events mask events })
  | .unregister fd => Function.update registered fd none
  | .setTimeout _ => registered

def FdRequest.Distinct (registered : Int → Option (Registration κ δ)) : FdRequest κ δ → Prop
  | .register fd _ _ _ => 0 ≤ fd ∧ registered fd = none
  | _ => True

def FdEntry.registration (e : FdEntry κ δ) : Registration κ δ := ⟨e.callback, e.data, e.events⟩

structure Mirrors (entries : List (FdEntry κ δ)) (registered : Int → Option (Registration κ δ)) :
    Prop where
  nonneg : ∀ e ∈ entries, 0 ≤ e.fd
  own : ∀ e ∈ entries, registered e.fd = some e.registration
  once : (entries.map FdEntry.fd).Nodup
  all : ∀ fd r, registered fd = some r → ∃ e ∈ entries, e.fd = fd

section Mirror
variable {entries entries' : List (FdEntry κ δ)} {registered : Int → Option (Registration κ δ)}
variable {e e' : FdEntry κ δ}

theorem Mirrors.perm (h : Mirrors entries registered) (hperm : entries.Perm entries') :
    Mirrors entries' registered where
  nonneg e he := h.nonneg e (hperm.mem_iff.mpr he)
  own e he := h.own e (hperm.mem_iff.mpr he)
  once := (hperm.map _).nodup_iff.mp h.once
  all fd r hr := by
    obtain ⟨e, he, hfd⟩ := h.all fd r hr
    exact ⟨e, hperm.mem_iff.mp he, hfd⟩

theorem Mirrors.ne_of_mem (h : Mirrors (e :: entries) registered) (he' : e' ∈ entries) :
    e'.fd ≠ e.fd := by
  have hnodup := h.once
  rw [map_cons, nodup_cons] at hnodup
  intro heq
  exact hnodup.1 (heq ▸ List.mem_map_of_mem he')

theorem Mirrors.remove (h : Mirrors (e :: entries) registered) :
    Mirrors entries (Function.update registered e.fd none) where
  nonneg e' he' := h.nonneg e' (mem_cons_of_mem e he')
  own e' he' := by
    rw [Function.update_of_ne (h.ne_of_mem he')]
    exact h.own e' (mem_cons_of_mem e he')
  once := (nodup_cons.mp h.once).2
  all fd r hr := by
    by_cases hfd : fd = e.fd
    · rw [hfd, Function.update_self] at hr
      cases hr
    · rw [Function.update_of_ne hfd] at hr
      obtain ⟨e', he', rfl⟩ := h.all fd r hr
      rcases mem_cons.mp he' with rfl | he'
      · exact absurd rfl hfd
      · exact ⟨e', he', rfl⟩

theorem Mirrors.add (h : Mirrors entries registered) (hfd : 0 ≤ e.fd)
    (hnew : registered e.fd = none) :
    Mirrors (e :: entries) (Function.update registered e.fd (some e.registration)) := by
  have hother : ∀ e' ∈ entries, e'.fd ≠ e.fd := by
    intro e' he' heq
    have := h.own e' he'
    rw [heq, hnew] at this
    cases this
  refine ⟨?_, ?_, ?_, ?_⟩
  · intro e' he'
    rcases mem_cons.mp he' with rfl | he'
    · exact hfd
    · exact h.nonneg e' he'
  · intro e' he'
    rcases mem_cons.mp he' with rfl | he'
    · rw [Function.update_self]
    · rw [Function.update_of_ne (hother e' he')]
      exact h.own e' he'
  · rw [map_cons, nodup_cons]
    refine ⟨fun hmem => ?_, h.once⟩
    obtain ⟨e', he', heq⟩ := List.mem_map.mp hmem
    exact hother e' he' heq
  · intro fd r hr
    by_cases hfd : fd = e.fd
    · exact ⟨e, mem_cons_self, hfd.symm⟩
    · rw [Function.update_of_ne hfd] at hr
      obtain ⟨e', he', rfl⟩ := h.all fd r hr
      exact ⟨e', mem_cons_of_mem e he', rfl⟩

theorem Mirrors.change (h : Mirrors (e :: entries) registered) (hfd : e'.fd = e.fd) :
    Mirrors (e' :: entries) (Function.update registered e.fd (some e'.registration)) := by
  have hnone : Function.update registered e.fd none e'.fd = none := by
    rw [hfd, Function.update_self]
  have hnonneg : 0 ≤ e'.fd := hfd ▸ h.nonneg e mem_cons_self
  have hadd := h.remove.add hnonneg hnone
  rwa [hfd, Function.update_idem] at hadd

end Mirror

def live (table : List (FdEntry κ δ)) : List (FdEntry κ δ) :=
  table.filter fun e => decide (0 ≤ e.fd)

def dead (table : List (FdEntry κ δ)) : Nat := table.countP fun e => decide (e.fd < 0)

variable (front back : List (FdEntry κ δ))

@[simp] theorem live_append :
    live (front ++ back) = live front ++ live back := filter_append ..

@[simp] theorem dead_append :
    dead (front ++ back) = dead front + dead back := countP_append

variable (e : FdEntry κ δ) (table : List (FdEntry κ δ))

theorem live_cons : live (e :: table) = if 0 ≤ e.fd then e :: live table else live table := by
  by_cases h : 0 ≤ e.fd <;> simp [live, h]

theorem dead_cons : dead (e :: table) = dead table + if e.fd < 0 then 1 else 0 := by
  simp [dead, countP_cons]

variable {e : FdEntry κ δ}

theorem mem_live {table : List (FdEntry κ δ)} : e ∈ live table ↔ e ∈ table ∧ 0 ≤ e.fd := by
  simp [live]

structure TableOk (set : FDSet κ δ) (registered : Int → Option (Registration κ δ)) : Prop where
  mirrors : Mirrors (live set.table) registered
  marks : ∀ e ∈ set.table, 0 ≤ e.fd ∨ e.fd = -1
  counted : dead set.table ≤ set.deletedEntries

section Requests
variable {set : FDSet κ δ} {registered : Int → Option (Registration κ δ)} {fd : Int}

theorem findEntry_split {entry : Nat} (h : findEntry set fd = some entry) :
    ∃ front e back, set.table = front ++ e :: back ∧ front.length = entry ∧ e.fd = fd := by
  obtain ⟨hentry, hfd, -⟩ := List.findIdx?_eq_some_iff_getElem.mp h
  obtain ⟨front, back, htable, hfront⟩ :=
    SwapRemove.split_at (List.getElem?_eq_getElem hentry)
  exact ⟨front, _, back, htable, hfront, of_decide_eq_true hfd⟩

theorem findEntry_none (h : findEntry set fd = none) : ∀ e ∈ set.table, e.fd ≠ fd := by
  intro e he
  simpa using List.findIdx?_eq_none_iff.mp h e he

theorem TableOk.unregistered (h : TableOk set registered) (hfd : fd < 0 ∨ findEntry set fd = none) :
    registered fd = none := by
  cases hr : registered fd with
  | none => rfl
  | some r =>
    obtain ⟨e, he, rfl⟩ := h.mirrors.all fd r hr
    have hnonneg := h.mirrors.nonneg e he
    rcases hfd with hneg | hnone
    · omega
    · exact absurd rfl (findEntry_none hnone e (mem_live.mp he).1)

theorem live_split {front back : List (FdEntry κ δ)} (h : 0 ≤ e.fd) :
    (live (front ++ e :: back)).Perm (e :: (live front ++ live back)) := by
  rw [live_append, live_cons, if_pos h]
  exact perm_middle

theorem fdsetRegister_tableOk (h : TableOk set registered) (hfd : 0 ≤ fd)
    (hnew : registered fd = none) (events : BitVec 16) (callback : κ) (data : δ) (now : Int) :
    TableOk (fdsetRegister set fd events callback data now)
      (Function.update registered fd (some ⟨callback, data, events⟩)) := by
  have hadd := h.mirrors.add (e := ⟨fd, events, 0, callback, data, now⟩) hfd hnew
  refine ⟨hadd.perm ?_, ?_, ?_⟩
  · rw [fdsetRegister, live_append, live_cons, if_pos hfd]
    exact (perm_append_singleton _ _).symm
  · intro e he
    rcases mem_append.mp he with he | he
    · exact h.marks e he
    · rw [mem_singleton.mp he]
      exact .inl hfd
  · have hcounted := h.counted
    rw [fdsetRegister, dead_append, dead_cons, if_neg (by dsimp only; omega)]
    exact hcounted

theorem modify_split (f : FdEntry κ δ → FdEntry κ δ) :
    (front ++ e :: back).modify front.length f = front ++ f e :: back := by
  induction front with
  | nil => rfl
  | cons a front ih =>
    rw [cons_append, length_cons, modify_succ_cons, ih, cons_append]

theorem fdsetListen_split {entry : Nat} (h : findEntry set fd = some entry)
    (mask events : BitVec 16) (now : Int) :
    ∃ front e back, set.table = front ++ e :: back ∧ e.fd = fd ∧
      (fdsetListen set fd mask events now).table =
        front ++ { e with
          events := listenEvents e.events mask events
          revents := if set.scanning then e.revents &&& (events ||| ~~~mask) else e.revents
          time := now } :: back := by
  obtain ⟨front, e, back, htable, rfl, hfd⟩ := findEntry_split h
  refine ⟨front, e, back, htable, hfd, ?_⟩
  rw [fdsetListen, h]
  dsimp only
  rw [htable, modify_split]

variable (mask events : BitVec 16)

theorem deletedEntries_fdsetListen (now : Int) :
    (fdsetListen set fd mask events now).deletedEntries = set.deletedEntries := by
  unfold fdsetListen
  split <;> rfl

theorem dead_fdsetListen (now : Int) :
    dead (fdsetListen set fd mask events now).table = dead set.table := by
  cases hfind : findEntry set fd with
  | none => rw [fdsetListen, hfind]
  | some entry =>
    obtain ⟨front, e, back, htable, -, hlisten⟩ := fdsetListen_split hfind mask events now
    rw [hlisten, htable, dead_append, dead_append, dead_cons, dead_cons]

theorem mem_of_mem_replaced {front back : List α} {a e' : α} (e : α)
    (ha : a ∈ front ++ e' :: back) : a ∈ front ++ e :: back ∨ a = e' := by
  simp only [mem_append, mem_cons] at ha ⊢
  tauto

theorem fdsetListen_tableOk (h : TableOk set registered) (mask events : BitVec 16) (now : Int) :
    TableOk (fdsetListen set fd mask events now)
      (Function.update registered fd
        ((registered fd).map fun r => { r with events := listenEvents r.events mask events })) := by
  cases hfind : findEntry set fd with
  | none =>
    have hnone := h.unregistered (.inr hfind)
    rw [fdsetListen, hfind, hnone, Option.map_none, ← hnone, Function.update_eq_self]
    exact h
  | some entry =>
    obtain ⟨front, e, back, htable, rfl, hlisten⟩ := fdsetListen_split hfind mask events now
    refine ⟨?_, ?_, ?_⟩
    · rw [hlisten]
      by_cases hfd : 0 ≤ e.fd
      · have hmirrors := h.mirrors
        rw [htable] at hmirrors
        have hsplit := hmirrors.perm (live_split hfd)
        rw [hsplit.own e mem_cons_self]
        refine (hsplit.change ?_).perm (live_split ?_).symm
        · rfl
        · exact hfd
      · -- a deleted entry
        have hnone : registered e.fd = none := h.unregistered (.inl (by omega))
        rw [hnone, Option.map_none, ← hnone, Function.update_eq_self]
        have hmirrors := h.mirrors
        rw [htable, live_append, live_cons, if_neg hfd] at hmirrors
        rw [live_append, live_cons, if_neg hfd]
        exact hmirrors
    · rw [hlisten]
      intro a ha
      rcases mem_of_mem_replaced e ha with ha | rfl
      · exact h.marks a (htable ▸ ha)
      · exact h.marks e (htable ▸ mem_append_cons_self)
    · rw [dead_fdsetListen, deletedEntries_fdsetListen]
      exact h.counted

structure Unregistered (set set' : FDSet κ δ) (fd : Int) : Prop where
  split : ∃ front e back, set.table = front ++ e :: back ∧ e.fd = fd ∧
    (live set'.table).Perm (live front ++ live back)
  count : set'.deletedEntries + dead set.table =
    set.deletedEntries + dead set'.table + if fd < 0 then 1 else 0
  left : ∀ a ∈ set'.table, ∃ b ∈ set.table, a = b ∨ a = { b with fd := -1 }

theorem fdsetUnregister_unregistered {entry : Nat} (h : findEntry set fd = some entry) :
    Unregistered set (fdsetUnregister set fd) fd := by
  obtain ⟨front, e, back, htable, rfl, rfl⟩ := findEntry_split h
  rw [fdsetUnregister, h]
  dsimp only
  by_cases hlast : front.length + 1 = set.table.length
  · -- the last entry is dropped at once
    rw [if_pos hlast]
    have hback : back = [] := by
      rw [htable, length_append, length_cons] at hlast
      exact length_eq_zero_iff.mp (by omega)
    subst hback
    have hdrop : set.table.dropLast = front := by rw [htable, dropLast_concat]
    refine ⟨⟨front, e, [], htable, rfl, ?_⟩, ?_, fun a ha => ?_⟩
    · rw [hdrop]
      simp [live]
    · rw [hdrop, htable, dead_append, dead_cons]
      simp only [dead, countP_nil]
      omega
    · rw [hdrop] at ha
      exact ⟨a, htable ▸ mem_append_left _ ha, .inl rfl⟩
  · rw [if_neg hlast]
    by_cases hscan : set.scanning = true
    · -- the entry is marked
      rw [if_pos hscan]
      have hmark : set.table.modify front.length (fun e => { e with fd := -1 }) =
        front ++ { e with fd := -1 } :: back := by rw [htable, modify_split]
      refine ⟨⟨front, e, back, htable, rfl, ?_⟩, ?_, fun a ha => ?_⟩
      · have hneg : ¬ (0 : Int) ≤ -1 := by decide
        rw [hmark, live_append, live_cons, if_neg hneg]
      · have hneg : (-1 : Int) < 0 := by decide
        rw [hmark, htable, dead_append, dead_append, dead_cons, dead_cons]
        simp only [hneg, if_true]
        omega
      · rw [hmark] at ha
        rw [htable]
        rcases mem_of_mem_replaced e ha with ha | rfl
        · exact ⟨a, ha, .inl rfl⟩
        · exact ⟨e, mem_append_cons_self, .inr rfl⟩
    · -- the last entry takes its place
      rw [if_neg hscan]
      obtain ⟨rest, hrest, hperm⟩ := SwapRemove.swapRemove_split front back e
      have hremove : (removeEntry set front.length).table = front ++ rest := by
        rw [removeEntry, htable, hrest]
      have hdead : dead rest = dead back := hperm.countP_eq _
      refine ⟨⟨front, e, back, htable, rfl, ?_⟩, ?_, fun a ha => ?_⟩
      · rw [hremove, live_append]
        exact (hperm.filter _).append_left _
      · rw [hremove, htable, dead_append, dead_append, dead_cons]
        show set.deletedEntries + _ = _
        omega
      · rw [hremove] at ha
        rw [htable]
        rcases mem_append.mp ha with ha | ha
        · exact ⟨a, mem_append_left _ ha, .inl rfl⟩
        · have hmem := hperm.mem_iff.mp ha
          exact ⟨a, mem_append_right _ (mem_cons_of_mem _ hmem), .inl rfl⟩

theorem fdsetUnregister_tableOk (h : TableOk set registered) (fd : Int) :
    TableOk (fdsetUnregister set fd) (Function.update registered fd none) := by
  cases hfind : findEntry set fd with
  | none =>
    have hnone := h.unregistered (.inr hfind)
    rw [fdsetUnregister, hfind, ← hnone, Function.update_eq_self]
    exact h
  | some entry =>
    have hun := fdsetUnregister_unregistered hfind
    obtain ⟨front, e, back, htable, rfl, hperm⟩ := hun.split
    have hmirrors := h.mirrors
    rw [htable] at hmirrors
    refine ⟨?_, fun a ha => ?_, ?_⟩
    · by_cases hfd : 0 ≤ e.fd
      · exact (hmirrors.perm (live_split hfd)).remove.perm hperm.symm
      · have hnone : registered e.fd = none := h.unregistered (.inl (by omega))
        rw [live_append, live_cons, if_neg hfd] at hmirrors
        rw [← hnone, Function.update_eq_self]
        exact hmirrors.perm hperm.symm
    · obtain ⟨b, hb, rfl | rfl⟩ := hun.left a ha
      · exact h.marks a hb
      · exact .inr rfl
    · have hcount := hun.count
      have hcounted := h.counted
      omega

def HitsDeleted (set : FDSet κ δ) : FdRequest κ δ → Prop
  | .unregister fd => fd < 0 ∧ (findEntry set fd).isSome
  | _ => False

instance decidableHitsDeleted (set : FDSet κ δ) (req : FdRequest κ δ) :
    Decidable (HitsDeleted set req) :=
  match req with
  | .register .. => isFalse id
  | .listen .. => isFalse id
  | .unregister fd => inferInstanceAs (Decidable (fd < 0 ∧ (findEntry set fd).isSome))
  | .setTimeout _ => isFalse id

variable {req : FdRequest κ δ}

theorem perform_tableOk (h : TableOk set registered) (hreq : req.Distinct registered) (now : Int) :
    TableOk (set.perform now req) (req.apply registered) := by
  cases req with
  | register fd events callback data =>
    exact fdsetRegister_tableOk h hreq.1 hreq.2 events callback data now
  | listen fd mask events => exact fdsetListen_tableOk h mask events now
  | unregister fd => exact fdsetUnregister_tableOk h fd
  | setTimeout timeout => exact ⟨h.mirrors, h.marks, h.counted⟩

theorem perform_count (hreq : req.Distinct registered) (now : Int) :
    (set.perform now req).deletedEntries + dead set.table =
      set.deletedEntries + dead (set.perform now req).table +
        if HitsDeleted set req then 1 else 0 := by
  cases req with
  | register fd events callback data =>
    have hfd : ¬ fd < 0 := by
      have := hreq.1
      omega
    have hmiss : ¬ HitsDeleted set (.register fd events callback data) := id
    rw [if_neg hmiss, FDSet.perform, fdsetRegister, dead_append]
    simp [hfd, dead]
  | listen fd mask events =>
    rw [FDSet.perform, dead_fdsetListen, deletedEntries_fdsetListen]
    rfl
  | unregister fd =>
    cases hfind : findEntry set fd with
    | none =>
      have hmiss : ¬ HitsDeleted set (.unregister fd) := by simp [HitsDeleted, hfind]
      rw [if_neg hmiss, FDSet.perform, fdsetUnregister, hfind]
      rfl
    | some entry =>
      have hhit : HitsDeleted set (.unregister fd) ↔ fd < 0 := by simp [HitsDeleted, hfind]
      have hcount := (fdsetUnregister_unregistered hfind).count
      rw [FDSet.perform, hcount]
      simp only [hhit]
  | setTimeout timeout => rfl

def pollErr : BitVec 16 := 0x8

def pollErrors : BitVec 16 := 0x38

def EventsWithin (revents events : BitVec 16) : Prop := revents &&& ~~~(events ||| pollErrors) = 0

def ReventsOk (set : FDSet κ δ) : Prop := ∀ e ∈ set.table, EventsWithin e.revents e.events

variable {revents events : BitVec 16}

theorem eventsWithin_iff :
    EventsWithin revents events ↔
      ∀ i < 16, revents.getLsbD i = true →
        events.getLsbD i = true ∨ pollErrors.getLsbD i = true := by
  constructor
  · intro h i hi hbit
    have := congrArg (fun b : BitVec 16 => b.getLsbD i) h
    simpa [hi, hbit, or_iff_not_imp_left] using this
  · intro h
    refine BitVec.eq_of_getLsbD_eq fun i hi => ?_
    cases hbit : revents.getLsbD i with
    | false => simp [hbit]
    | true => rcases h i hi hbit with he | he <;> simp [he]

theorem eventsWithin_listen (h : EventsWithin revents events) (mask new : BitVec 16) :
    EventsWithin (revents &&& (new ||| ~~~mask)) (listenEvents events mask new) := by
  rw [eventsWithin_iff] at h ⊢
  intro i hi hbit
  simp only [BitVec.getLsbD_and, BitVec.getLsbD_or, BitVec.getLsbD_not, Bool.and_eq_true,
    Bool.or_eq_true, decide_eq_true_eq, hi, listenEvents] at hbit ⊢
  rcases h i hi hbit.1 with he | he
  · cases hmask : mask.getLsbD i <;> simp_all
  · exact .inr he

theorem perform_reventsOk (h : ReventsOk set) (hscan : set.scanning = true)
    (req : FdRequest κ δ) (now : Int) : ReventsOk (set.perform now req) := by
  cases req with
  | register fd events callback data =>
    intro e he
    rcases mem_append.mp he with he | he
    · exact h e he
    · rw [mem_singleton.mp he]
      exact BitVec.zero_and
  | listen fd mask events =>
    cases hfind : findEntry set fd with
    | none =>
      rw [FDSet.perform, fdsetListen, hfind]
      exact h
    | some entry =>
      obtain ⟨front, e, back, htable, -, hlisten⟩ := fdsetListen_split hfind mask events now
      intro a ha
      rw [FDSet.perform, hlisten, hscan] at ha
      rcases mem_of_mem_replaced e ha with ha | rfl
      · exact h a (htable ▸ ha)
      · exact eventsWithin_listen (h e (htable ▸ mem_append_cons_self)) mask events
  | unregister fd =>
    cases hfind : findEntry set fd with
    | none =>
      rw [FDSet.perform, fdsetUnregister, hfind]
      exact h
    | some entry =>
      intro a ha
      obtain ⟨b, hb, rfl | rfl⟩ := (fdsetUnregister_unregistered hfind).left a ha
      · exact h a hb
      · exact h b hb
  | setTimeout timeout => exact h

end Requests
end Kannel
