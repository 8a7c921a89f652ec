import Mathlib.Data.List.Forall2
import Kannel.Gw.SmscConnReconfig

/-!
# Restarting with another configuration

Unchanged groups keep their connections, those with other routing directives read them again,
and the rest is added. The test for removal is the wrong way round; the sweep removes every
connection that is not kept.
-/

namespace Kannel
open List

structure RunningConn where
  ref : Nat
  conn : SmscConn

section Restart
variable (re : RegexLib) (getenv : Octstr → Option Octstr) (driver : CfgGroup → Bool)

def smscconnInstances (grp : CfgGroup) : Nat :=
  match cfgGetInteger getenv grp (ascii "instances") with
  | none => 1
  | some i => if i < 0 then 0 else (i % 2 ^ 32).toNat

def instanceRounds (grp : CfgGroup) : Nat := (toInt (smscconnInstances getenv grp)).toNat

def createLoop (mandatory : Bool) (grp : CfgGroup) : (rounds next : Nat) →
    Except Failure (List RunningConn)
  | 0, _ => .ok []
  | rounds + 1, next => do
    let created ← smscconnCreate re getenv driver grp
    if created.isNone ∧ mandatory then throw .assertion
    let rest ← createLoop mandatory grp rounds (next + 1)
    return (created.map (⟨next, ·⟩)).toList ++ rest

def createAll (mandatory : Bool) : (groups : List CfgGroup) → (next : Nat) →
    Except Failure (List RunningConn)
  | [], _ => .ok []
  | grp :: groups, next => do
    let conns ← createLoop re getenv driver mandatory grp (instanceRounds getenv grp) next
    let rest ← createAll mandatory groups (next + instanceRounds getenv grp)
    return conns ++ rest

def smsc2Start (groups : List CfgGroup) : Except Failure (List RunningConn) :=
  createAll re getenv driver true groups 0

structure RestartLists where
  smscList : List RunningConn
  keep : List Nat
  add : List CfgGroup
  remove : List Nat

def cmpConnGrpChecksum (grp : CfgGroup) (c : RunningConn) : Bool :=
  c.conn.chksum = cfgGetGroupChecksum grp []

def cmpRoutGrpChecksum (grp : CfgGroup) (c : RunningConn) : Bool :=
  c.conn.chksumConn = cfgGetGroupChecksum grp routingDirectives

def cmpConnGrpId (grp : CfgGroup) (c : RunningConn) : Bool :=
  (cfgGet getenv grp (ascii "smsc-id")).any fun id => c.conn.id = some id

def reconfigMatching (grp : CfgGroup) : List RunningConn → Except Failure (List RunningConn)
  | [] => .ok []
  | c :: list => do
    let conn ← if cmpRoutGrpChecksum grp c then smscconnReconfig re getenv c.conn grp
      else .ok c.conn
    let rest ← reconfigMatching grp list
    return ⟨c.ref, conn⟩ :: rest

/-- The source notes a connection for removal only if it is noted already. -/
def noteRemoved (remove : List Nat) (ref : Nat) : List Nat :=
  if ref ∈ remove then remove ++ [ref] else remove

/-- One group of the new configuration: the connections of the same group stay, else those that
differ in routing directives only read them again, else the group is to be added. -/
def restartGroup (s : RestartLists) (grp : CfgGroup) : Except Failure RestartLists :=
  let same := s.smscList.filter (cmpConnGrpChecksum grp)
  let rerouted := s.smscList.filter (cmpRoutGrpChecksum grp)
  let sameId := s.smscList.filter (cmpConnGrpId getenv grp)
  if same ≠ [] then .ok { s with keep := s.keep ++ same.map RunningConn.ref }
  else if rerouted ≠ [] then do
    let smscList ← reconfigMatching re getenv grp s.smscList
    return { s with smscList := smscList, keep := s.keep ++ rerouted.map RunningConn.ref }
  else
    .ok { s with
      remove := (sameId.map RunningConn.ref).foldl noteRemoved s.remove
      add := s.add ++ [grp] }

/-- The sweep behind the loop. -/
def sweepConn (keep remove : List Nat) (ref : Nat) : List Nat :=
  if ref ∈ remove ∨ ref ∈ keep then remove else remove ++ [ref]

def deleteConn (list : List RunningConn) (ref : Nat) : List RunningConn :=
  list.eraseP fun c => c.ref = ref

def smsc2GracefulRestart (running : List RunningConn) (groups : List CfgGroup) (next : Nat) :
    Except Failure (List RunningConn) := do
  let s ← groups.foldlM (restartGroup re getenv) ⟨running, [], [], []⟩
  let remove := (s.smscList.map RunningConn.ref).foldl (sweepConn s.keep) s.remove
  let kept := remove.foldl deleteConn s.smscList
  let added ← createAll re getenv driver false s.add next
  return kept ++ added

structure DistinctIds (groups : List CfgGroup) : Prop where
  given : ∀ grp ∈ groups, cfgGet getenv grp (ascii "smsc-id") ≠ none
  distinct : groups.Pairwise fun grp other =>
    cfgGet getenv grp (ascii "smsc-id") ≠ cfgGet getenv other (ascii "smsc-id")

def ChecksumsTell (groups : List CfgGroup) : Prop :=
  ∀ exclude ∈ [[], routingDirectives], ∀ grp ∈ groups, ∀ other ∈ groups,
    cfgGetGroupChecksum grp exclude = cfgGetGroupChecksum other exclude →
      grp.AgreesExcept other exclude

def RunningLater (started running : List RunningConn) : Prop :=
  Forall₂ (fun c later => later.ref = c.ref ∧
    ∃ status whyKilled, later.conn = c.conn.inState status whyKilled) started running

/-- The connections of the new groups and no others, the same objects where only routing
directives have changed. -/
structure Restarted (old new : List CfgGroup) (running result : List RunningConn) : Prop where
  instances : ∀ grp ∈ new,
    (result.filter (cmpConnGrpChecksum grp)).length = smscconnInstances getenv grp
  nothingElse : ∀ c ∈ result, ∃ grp ∈ new, cmpConnGrpChecksum grp c = true
  sameObjects : ∀ before ∈ old, ∀ grp ∈ new, before.AgreesExcept grp routingDirectives →
    (result.filter (cmpConnGrpChecksum grp)).map RunningConn.ref =
      (running.filter (cmpConnGrpChecksum before)).map RunningConn.ref

variable {getenv}

theorem smscconnInstances_lt (grp : CfgGroup) : smscconnInstances getenv grp < 2 ^ 32 := by
  unfold smscconnInstances
  split
  · decide
  · split
    · decide
    · omega

theorem instanceRounds_eq_iff (grp : CfgGroup) :
    instanceRounds getenv grp = smscconnInstances getenv grp ↔
      smscconnInstances getenv grp < 2 ^ 31 := by
  have hlt : smscconnInstances getenv grp < 2 ^ 32 := smscconnInstances_lt grp
  unfold instanceRounds
  generalize smscconnInstances getenv grp = n at hlt ⊢
  constructor
  · intro h
    by_contra hge
    have hneg : toInt n = n - 2 ^ 32 := by
      rw [toInt, Int.bmod_def]
      omega
    omega
  · intro h
    rw [toInt_of_fits (by omega) (by omega)]
    exact Int.toNat_natCast n

theorem not_mem_routingDirectives_instances : ascii "instances" ∉ routingDirectives := by
  decide +kernel

theorem not_mem_routingDirectives_smscId : ascii "smsc-id" ∉ routingDirectives := by
  decide +kernel

variable {grp other : CfgGroup} {list : List RunningConn} {mandatory : Bool}

theorem instanceRounds_congr (h : grp.AgreesExcept other routingDirectives) :
    instanceRounds getenv grp = instanceRounds getenv other := by
  unfold instanceRounds smscconnInstances cfgGetInteger cfgGet
  rw [h.2 _ not_mem_routingDirectives_instances]

theorem smscId_congr (h : grp.AgreesExcept other routingDirectives) :
    cfgGet getenv grp (ascii "smsc-id") = cfgGet getenv other (ascii "smsc-id") := by
  unfold cfgGet
  rw [h.2 _ not_mem_routingDirectives_smscId]

def CreatedFrom (grp : CfgGroup) (c : RunningConn) : Prop :=
  c.conn.chksum = cfgGetGroupChecksum grp [] ∧
    c.conn.chksumConn = cfgGetGroupChecksum grp routingDirectives

variable (getenv) in
inductive Built : List CfgGroup → List RunningConn → Prop
  | nil : Built [] []
  | cons {grp : CfgGroup} {groups : List CfgGroup} {part list : List RunningConn} :
      part.length = instanceRounds getenv grp → (∀ c ∈ part, CreatedFrom grp c) →
      Built groups list → Built (grp :: groups) (part ++ list)

variable {re driver} {groups : List CfgGroup} {running : List RunningConn}

theorem Built.origin (h : Built getenv groups list) :
    ∀ c ∈ list, ∃ grp ∈ groups, CreatedFrom grp c := by
  induction h with
  | nil => exact fun c hc => absurd hc not_mem_nil
  | cons hlen hpart _ ih =>
    intro c hc
    rcases mem_append.mp hc with hc | hc
    · exact ⟨_, mem_cons_self, hpart c hc⟩
    · obtain ⟨grp, hgrp, hc⟩ := ih c hc
      exact ⟨grp, mem_cons_of_mem _ hgrp, hc⟩

variable {p : RunningConn → Bool}

theorem Built.filter_eq_nil (h : Built getenv groups list)
    (hp : ∀ grp ∈ groups, ∀ c, CreatedFrom grp c → ¬ p c = true) : list.filter p = [] := by
  refine filter_eq_nil_iff.mpr fun c hc => ?_
  obtain ⟨grp, hgrp, hfrom⟩ := h.origin c hc
  exact hp grp hgrp c hfrom

theorem Built.count (h : Built getenv groups list) (hgrp : grp ∈ groups) (hnodup : groups.Nodup)
    (hp : ∀ other ∈ groups, ∀ c, CreatedFrom other c → (p c = true ↔ other = grp)) :
    (list.filter p).length = instanceRounds getenv grp := by
  induction h with
  | nil => exact absurd hgrp not_mem_nil
  | @cons first groups part list hlen hpart hrest ih =>
    rw [nodup_cons] at hnodup
    have hpart' : ∀ c ∈ part, (p c = true ↔ first = grp) :=
      fun c hc => hp first mem_cons_self c (hpart c hc)
    rw [filter_append, length_append]
    by_cases hfirst : first = grp
    · subst hfirst
      have hrest' : list.filter p = [] := by
        refine hrest.filter_eq_nil fun other hother c hc hpc => ?_
        have heq := (hp other (mem_cons_of_mem _ hother) c hc).mp hpc
        exact hnodup.1 (heq ▸ hother)
      rw [hrest', filter_eq_self.mpr fun c hc => (hpart' c hc).mpr rfl, hlen,
        length_nil, Nat.add_zero]
    · have hmem : grp ∈ groups := mem_of_ne_of_mem (Ne.symm hfirst) hgrp
      have hnone : part.filter p = [] :=
        filter_eq_nil_iff.mpr fun c hc hpc => hfirst ((hpart' c hc).mp hpc)
      rw [hnone, length_nil, Nat.zero_add]
      exact ih hmem hnodup.2 fun other hother => hp other (mem_cons_of_mem _ hother)

theorem exists_related {α β : Type} {R : α → β → Prop} {as : List α} {bs : List β}
    (h : Forall₂ R as bs) {b : β} (hb : b ∈ bs) : ∃ a ∈ as, R a b := by
  induction h with
  | nil => exact absurd hb not_mem_nil
  | cons hfirst _ ih =>
    rcases mem_cons.mp hb with rfl | hb
    · exact ⟨_, mem_cons_self, hfirst⟩
    · obtain ⟨a, ha, hrel⟩ := ih hb
      exact ⟨a, mem_cons_of_mem _ ha, hrel⟩

theorem refs_eq_of_related {R : RunningConn → RunningConn → Prop} {as bs : List RunningConn}
    (h : Forall₂ R as bs) (hR : ∀ a b, R a b → b.ref = a.ref) :
    bs.map RunningConn.ref = as.map RunningConn.ref := by
  induction h with
  | nil => rfl
  | cons hfirst _ ih => rw [map_cons, map_cons, hR _ _ hfirst, ih]

theorem Built.later (h : Built getenv groups list) (hlater : RunningLater list running) :
    Built getenv groups running := by
  induction h generalizing running with
  | nil =>
    cases hlater
    exact .nil
  | @cons grp groups part list hlen hpart _ ih =>
    have hflip := Forall₂.flip hlater
    rw [← take_append_drop part.length running]
    have htake := (forall₂_take_append running part list hflip).flip
    refine .cons (htake.length_eq.symm.trans hlen) ?_
      (ih (forall₂_drop_append running part list hflip).flip)
    intro c hc
    obtain ⟨before, hbefore, -, status, whyKilled, hstate⟩ := exists_related htake hc
    rw [CreatedFrom, hstate]
    exact hpart before hbefore

theorem createLoop_built
    (hcreate : mandatory = false → ∃ conn, smscconnCreate re getenv driver grp = .ok (some conn))
    (rounds next : Nat) {part : List RunningConn}
    (h : createLoop re getenv driver mandatory grp rounds next = .ok part) :
    part.map RunningConn.ref = range' next rounds ∧ ∀ c ∈ part, CreatedFrom grp c := by
  induction rounds generalizing next part with
  | zero =>
    cases h
    exact ⟨rfl, fun c hc => absurd hc not_mem_nil⟩
  | succ rounds ih =>
    obtain ⟨created, hcreated, h⟩ := bind_eq_ok_iff.mp h
    have hsome : ∃ conn, created = some conn := by
      cases mandatory with
      | false =>
        obtain ⟨conn, hconn⟩ := hcreate rfl
        rw [hcreated] at hconn
        cases hconn
        exact ⟨conn, rfl⟩
      | true =>
        cases created with
        | none => cases h
        | some conn => exact ⟨conn, rfl⟩
    obtain ⟨conn, rfl⟩ := hsome
    obtain ⟨rest, hrest, h⟩ := bind_eq_ok_iff.mp h
    cases h
    obtain ⟨hrefs, hfrom⟩ := ih (next + 1) hrest
    have hreads := smscconnCreate_reads hcreated
    refine ⟨?_, fun c hc => ?_⟩
    · rw [range'_succ, ← hrefs]
      rfl
    · rcases mem_cons.mp hc with rfl | hc
      · exact ⟨hreads.chksum, hreads.chksumConn⟩
      · exact hfrom c hc

theorem createAll_built (next : Nat)
    (hcreate : mandatory = false → ∀ grp ∈ groups,
      ∃ conn, smscconnCreate re getenv driver grp = .ok (some conn))
    (h : createAll re getenv driver mandatory groups next = .ok list) :
    Built getenv groups list ∧ ∃ total, list.map RunningConn.ref = range' next total := by
  induction groups generalizing next list with
  | nil =>
    cases h
    exact ⟨.nil, 0, rfl⟩
  | cons grp groups ih =>
    obtain ⟨part, hpart, h⟩ := bind_eq_ok_iff.mp h
    obtain ⟨rest, hrest, h⟩ := bind_eq_ok_iff.mp h
    cases h
    obtain ⟨hrefs, hfrom⟩ :=
      createLoop_built (fun hm => hcreate hm grp mem_cons_self) _ next hpart
    obtain ⟨hbuilt, total, hrest⟩ :=
      ih _ (fun hm other hother => hcreate hm other (mem_cons_of_mem _ hother)) hrest
    refine ⟨.cons ?_ hfrom hbuilt, instanceRounds getenv grp + total, ?_⟩
    · rw [← length_map (f := RunningConn.ref), hrefs, length_range']
    · rw [map_append, hrefs, hrest, ← range'_append_1]

theorem createLoop_ok {conn : SmscConn}
    (hcreate : smscconnCreate re getenv driver grp = .ok (some conn)) (rounds next : Nat) :
    ∃ part, createLoop re getenv driver mandatory grp rounds next = .ok part := by
  induction rounds generalizing next with
  | zero => exact ⟨[], rfl⟩
  | succ rounds ih =>
    obtain ⟨part, hpart⟩ := ih (next + 1)
    unfold createLoop
    rw [hcreate, ok_bind, hpart]
    exact ⟨_, rfl⟩

theorem createAll_ok : ∀ {groups : List CfgGroup} (next : Nat),
    (∀ grp ∈ groups, ∃ conn, smscconnCreate re getenv driver grp = .ok (some conn)) →
    ∃ list, createAll re getenv driver mandatory groups next = .ok list := by
  intro groups
  induction groups with
  | nil => exact fun _ _ => ⟨[], rfl⟩
  | cons grp groups ih =>
    intro next hcreate
    obtain ⟨conn, hconn⟩ := hcreate grp mem_cons_self
    obtain ⟨part, hpart⟩ := createLoop_ok hconn (instanceRounds getenv grp) next
    obtain ⟨rest, hrest⟩ := ih (next + instanceRounds getenv grp) fun other hother =>
      hcreate other (mem_cons_of_mem _ hother)
    unfold createAll
    rw [hpart, hrest]
    exact ⟨_, rfl⟩

structure TellsApart (new : List CfgGroup) (running : List RunningConn) : Prop where
  nodup : new.Nodup
  groups : ∀ grp ∈ new, ∀ other ∈ new,
    cfgGetGroupChecksum grp [] = cfgGetGroupChecksum other [] → grp = other
  matched : ∀ grp ∈ new, ∀ other ∈ new, ∀ r ∈ running,
    cmpRoutGrpChecksum grp r = true → cmpRoutGrpChecksum other r = true → grp = other
  whole : ∀ grp ∈ new, ∀ r ∈ running,
    cmpConnGrpChecksum grp r = true → cmpRoutGrpChecksum grp r = true
  alike : ∀ grp ∈ new, ∀ r ∈ running, ∀ r' ∈ running,
    cmpRoutGrpChecksum grp r = true → cmpRoutGrpChecksum grp r' = true →
    r.conn.chksum = r'.conn.chksum

theorem DistinctIds.nodup (h : DistinctIds getenv groups) : groups.Nodup :=
  h.distinct.imp fun hne heq => hne (by rw [heq])

theorem DistinctIds.eq_of_smscId (h : DistinctIds getenv groups) (hgrp : grp ∈ groups)
    (hother : other ∈ groups)
    (hid : cfgGet getenv grp (ascii "smsc-id") = cfgGet getenv other (ascii "smsc-id")) :
    grp = other :=
  inj_on_of_nodup_map (pairwise_map.mpr h.distinct) hgrp hother hid

section
variable (h : ChecksumsTell groups) (hgrp : grp ∈ groups) (hother : other ∈ groups)
include h hgrp hother

theorem ChecksumsTell.routing
    (hsum : cfgGetGroupChecksum grp routingDirectives =
      cfgGetGroupChecksum other routingDirectives) :
    grp.AgreesExcept other routingDirectives :=
  h _ (by simp) grp hgrp other hother hsum

theorem ChecksumsTell.whole (hsum : cfgGetGroupChecksum grp [] = cfgGetGroupChecksum other []) :
    grp.AgreesExcept other routingDirectives := by
  have hagrees := h [] (by simp) grp hgrp other hother hsum
  exact ⟨hagrees.1, fun key _ => hagrees.2 key not_mem_nil⟩

end

theorem tellsApart_of_built {old new : List CfgGroup} (hold : DistinctIds getenv old)
    (hnew : DistinctIds getenv new) (htell : ChecksumsTell (old ++ new))
    (hbuilt : Built getenv old running) : TellsApart new running where
  nodup := hnew.nodup
  groups grp hgrp other hother hsum :=
    hnew.eq_of_smscId hgrp hother (smscId_congr
      (htell.whole (mem_append_right _ hgrp) (mem_append_right _ hother) hsum))
  matched grp hgrp other hother r _ hr hr' := by
    have hsum := (of_decide_eq_true hr).symm.trans (of_decide_eq_true hr')
    exact hnew.eq_of_smscId hgrp hother (smscId_congr
      (htell.routing (mem_append_right _ hgrp) (mem_append_right _ hother) hsum))
  whole grp hgrp r hr hsame := by
    obtain ⟨b, hb, hfrom⟩ := hbuilt.origin r hr
    have hsum := hfrom.1.symm.trans (of_decide_eq_true hsame)
    have hagrees := htell.whole (mem_append_left _ hb) (mem_append_right _ hgrp) hsum
    exact decide_eq_true (hfrom.2.trans (cfgGetGroupChecksum_eq hagrees))
  alike grp hgrp r hr r' hr' hmatch hmatch' := by
    obtain ⟨b, hb, hfrom⟩ := hbuilt.origin r hr
    obtain ⟨b', hb', hfrom'⟩ := hbuilt.origin r' hr'
    have hagrees := htell.routing (mem_append_left _ hb) (mem_append_left _ hb')
      (hfrom.2.symm.trans ((of_decide_eq_true hmatch).trans
        ((of_decide_eq_true hmatch').symm.trans hfrom'.2)))
    cases hold.eq_of_smscId hb hb' (smscId_congr hagrees)
    exact hfrom.1.trans hfrom'.1.symm

/-- What has become of the connection `r` when the groups `done` have been considered: it has read
the group that fits it, if there was one. -/
structure Stands (running : List RunningConn) (done : List CfgGroup) (r c : RunningConn) :
    Prop where
  mem : r ∈ running
  ref : c.ref = r.ref
  chksumConn : c.conn.chksumConn = r.conn.chksumConn
  read : ∀ grp ∈ done, cmpRoutGrpChecksum grp r = true → cmpConnGrpChecksum grp c = true
  unread : (∀ grp ∈ done, ¬ cmpRoutGrpChecksum grp r = true) → c.conn.chksum = r.conn.chksum

/-- The invariant of the loop over the groups of the new configuration. -/
structure Considered (running : List RunningConn) (done : List CfgGroup) (s : RestartLists) :
    Prop where
  smscList : Forall₂ (Stands running done) running s.smscList
  keep : ∀ ref, ref ∈ s.keep ↔
    ∃ r ∈ running, r.ref = ref ∧ ∃ grp ∈ done, cmpRoutGrpChecksum grp r = true
  add : s.add = done.filter fun grp => !running.any (cmpRoutGrpChecksum grp)
  remove : s.remove = []

theorem Stands.cmpRout {done : List CfgGroup} {r c : RunningConn} (h : Stands running done r c)
    (grp : CfgGroup) : cmpRoutGrpChecksum grp c = cmpRoutGrpChecksum grp r := by
  unfold cmpRoutGrpChecksum
  rw [h.chksumConn]

section Loop
variable {new done : List CfgGroup} {s : RestartLists} {r c : RunningConn}

theorem Stands.skip (h : Stands running done r c) (hnot : ¬ cmpRoutGrpChecksum grp r = true) :
    Stands running (done ++ [grp]) r c where
  mem := h.mem
  ref := h.ref
  chksumConn := h.chksumConn
  read other hother hmatch := by
    rcases mem_append.mp hother with hother | hother
    · exact h.read other hother hmatch
    · cases mem_singleton.mp hother
      exact absurd hmatch hnot
  unread hnone := h.unread fun other hother => hnone other (mem_append_left _ hother)

theorem Considered.mem_found (h : Considered running done s)
    (hp : ∀ r c, Stands running done r c → (p c = true ↔ cmpRoutGrpChecksum grp r = true))
    (ref : Nat) :
    ref ∈ (s.smscList.filter p).map RunningConn.ref ↔
      ∃ r ∈ running, r.ref = ref ∧ cmpRoutGrpChecksum grp r = true := by
  have hfound := rel_filter (fun r c hrc => (hp r c hrc).symm) h.smscList
  rw [refs_eq_of_related hfound fun _ _ hrc => hrc.ref]
  simp only [List.mem_map, mem_filter]
  constructor
  · rintro ⟨r, ⟨hr, hmatch⟩, href⟩
    exact ⟨r, hr, href, hmatch⟩
  · rintro ⟨r, hr, href, hmatch⟩
    exact ⟨r, ⟨hr, hmatch⟩, href⟩

theorem exists_considered {ref : Nat} :
    (∃ r ∈ running, r.ref = ref ∧ ∃ other ∈ done ++ [grp], cmpRoutGrpChecksum other r = true) ↔
      (∃ r ∈ running, r.ref = ref ∧ ∃ other ∈ done, cmpRoutGrpChecksum other r = true) ∨
        ∃ r ∈ running, r.ref = ref ∧ cmpRoutGrpChecksum grp r = true := by
  simp only [mem_append, mem_singleton, or_and_right, exists_or, exists_eq_left, and_or_left]

theorem Considered.keepFound (h : Considered running done s)
    (hsome : running.any (cmpRoutGrpChecksum grp) = true)
    (hlist : Forall₂ (Stands running (done ++ [grp])) running list) {found : List Nat}
    (hfound : ∀ ref, ref ∈ found ↔ ∃ r ∈ running, r.ref = ref ∧ cmpRoutGrpChecksum grp r = true) :
    Considered running (done ++ [grp]) { s with smscList := list, keep := s.keep ++ found } where
  smscList := hlist
  keep ref := by
    rw [mem_append, h.keep, hfound, exists_considered]
  add := by
    rw [filter_append, ← h.add]
    simp [hsome]
  remove := h.remove

theorem foldl_noteRemoved_nil (refs : List Nat) : refs.foldl noteRemoved [] = [] := by
  induction refs with
  | nil => rfl
  | cons ref refs ih => exact ih

theorem Considered.addGroup (h : Considered running done s)
    (hnone : running.any (cmpRoutGrpChecksum grp) = false) (refs : List Nat) :
    Considered running (done ++ [grp])
      { s with remove := refs.foldl noteRemoved s.remove, add := s.add ++ [grp] } where
  smscList := by
    refine h.smscList.imp fun r c hrc => hrc.skip fun hmatch => ?_
    exact absurd (List.any_eq_true.mpr ⟨r, hrc.mem, hmatch⟩) (by simp [hnone])
  keep ref := by
    rw [h.keep, exists_considered, or_iff_left]
    intro ⟨r, hr, _, hmatch⟩
    exact absurd (List.any_eq_true.mpr ⟨r, hr, hmatch⟩) (by simp [hnone])
  add := by
    rw [filter_append, ← h.add]
    simp [hnone]
  remove := by
    rw [h.remove]
    exact foldl_noteRemoved_nil refs

section Group
variable (htells : TellsApart new running) (hgrp : grp ∈ new)
  (hdone : ∀ other ∈ done, other ∈ new ∧ other ≠ grp)
include htells hgrp hdone

theorem Stands.cmpConn_iff (h : Stands running done r c) :
    cmpConnGrpChecksum grp c = true ↔ cmpConnGrpChecksum grp r = true := by
  by_cases hread : ∃ other ∈ done, cmpRoutGrpChecksum other r = true
  · obtain ⟨other, hother, hmatch⟩ := hread
    obtain ⟨hmem, hne⟩ := hdone other hother
    constructor
    · intro hc
      have hsum := (of_decide_eq_true (h.read other hother hmatch)).symm.trans
        (of_decide_eq_true hc)
      exact absurd (htells.groups other hmem grp hgrp hsum) hne
    · intro hr
      exact absurd (htells.matched other hmem grp hgrp r h.mem hmatch
        (htells.whole grp hgrp r h.mem hr)) hne
  · have hunread := h.unread fun other hother hmatch => hread ⟨other, hother, hmatch⟩
    unfold cmpConnGrpChecksum
    rw [hunread]

theorem Stands.take (h : Stands running done r c) (hmatch : cmpRoutGrpChecksum grp r = true)
    {c' : RunningConn} (href : c'.ref = c.ref)
    (hconn : c'.conn.chksumConn = c.conn.chksumConn) (hsum : cmpConnGrpChecksum grp c' = true) :
    Stands running (done ++ [grp]) r c' where
  mem := h.mem
  ref := href.trans h.ref
  chksumConn := hconn.trans h.chksumConn
  read other hother hmatch' := by
    rcases mem_append.mp hother with hother | hother
    · obtain ⟨hmem, hne⟩ := hdone other hother
      exact absurd (htells.matched other hmem grp hgrp r h.mem hmatch' hmatch) hne
    · cases mem_singleton.mp hother
      exact hsum
  unread hnone := absurd hmatch (hnone grp (mem_append_right _ mem_cons_self))

theorem reconfigMatching_stands {fresh : SmscConn} (hfresh : ReadFrom re getenv grp fresh)
    {rs : List RunningConn} (h : Forall₂ (Stands running done) rs list) :
    ∃ list', reconfigMatching re getenv grp list = .ok list' ∧
      Forall₂ (Stands running (done ++ [grp])) rs list' := by
  induction h with
  | nil => exact ⟨[], rfl, .nil⟩
  | @cons r c rs list hfirst _ ih =>
    obtain ⟨rest, hrest, hstands⟩ := ih
    unfold reconfigMatching
    by_cases hmatch : cmpRoutGrpChecksum grp c = true
    · obtain ⟨conn, hconn⟩ := smscconnReconfig_ok hfresh c.conn
      obtain ⟨hchksum, hchksumConn⟩ := smscconnReconfig_chksums hconn
      refine ⟨⟨c.ref, conn⟩ :: rest, ?_, .cons ?_ hstands⟩
      · rw [if_pos hmatch, hconn, hrest]
        rfl
      · exact hfirst.take htells hgrp hdone (hfirst.cmpRout grp ▸ hmatch) rfl hchksumConn
          (decide_eq_true hchksum)
    · refine ⟨c :: rest, ?_, .cons ?_ hstands⟩
      · rw [if_neg hmatch, hrest]
        rfl
      · exact hfirst.skip (hfirst.cmpRout grp ▸ hmatch)

theorem restartGroup_considered {fresh : SmscConn} (h : Considered running done s)
    (hfresh : ReadFrom re getenv grp fresh) :
    ∃ s', restartGroup re getenv s grp = .ok s' ∧ Considered running (done ++ [grp]) s' := by
  unfold restartGroup
  by_cases hsame : s.smscList.filter (cmpConnGrpChecksum grp) = []
  · rw [if_neg (not_not_intro hsame)]
    by_cases hrerouted : s.smscList.filter (cmpRoutGrpChecksum grp) = []
    · rw [if_neg (not_not_intro hrerouted)]
      refine ⟨_, rfl, h.addGroup ?_ _⟩
      rw [List.any_eq_false]
      intro r hr hmatch
      have hfound := (h.mem_found (p := cmpRoutGrpChecksum grp)
        (fun r c hrc => by rw [hrc.cmpRout]) r.ref).mpr ⟨r, hr, rfl, hmatch⟩
      rw [hrerouted] at hfound
      exact not_mem_nil hfound
    · rw [if_pos hrerouted]
      obtain ⟨list, hlist, hstands⟩ :=
        reconfigMatching_stands htells hgrp hdone hfresh h.smscList
      rw [hlist]
      obtain ⟨c, hc⟩ := exists_mem_of_ne_nil _ hrerouted
      obtain ⟨hc, hmatch⟩ := mem_filter.mp hc
      obtain ⟨r, hr, hrc⟩ := exists_related h.smscList hc
      refine ⟨_, rfl, h.keepFound ?_ hstands (h.mem_found fun r c hrc => by rw [hrc.cmpRout])⟩
      exact List.any_eq_true.mpr ⟨r, hr, hrc.cmpRout grp ▸ hmatch⟩
  · rw [if_pos hsame]
    obtain ⟨c, hc⟩ := exists_mem_of_ne_nil _ hsame
    obtain ⟨hc, hsum⟩ := mem_filter.mp hc
    obtain ⟨r, hr, hrc⟩ := exists_related h.smscList hc
    have hsum := (hrc.cmpConn_iff htells hgrp hdone).mp hsum
    have hmatch := htells.whole grp hgrp r hr hsum
    -- as one connection has the checksum of the group, all that it matches have
    have hall : ∀ r' c', Stands running done r' c' →
        (cmpConnGrpChecksum grp c' = true ↔ cmpRoutGrpChecksum grp r' = true) := by
      intro r' c' hrc'
      rw [hrc'.cmpConn_iff htells hgrp hdone]
      refine ⟨htells.whole grp hgrp r' hrc'.mem, fun hmatch' => ?_⟩
      have halike := htells.alike grp hgrp r' hrc'.mem r hr hmatch' hmatch
      exact decide_eq_true (halike.trans (of_decide_eq_true hsum))
    refine ⟨_, rfl, h.keepFound (List.any_eq_true.mpr ⟨r, hr, hmatch⟩) ?_ (h.mem_found hall)⟩
    refine h.smscList.imp fun r' c' hrc' => ?_
    by_cases hmatch' : cmpRoutGrpChecksum grp r' = true
    · exact hrc'.take htells hgrp hdone hmatch' rfl rfl ((hall r' c' hrc').mpr hmatch')
    · exact hrc'.skip hmatch'

end Group

theorem restartGroups_considered (htells : TellsApart new running)
    (hcreate : ∀ grp ∈ new, ∃ conn, smscconnCreate re getenv driver grp = .ok (some conn))
    (rest done : List CfgGroup) (s : RestartLists) (hsplit : done ++ rest = new)
    (h : Considered running done s) :
    ∃ s', rest.foldlM (restartGroup re getenv) s = .ok s' ∧ Considered running new s' := by
  induction rest generalizing done s with
  | nil =>
    rw [append_nil] at hsplit
    exact ⟨s, rfl, hsplit ▸ h⟩
  | cons grp rest ih =>
    have hgrp : grp ∈ new := hsplit ▸ mem_append_right _ mem_cons_self
    have hdone : ∀ other ∈ done, other ∈ new ∧ other ≠ grp := by
      intro other hother
      refine ⟨hsplit ▸ mem_append_left _ hother, ?_⟩
      have hnodup := hsplit ▸ htells.nodup
      exact (nodup_append.mp hnodup).2.2 other hother grp mem_cons_self
    obtain ⟨conn, hconn⟩ := hcreate grp hgrp
    obtain ⟨s', hs', hconsidered⟩ :=
      restartGroup_considered htells hgrp hdone h (smscconnCreate_reads hconn)
    rw [foldlM_cons, hs']
    exact ih (done ++ [grp]) s' (by rw [append_assoc]; exact hsplit) hconsidered

end Loop

theorem foldl_sweepConn (keep : List Nat) : ∀ (refs remove : List Nat), refs.Nodup →
    (∀ ref ∈ refs, ref ∉ remove) →
    refs.foldl (sweepConn keep) remove = remove ++ refs.filter (· ∉ keep) := by
  intro refs
  induction refs with
  | nil => exact fun remove _ _ => (append_nil remove).symm
  | cons ref refs ih =>
    intro remove hnodup hnew
    obtain ⟨hfirst, hnodup⟩ := nodup_cons.mp hnodup
    have hrest : ∀ other ∈ refs, other ∉ remove :=
      fun other hother => hnew other (mem_cons_of_mem _ hother)
    rw [foldl_cons, sweepConn]
    by_cases hkeep : ref ∈ keep
    · rw [if_pos (.inr hkeep), ih remove hnodup hrest, filter_cons_of_neg (by simpa)]
    · have hnot : ¬ (ref ∈ remove ∨ ref ∈ keep) :=
        fun h => h.elim (hnew ref mem_cons_self) hkeep
      rw [if_neg hnot, ih, filter_cons_of_pos (by simpa), append_assoc]
      · rfl
      · exact hnodup
      · intro other hother hmem
        rcases mem_append.mp hmem with hmem | hmem
        · exact hrest other hother hmem
        · cases mem_singleton.mp hmem
          exact hfirst hother

theorem deleteConn_eq_filter (hnodup : (list.map RunningConn.ref).Nodup) (ref : Nat) :
    deleteConn list ref = list.filter (·.ref ≠ ref) := by
  induction list with
  | nil => rfl
  | cons c list ih =>
    rw [map_cons, nodup_cons] at hnodup
    unfold deleteConn at ih ⊢
    by_cases hc : c.ref = ref
    · rw [eraseP_cons_of_pos (by simpa), filter_cons_of_neg (by simpa)]
      refine (filter_eq_self.mpr fun other hother => ?_).symm
      have hne : other.ref ≠ c.ref := fun heq => hnodup.1 (heq ▸ List.mem_map_of_mem hother)
      simpa [hc] using hne
    · rw [eraseP_cons_of_neg (by simpa), filter_cons_of_pos (by simpa), ih hnodup.2]

theorem nodup_refs_filter (hnodup : (list.map RunningConn.ref).Nodup) (p : RunningConn → Bool) :
    ((list.filter p).map RunningConn.ref).Nodup :=
  hnodup.sublist (filter_sublist.map _)

theorem foldl_deleteConn : ∀ (refs : List Nat) {list : List RunningConn},
    (list.map RunningConn.ref).Nodup →
    refs.foldl deleteConn list = list.filter (·.ref ∉ refs) := by
  intro refs
  induction refs with
  | nil => exact fun _ => by simp
  | cons ref refs ih =>
    intro list hnodup
    rw [foldl_cons, deleteConn_eq_filter hnodup, ih (nodup_refs_filter hnodup _),
      List.filter_filter]
    congr 1
    funext c
    simp only [mem_cons, not_or, Bool.decide_and, Bool.and_comm]

theorem sweep_keeps (hnodup : (list.map RunningConn.ref).Nodup) (keep : List Nat) :
    ((list.map RunningConn.ref).foldl (sweepConn keep) []).foldl deleteConn list =
      list.filter (·.ref ∈ keep) := by
  rw [foldl_sweepConn keep _ [] hnodup (fun _ _ => not_mem_nil), foldl_deleteConn _ hnodup]
  refine filter_congr fun c hc => ?_
  have hmem : c.ref ∈ list.map RunningConn.ref := List.mem_map_of_mem hc
  simp [hmem]

section Whole
variable {old new : List CfgGroup} {s : RestartLists} {added : List RunningConn}

theorem kept_related (htells : TellsApart new running) (h : Considered running new s)
    (hnodup : (running.map RunningConn.ref).Nodup) (hgrp : grp ∈ new) :
    Forall₂ (Stands running new) (running.filter (cmpRoutGrpChecksum grp))
      ((s.smscList.filter (·.ref ∈ s.keep)).filter (cmpConnGrpChecksum grp)) := by
  rw [List.filter_filter]
  refine rel_filter (fun r c hrc => ?_) h.smscList
  simp only [Bool.and_eq_true, decide_eq_true_eq]
  constructor
  · intro hmatch
    exact ⟨hrc.read grp hgrp hmatch, (h.keep _).mpr ⟨r, hrc.mem, hrc.ref.symm, grp, hgrp, hmatch⟩⟩
  · rintro ⟨hsum, hkeep⟩
    obtain ⟨r', hr', href, other, hother, hmatch⟩ := (h.keep _).mp hkeep
    cases inj_on_of_nodup_map hnodup hr' hrc.mem (href.trans hrc.ref)
    have hsums := (of_decide_eq_true (hrc.read other hother hmatch)).symm.trans
      (of_decide_eq_true hsum)
    exact htells.groups other hother grp hgrp hsums ▸ hmatch

theorem added_count (htells : TellsApart new running) (h : Considered running new s)
    (hadded : Built getenv s.add added) (hgrp : grp ∈ new) :
    (added.filter (cmpConnGrpChecksum grp)).length =
      if running.any (cmpRoutGrpChecksum grp) then 0 else instanceRounds getenv grp := by
  have hadd : ∀ other ∈ s.add, other ∈ new ∧ ¬ running.any (cmpRoutGrpChecksum other) = true := by
    intro other hother
    rw [h.add, mem_filter] at hother
    exact ⟨hother.1, by simpa using hother.2⟩
  have hiff : ∀ other ∈ s.add, ∀ c, CreatedFrom other c →
      (cmpConnGrpChecksum grp c = true ↔ other = grp) := by
    intro other hother c hfrom
    unfold cmpConnGrpChecksum
    rw [hfrom.1, decide_eq_true_iff]
    constructor
    · exact htells.groups other (hadd other hother).1 grp hgrp
    · rintro rfl
      rfl
  by_cases hany : running.any (cmpRoutGrpChecksum grp) = true
  · rw [if_pos hany, hadded.filter_eq_nil, length_nil]
    intro other hother c hfrom hsum
    exact (hadd other hother).2 ((hiff other hother c hfrom).mp hsum ▸ hany)
  · rw [if_neg hany]
    refine hadded.count ?_ ?_ hiff
    · rw [h.add, mem_filter]
      exact ⟨hgrp, by simpa using hany⟩
    · rw [h.add]
      exact htells.nodup.filter _

theorem running_count (hold : DistinctIds getenv old) (htell : ChecksumsTell (old ++ new))
    (hbuilt : Built getenv old running) {before : CfgGroup} (hbefore : before ∈ old)
    (hagrees : before.AgreesExcept grp routingDirectives) :
    (running.filter (cmpRoutGrpChecksum grp)).length = instanceRounds getenv grp := by
  rw [← instanceRounds_congr hagrees]
  refine hbuilt.count hbefore hold.nodup fun other hother c hfrom => ?_
  unfold cmpRoutGrpChecksum
  rw [hfrom.2, decide_eq_true_iff, ← cfgGetGroupChecksum_eq hagrees]
  constructor
  · intro hsum
    exact hold.eq_of_smscId hother hbefore (smscId_congr
      (htell.routing (mem_append_left _ hother) (mem_append_left _ hbefore) hsum))
  · rintro rfl
    rfl

theorem restarted_iff (hold : DistinctIds getenv old) (htell : ChecksumsTell (old ++ new))
    (htells : TellsApart new running) (hbuilt : Built getenv old running)
    (hnodup : (running.map RunningConn.ref).Nodup) (h : Considered running new s)
    (hadded : Built getenv s.add added) :
    Restarted getenv old new running (s.smscList.filter (·.ref ∈ s.keep) ++ added) ↔
      ∀ grp ∈ new, smscconnInstances getenv grp < 2 ^ 31 := by
  have hrefs : ∀ grp ∈ new, ((s.smscList.filter (·.ref ∈ s.keep)).filter
      (cmpConnGrpChecksum grp)).map RunningConn.ref =
        (running.filter (cmpRoutGrpChecksum grp)).map RunningConn.ref := by
    intro grp hgrp
    exact refs_eq_of_related (kept_related htells h hnodup hgrp) fun _ _ hrc => hrc.ref
  -- a group that matches some connection agrees with an old one
  have horigin : ∀ grp ∈ new, running.any (cmpRoutGrpChecksum grp) = true →
      ∃ before ∈ old, before.AgreesExcept grp routingDirectives := by
    intro grp hgrp hany
    obtain ⟨r, hr, hmatch⟩ := List.any_eq_true.mp hany
    obtain ⟨before, hbefore, hfrom⟩ := hbuilt.origin r hr
    exact ⟨before, hbefore, htell.routing (mem_append_left _ hbefore)
      (mem_append_right _ hgrp) (hfrom.2.symm.trans (of_decide_eq_true hmatch))⟩
  have hcount : ∀ grp ∈ new, ((s.smscList.filter (·.ref ∈ s.keep) ++ added).filter
      (cmpConnGrpChecksum grp)).length = instanceRounds getenv grp := by
    intro grp hgrp
    rw [filter_append, length_append, added_count htells h hadded hgrp,
      ← (kept_related htells h hnodup hgrp).length_eq]
    by_cases hany : running.any (cmpRoutGrpChecksum grp) = true
    · obtain ⟨before, hbefore, hagrees⟩ := horigin grp hgrp hany
      rw [if_pos hany, running_count hold htell hbuilt hbefore hagrees, Nat.add_zero]
    · rw [if_neg hany, filter_eq_nil_iff.mpr, length_nil, Nat.zero_add]
      exact fun r hr hmatch => hany (List.any_eq_true.mpr ⟨r, hr, hmatch⟩)
  have hinstances : (∀ grp ∈ new, instanceRounds getenv grp = smscconnInstances getenv grp) ↔
      ∀ grp ∈ new, smscconnInstances getenv grp < 2 ^ 31 :=
    forall₂_congr fun grp _ => instanceRounds_eq_iff grp
  rw [← hinstances]
  constructor
  · intro hrestarted grp hgrp
    exact (hcount grp hgrp).symm.trans (hrestarted.instances grp hgrp)
  · intro hfits
    refine ⟨fun grp hgrp => (hcount grp hgrp).trans (hfits grp hgrp), fun c hc => ?_, ?_⟩
    · rcases mem_append.mp hc with hc | hc
      · obtain ⟨hc, hkeep⟩ := mem_filter.mp hc
        obtain ⟨r, -, hrc⟩ := exists_related h.smscList hc
        obtain ⟨r', hr', href, grp, hgrp, hmatch⟩ := (h.keep _).mp (of_decide_eq_true hkeep)
        cases inj_on_of_nodup_map hnodup hr' hrc.mem (href.trans hrc.ref)
        exact ⟨grp, hgrp, hrc.read grp hgrp hmatch⟩
      · obtain ⟨grp, hgrp, hfrom⟩ := hadded.origin c hc
        rw [h.add, mem_filter] at hgrp
        exact ⟨grp, hgrp.1, decide_eq_true hfrom.1⟩
    · intro before hbefore grp hgrp hagrees
      have hfound := running_count hold htell hbuilt hbefore hagrees
      have hnone : added.filter (cmpConnGrpChecksum grp) = [] := by
        rw [← length_eq_zero_iff, added_count htells h hadded hgrp]
        split
        · rfl
        · rename_i hany
          rw [← hfound, length_eq_zero_iff, filter_eq_nil_iff]
          exact fun r hr hmatch => hany (List.any_eq_true.mpr ⟨r, hr, hmatch⟩)
      have hsame : running.filter (cmpConnGrpChecksum before) =
          running.filter (cmpRoutGrpChecksum grp) := by
        refine filter_congr fun r hr => ?_
        obtain ⟨other, hother, hfrom⟩ := hbuilt.origin r hr
        have hmemBefore := mem_append_left new hbefore
        have hmemOther := mem_append_left new hother
        unfold cmpConnGrpChecksum cmpRoutGrpChecksum
        rw [hfrom.1, hfrom.2, ← cfgGetGroupChecksum_eq hagrees, decide_eq_decide]
        constructor
        · intro hsum
          exact cfgGetGroupChecksum_eq (htell.whole hmemOther hmemBefore hsum)
        · intro hsum
          rw [hold.eq_of_smscId hother hbefore
            (smscId_congr (htell.routing hmemOther hmemBefore hsum))]
      rw [filter_append, hnone, append_nil, hrefs grp hgrp, hsame]

end Whole

/-- **A graceful restart** leaves exactly the connections of the new groups, and keeps those
whose connection part is unchanged, unless a number of instances does not fit into an `int`. -/
theorem smsc2GracefulRestart_restarted_iff (re : RegexLib) (getenv : Octstr → Option Octstr)
    (driver : CfgGroup → Bool) {old new : List CfgGroup} {started running : List RunningConn}
    (hold : DistinctIds getenv old) (hnew : DistinctIds getenv new)
    (htell : ChecksumsTell (old ++ new)) (hstart : smsc2Start re getenv driver old = .ok started)
    (hlater : RunningLater started running)
    (hcreate : ∀ grp ∈ new, ∃ conn, smscconnCreate re getenv driver grp = .ok (some conn))
    (next : Nat) :
    ∃ result, smsc2GracefulRestart re getenv driver running new next = .ok result ∧
      (Restarted getenv old new running result ↔
        ∀ grp ∈ new, smscconnInstances getenv grp < 2 ^ 31) := by
  obtain ⟨hstarted, total, hrange⟩ := createAll_built 0 (fun h => by cases h) hstart
  have hbuilt := hstarted.later hlater
  have hnodup : (running.map RunningConn.ref).Nodup := by
    rw [refs_eq_of_related hlater fun _ _ h => h.1, hrange]
    exact nodup_range'
  have htells := tellsApart_of_built hold hnew htell hbuilt
  have hinitial : Considered running [] ⟨running, [], [], []⟩ := by
    refine ⟨forall₂_same.mpr fun r hr => ?_, fun ref => ?_, rfl, rfl⟩
    · exact ⟨hr, rfl, rfl, fun grp hgrp => absurd hgrp not_mem_nil, fun _ => rfl⟩
    · simp
  obtain ⟨s, hs, hconsidered⟩ := restartGroups_considered htells hcreate new [] _ rfl hinitial
  have hadd : ∀ grp ∈ s.add, ∃ conn, smscconnCreate re getenv driver grp = .ok (some conn) := by
    intro grp hgrp
    rw [hconsidered.add] at hgrp
    exact hcreate grp (mem_of_mem_filter hgrp)
  obtain ⟨added, hadded⟩ : ∃ added,
      createAll re getenv driver false s.add next = .ok added := createAll_ok next hadd
  obtain ⟨haddedBuilt, -⟩ := createAll_built next (fun _ => hadd) hadded
  have hsweep : (s.smscList.map RunningConn.ref).Nodup := by
    rw [refs_eq_of_related hconsidered.smscList fun _ _ hrc => hrc.ref]
    exact hnodup
  refine ⟨s.smscList.filter (·.ref ∈ s.keep) ++ added, ?_,
    restarted_iff hold htell htells hbuilt hnodup hconsidered haddedBuilt⟩
  unfold smsc2GracefulRestart
  rw [hs, ok_bind]
  dsimp only
  rw [hadded, hconsidered.remove, sweep_keeps hsweep]
  rfl

end Restart

def fakeRestart (running : List RunningConn) (groups : List CfgGroup) :
    Except Failure (List RunningConn) :=
  smsc2GracefulRestart permissiveRegex (fun _ => none) (fun _ => true) running groups 100

theorem distinctIds_singleton (h : cfgGet (fun _ => none) grp (ascii "smsc-id") ≠ none) :
    DistinctIds (fun _ => none) [grp] where
  given _ hother := mem_singleton.mp hother ▸ h
  distinct := pairwise_singleton _ _

theorem changedPrefix_restarted : ∃ started result,
    smsc2Start permissiveRegex (fun _ => none) (fun _ => true) [fakeGroupWith "allowed-prefix"] =
      .ok started ∧
    fakeRestart started [fakeGroup] = .ok result ∧
    Restarted (fun _ => none) [fakeGroupWith "allowed-prefix"] [fakeGroup] started result := by
  obtain ⟨started, hstarted, -⟩ : ∃ started, smsc2Start permissiveRegex (fun _ => none)
      (fun _ => true) [fakeGroupWith "allowed-prefix"] = .ok started ∧ started.length = 1 := by
    decide +kernel
  have hdiffer : (fakeGroupWith "allowed-prefix").AgreesExcept fakeGroup routingDirectives :=
    cfgSet_agreesExcept fakeGroup _ (by decide +kernel)
  have hsums : cfgGetGroupChecksum (fakeGroupWith "allowed-prefix") [] ≠
      cfgGetGroupChecksum fakeGroup [] := by
    decide +kernel
  have htell : ChecksumsTell ([fakeGroupWith "allowed-prefix"] ++ [fakeGroup]) := by
    intro exclude hexclude grp hgrp other hother hsum
    simp only [mem_append, mem_cons, not_mem_nil, or_false] at hexclude hgrp hother
    rcases hgrp with rfl | rfl
    · rcases hother with rfl | rfl
      · exact ⟨rfl, fun _ _ => rfl⟩
      · rcases hexclude with rfl | rfl
        · exact absurd hsum hsums
        · exact hdiffer
    · rcases hother with rfl | rfl
      · rcases hexclude with rfl | rfl
        · exact absurd hsum.symm hsums
        · exact hdiffer.symm
      · exact ⟨rfl, fun _ _ => rfl⟩
  have hlater : RunningLater started started :=
    forall₂_same.mpr fun c _ => ⟨rfl, c.conn.status, c.conn.whyKilled, rfl⟩
  have hcreate : ∀ grp ∈ [fakeGroup], ∃ conn, fakeCreate grp = .ok (some conn) := by
    intro grp hgrp
    cases mem_singleton.mp hgrp
    decide +kernel
  obtain ⟨result, hresult, hiff⟩ := smsc2GracefulRestart_restarted_iff permissiveRegex
    (fun _ => none) (fun _ => true) (distinctIds_singleton (by decide +kernel))
    (distinctIds_singleton (by decide +kernel)) htell hstarted hlater hcreate 100
  refine ⟨started, result, hstarted, hresult, hiff.mpr fun grp hgrp => ?_⟩
  cases mem_singleton.mp hgrp
  decide +kernel

def hugeGroup : CfgGroup := cfgSet fakeGroup (ascii "instances") (ascii "2147483648")

theorem hugeGroup_not_restarted :
    smscconnInstances (fun _ => none) hugeGroup = 2147483648 ∧
    (∃ conn, fakeCreate hugeGroup = .ok (some conn)) ∧
    DistinctIds (fun _ => none) [hugeGroup] ∧ ChecksumsTell ([] ++ [hugeGroup]) ∧
    smsc2Start permissiveRegex (fun _ => none) (fun _ => true) [] = .ok [] ∧
    fakeRestart [] [hugeGroup] = .ok [] ∧
    ¬ Restarted (fun _ => none) [] [hugeGroup] [] [] := by
  have hinstances : smscconnInstances (fun _ => none) hugeGroup = 2147483648 := by
    decide +kernel
  refine ⟨hinstances, by decide +kernel,
    distinctIds_singleton (by decide +kernel), ?_, rfl, ?_, fun hrestarted => ?_⟩
  · intro exclude _ grp hgrp other hother _
    cases mem_singleton.mp hgrp
    cases mem_singleton.mp hother
    exact ⟨rfl, fun _ _ => rfl⟩
  · obtain ⟨result, hresult, rfl⟩ : ∃ result, fakeRestart [] [hugeGroup] = .ok result ∧
        result = [] := by decide +kernel
    exact hresult
  · have hcount := hrestarted.instances hugeGroup mem_cons_self
    cases hcount

end Kannel
