import Kannel.Gw.SmsBoxHandle
import Kannel.Gw.StoreFileSync

/-!
# The identifiers of one request

Every receiver gets a copy of one message, with its identifier unless it is split; even then the
last part keeps it.
-/

namespace Kannel
open List

structure RequestStore where
  smsDict : Dict Sms 2048
  arrived : List Nat
  acked : List Nat

inductive StoreEvent
  | save (env : Surroundings) (i : Nat)
  | ack (env : Surroundings) (i : Nat) (status : AckStatus)

namespace RequestStore

def step (written : List Sms) (s : RequestStore) : StoreEvent → Option RequestStore
  | .save env i =>
    if i ∈ s.arrived then none
    else
      written[i]?.bind fun msg =>
        (storeToDict env s.smsDict (.sms msg)).map fun r =>
          { s with smsDict := r.2, arrived := i :: s.arrived }
  | .ack env i status =>
    if i ∉ s.arrived ∨ i ∈ s.acked then none
    else
      written[i]?.bind fun msg =>
        (storeToDict env s.smsDict (.ack ⟨status.code, msg.time, msg.id⟩)).map fun r =>
          { s with smsDict := r.2, acked := i :: s.acked }

def start (smsDict : Dict Sms 2048) : RequestStore := ⟨smsDict, [], []⟩

def KeepsEach (written : List Sms) (s : RequestStore) : Prop :=
  ∀ i ∈ s.arrived, i ∉ s.acked → ∀ msg, written[i]? = some msg →
    ∃ env, dictGet s.smsDict (uuidUnparse msg.id) = some (stamp env msg)

variable {written : List Sms} {s s' : RequestStore} {env : Surroundings}

theorem step_save {i : Nat} (h : s.step written (.save env i) = some s') :
    ∃ msg, written[i]? = some msg ∧ i ∉ s.arrived ∧
      s' = { s with
        smsDict := dictPut s.smsDict (uuidUnparse (stamp env msg).id) (some (stamp env msg))
        arrived := i :: s.arrived } := by
  obtain ⟨harrived, h⟩ := Option.ite_none_left_eq_some.mp h
  obtain ⟨msg, hmsg, h⟩ := Option.bind_eq_some_iff.mp h
  obtain ⟨r, hr, rfl⟩ := Option.map_eq_some_iff.mp h
  obtain rfl := Option.some.inj hr
  exact ⟨msg, hmsg, harrived, rfl⟩

theorem step_ack {i : Nat} {status : AckStatus} (h : s.step written (.ack env i status) = some s') :
    ∃ msg, written[i]? = some msg ∧
      s' = { s with
        smsDict := (dictRemove s.smsDict (uuidUnparse msg.id)).2
        acked := i :: s.acked } := by
  obtain ⟨-, h⟩ := Option.ite_none_left_eq_some.mp h
  obtain ⟨msg, hmsg, h⟩ := Option.bind_eq_some_iff.mp h
  obtain ⟨r, hr, rfl⟩ := Option.map_eq_some_iff.mp h
  obtain rfl := Option.some.inj hr
  exact ⟨msg, hmsg, rfl⟩

theorem id_stamp {msg : Sms} (h : uuidIsNull msg.id = false) : (stamp env msg).id = msg.id := by
  unfold stamp
  simp only [h, Bool.false_eq_true, if_false]
  split_ifs <;> rfl

section
variable (hids : (written.map Sms.id).Nodup)
include hids

theorem key_ne_of_nodup {i j : Nat} {m m' : Sms} (hm : written[i]? = some m)
    (hm' : written[j]? = some m') (hne : i ≠ j) :
    uuidUnparse m.id ≠ uuidUnparse m'.id := by
  intro heq
  have hid : m.id = m'.id := uuidUnparse_injective heq
  obtain ⟨hi, rfl⟩ := List.getElem?_eq_some_iff.mp hm
  obtain ⟨hj, rfl⟩ := List.getElem?_eq_some_iff.mp hm'
  have hsame : (written.map Sms.id).get ⟨i, by simpa using hi⟩ =
    (written.map Sms.id).get ⟨j, by simpa using hj⟩ := by simpa using hid
  exact hne (hids.getElem_inj_iff.mp hsame)

theorem keepsEach_step (hnull : ∀ msg ∈ written, uuidIsNull msg.id = false) {e : StoreEvent}
    (hs : s.KeepsEach written) (h : s.step written e = some s') : s'.KeepsEach written := by
  intro i hi hacked msg hmsg
  cases e with
  | save env j =>
    obtain ⟨msg', hmsg', -, rfl⟩ := step_save h
    have hid : (stamp env msg').id = msg'.id :=
      id_stamp (hnull msg' (mem_of_getElem? hmsg'))
    rw [dictGet_dictPut, hid]
    by_cases hij : i = j
    · subst hij
      obtain rfl := Option.some.inj (hmsg.symm.trans hmsg')
      exact ⟨env, if_pos rfl⟩
    · obtain ⟨env', hget⟩ := hs i ((mem_cons.mp hi).resolve_left hij) hacked msg hmsg
      exact ⟨env', by rw [if_neg (key_ne_of_nodup hids hmsg hmsg' hij), hget]⟩
  | ack env j status =>
    obtain ⟨msg', hmsg', rfl⟩ := step_ack h
    obtain ⟨hij, hacked⟩ := not_or.mp (mem_cons.not.mp hacked)
    obtain ⟨env', hget⟩ := hs i hi hacked msg hmsg
    refine ⟨env', ?_⟩
    rw [dictGet_dictRemove, if_neg (key_ne_of_nodup hids hmsg hmsg' hij), hget]

theorem keepsEach_run (hnull : ∀ msg ∈ written, uuidIsNull msg.id = false) {smsDict : Dict Sms 2048}
    {trace : List (RequestStore × StoreEvent)}
    (hrun : Machine.Run (step written) (start smsDict) trace s) : s.KeepsEach written := by
  refine hrun.invariant (I := KeepsEach written) ?_ fun _ _ _ hs h =>
    keepsEach_step hids hnull hs h
  intro i hi
  exact absurd hi not_mem_nil

end

theorem displaced_of_same_id {msg msg' : Sms} (hmsg : written[0]? = some msg)
    (hmsg' : written[1]? = some msg') (hid : msg.id = msg'.id) (env : Surroundings)
    (smsDict : Dict Sms 2048) :
    ∃ trace s, Machine.Run (step written) (start smsDict) trace s ∧ ¬ s.KeepsEach written := by
  let events : List StoreEvent := [.save env 0, .save env 1, .ack env 1 .success]
  have hexec : ∃ trace s, Machine.exec (step written) (start smsDict) events = some (trace, s) ∧
      0 ∈ s.arrived ∧ 0 ∉ s.acked ∧ dictGet s.smsDict (uuidUnparse msg'.id) = none := by
    simp [events, Machine.exec, step, start, hmsg, hmsg', storeToDict, dictGet_dictRemove]
  obtain ⟨trace, s, hrun, harrived, hacked, hget⟩ := hexec
  refine ⟨trace, s, Machine.run_of_exec hrun, fun hkeeps => ?_⟩
  obtain ⟨env', hmem⟩ := hkeeps 0 harrived hacked msg hmsg
  rw [hid, hget] at hmem
  cases hmem

end RequestStore

variable {conf : HandleConf} {env : HandleEnv} {t : UrlTranslation} {counter : Nat}
  {r : SendsmsFields} {handled : Handled}

/-- The identifiers are distinct, and a store keyed by them keeps each message until it is
acknowledged. -/
structure DistinctlyStored (written : List Sms) : Prop where
  ids : (written.map Sms.id).Nodup
  kept : ∀ smsDict trace s,
    Machine.Run (RequestStore.step written) (RequestStore.start smsDict) trace s →
      s.KeepsEach written

def drawnIds (env : HandleEnv) (n : Nat) : List Uuid :=
  (range n).map fun j => uuidGenerate (env.entropy j)

theorem length_drawnIds (env : HandleEnv) (n : Nat) : (drawnIds env n).length = n := by
  simp [drawnIds]

theorem partIds_perm_drawnIds {m : Sms} (hid : m.id = uuidGenerate (env.entropy 0)) (n : Nat) :
    (partIds m (fun round => env.entropy (0 + round)) 0 (n + 1)).Perm (drawnIds env (n + 1)) := by
  have hdrawn : drawnIds env (n + 1) =
      m.id :: (range n).map fun j => uuidGenerate (env.entropy (0 + (0 + 1 + j))) := by
    simp only [drawnIds, range_succ_eq_map, map_cons, List.map_map, hid]
    refine congrArg _ (map_congr_left fun j _ => ?_)
    rw [Function.comp_apply, show 0 + (0 + 1 + j) = j.succ by omega]
  rw [hdrawn, partIds]
  exact perm_append_singleton _ _

theorem not_nodup_of_two {p q : Octstr × Sent} {rest : List (Octstr × Sent)} {id : Uuid}
    (hp : id ∈ p.2.written.map Sms.id) (hq : id ∈ q.2.written.map Sms.id) :
    ¬ (((p :: q :: rest).flatMap (·.2.written)).map Sms.id).Nodup := by
  intro h
  rw [flatMap_cons, flatMap_cons, map_append, map_append] at h
  exact (disjoint_of_nodup_append h) hp (mem_append_left _ hq)

theorem ids_one_receiver {sendConf : SendConf} {msg : Sms} {receiv : Octstr}
    {sents : List (Octstr × Sent)} (hmax : maxMsgs (some t) ≠ 0) (hpush : msg.smsType = mtPush)
    (hid : msg.id = uuidGenerate (env.entropy 0))
    (h : sendToAll sendConf env t 0 0 counter msg [receiv] = .ok sents) :
    ((sents.flatMap (·.2.written)).map Sms.id).Perm
      (drawnIds env (sents.flatMap (·.2.written)).length) := by
  obtain ⟨sent, rest, hsent, hrest, rfl⟩ := sendToAll_cons h
  cases hrest
  obtain ⟨-, hdropped | ⟨-, hparts⟩⟩ := sendMessage_ids hsent
  · rcases hdropped.2 with hzero | hreply
    · exact absurd hzero hmax
    · exact absurd (hpush.symm.trans hreply) (by decide)
  · rw [flatMap_singleton, ← length_map Sms.id, hparts.ids]
    split_ifs
    · rw [hid]
      exact Perm.refl _
    · have hperm := partIds_perm_drawnIds (m := { msg with
        receiver := some receiv, time := env.clock 0 }) hid sent.drawn
      rw [hperm.length_eq, length_drawnIds]
      exact hperm

def allowedReceivers (conf : HandleConf) (t : UrlTranslation) (r : SendsmsFields) : List Octstr :=
  match requestReceivers r with
  | .ok receivers => (screenReceivers conf t receivers).allowed
  | .error _ => []

theorem distinctlyStored_of_perm {written : List Sms} {n : Nat}
    (hperm : (written.map Sms.id).Perm (drawnIds env n)) :
    DistinctlyStored written ↔ (drawnIds env n).Nodup := by
  constructor
  · intro h
    exact hperm.nodup_iff.mp h.ids
  · intro h
    have hids : (written.map Sms.id).Nodup := hperm.nodup_iff.mpr h
    refine ⟨hids, fun smsDict trace s hrun => RequestStore.keepsEach_run hids ?_ hrun⟩
    intro msg hmsg
    have hmem : msg.id ∈ drawnIds env n := hperm.mem_iff.mp (List.mem_map_of_mem hmsg)
    obtain ⟨j, -, hj⟩ := List.mem_map.mp hmem
    rw [← hj]
    exact uuidIsNull_uuidGenerate _

/-- **The messages of a request are told apart** exactly if nothing is written or there is one
receiver only, and the identifiers drawn are distinct. -/
theorem sendsms_ids_distinct_iff (h : smsboxReqHandle conf env t counter r = .ok handled)
    (haccepted : handled.status = httpAccepted) :
    DistinctlyStored handled.written ↔
      (maxMsgs (some t) = 0 ∨ (allowedReceivers conf t r).length ≤ 1) ∧
        (drawnIds env handled.written.length).Nodup := by
  obtain ⟨receivers, hreceivers, ⟨text, -, rfl⟩ | ⟨lists, msg, sents, hchecked, hsents, -,
    hwritten, -⟩⟩ := smsboxReqHandle_cases h
  · exact absurd haccepted (by decide : httpBadRequest ≠ httpAccepted)
  obtain ⟨rfl, hne, hid, hpush⟩ := checkedRequest_ok hchecked
  have hallowed : allowedReceivers conf t r = (screenReceivers conf t receivers).allowed := by
    rw [allowedReceivers, hreceivers]
  rw [hallowed, hwritten]
  by_cases hmax : maxMsgs (some t) = 0
  · have hnil : sents.flatMap (·.2.written) = [] :=
      flatMap_eq_nil_iff.mpr fun p hp => (sendToAll_denied hmax hsents p hp).written
    have hdrawn : (([] : List Sms).map Sms.id).Perm (drawnIds env 0) := Perm.refl _
    rw [hnil, distinctlyStored_of_perm hdrawn]
    exact ⟨fun hnodup => ⟨.inl hmax, hnodup⟩, And.right⟩
  · obtain ⟨hfst, hall⟩ := sendToAll_sends hmax hpush hsents
    have hmem : ∀ p ∈ sents, msg.id ∈ p.2.written.map Sms.id := by
      intro p hp
      obtain ⟨drawn, m, hm, hparts⟩ := hall p hp
      exact hm ▸ hparts.id_mem
    match hlist : (screenReceivers conf t receivers).allowed, sents with
    | [], _ => exact absurd hlist hne
    | [receiv], sents =>
      rw [hlist] at hsents
      rw [distinctlyStored_of_perm (ids_one_receiver hmax hpush hid hsents)]
      exact ⟨fun hnodup => ⟨.inr le_rfl, hnodup⟩, And.right⟩
    | _ :: _ :: _, p :: q :: rest =>
      refine iff_of_false (fun hstored => ?_) (fun hcond => ?_)
      · exact not_nodup_of_two (hmem p (by simp)) (hmem q (by simp)) hstored.ids
      · rcases hcond.1 with hzero | hle
        · exact hmax hzero
        · simp at hle
    | _ :: _ :: _, [p] | _ :: _ :: _, [] => simp [hlist] at hfst

theorem oneReceiver_distinct :
    ∃ handled, smsboxReqHandle {} plainEnv plainUser 0 (requestTo "1") = .ok handled ∧
      handled.written.length = 1 ∧ DistinctlyStored handled.written := by
  obtain ⟨handled, hhandled, haccepted, hlength⟩ :
      ∃ handled, smsboxReqHandle {} plainEnv plainUser 0 (requestTo "1") = .ok handled ∧
        handled.status = httpAccepted ∧ handled.written.length = 1 := by
    decide +kernel
  refine ⟨handled, hhandled, hlength, (sendsms_ids_distinct_iff hhandled haccepted).mpr ?_⟩
  rw [hlength]
  exact ⟨.inr (by decide +kernel), nodup_singleton _⟩

/-- The store loses the first message when the second is acknowledged. -/
theorem twoReceivers_displaced :
    ∃ handled, smsboxReqHandle {} plainEnv plainUser 0 (requestTo "1 2") = .ok handled ∧
      handled.status = httpAccepted ∧
      handled.written.map Sms.receiver = [some (ascii "1"), some (ascii "2")] ∧
      ¬ (handled.written.map Sms.id).Nodup ∧
      ∃ trace s, Machine.Run (RequestStore.step handled.written)
        (RequestStore.start (dictCreate Sms 1024)) trace s ∧ ¬ s.KeepsEach handled.written := by
  obtain ⟨handled, hhandled, haccepted, hreceivers, hids⟩ :
      ∃ handled, smsboxReqHandle {} plainEnv plainUser 0 (requestTo "1 2") = .ok handled ∧
        handled.status = httpAccepted ∧
        handled.written.map Sms.receiver = [some (ascii "1"), some (ascii "2")] ∧
        handled.written.map Sms.id =
          [uuidGenerate (plainEnv.entropy 0), uuidGenerate (plainEnv.entropy 0)] := by
    decide +kernel
  refine ⟨handled, hhandled, haccepted, hreceivers, ?_, ?_⟩
  · rw [hids]
    simp
  · obtain ⟨msg, rest, hwritten, hid, hrest⟩ := map_eq_cons_iff.mp hids
    obtain ⟨msg', rest', rfl, hid', -⟩ := map_eq_cons_iff.mp hrest
    rw [hwritten]
    exact RequestStore.displaced_of_same_id rfl rfl (hid.trans hid'.symm) ⟨plainEnv.entropy 0, 0⟩ _

end Kannel
