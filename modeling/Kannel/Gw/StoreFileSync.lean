import Kannel.Gw.MsgRoundTrip
import Kannel.Gw.StoreFileLoop
import Kannel.Lib.KeyLog

/-!
# The store file and the dictionary describe the same messages

The dictionary holds a map from identifiers to messages, and so does the file as a log that
replays to it (`Synced`).
-/

namespace Kannel
open List
open KeyLog (Entry)

def recordEntry : Msg → Option (Entry Uuid Sms)
  | .sms m => some (.put m.id m)
  | .ack a => some (.del a.id)
  | _ => none

def Stamped (m : Sms) : Prop := uuidIsNull m.id = false ∧ m.time ≠ msgParamUndefined

def Storable : Msg → Prop
  | .sms m => Stamped m ∧ (Msg.sms m).Fits
  | .ack a => (Msg.ack a).Fits
  | _ => False

variable {smsDict : Dict Sms 2048} {live : Uuid → Option Sms} {store : StoreFile} {m : Msg}

theorem Storable.fits (h : Storable m) : m.Fits := by
  cases m with
  | sms m => exact h.2
  | ack a => exact h
  | heartbeat m => exact h.elim
  | admin m => exact h.elim
  | wdpDatagram m => exact h.elim

theorem stamped_stamp (env : Surroundings) (m : Sms) : Stamped (stamp env m) := by
  have hnow : (env.now : Int) ≠ msgParamUndefined := by
    unfold msgParamUndefined
    omega
  unfold Stamped stamp
  by_cases hid : uuidIsNull m.id
  · by_cases htime : m.time = msgParamUndefined
    · simp [hid, htime, hnow, uuidIsNull_uuidGenerate]
    · simp [hid, htime, uuidIsNull_uuidGenerate]
  · by_cases htime : m.time = msgParamUndefined
    · simp [hid, htime, hnow]
    · simp [hid, htime]

variable {env : Surroundings}

theorem stamp_of_stamped {m : Sms} (h : Stamped m) : stamp env m = m := by
  simp [stamp, h.1, h.2]

theorem storeToDict_stamped {m : Sms} (h : Stamped m) :
    storeToDict env smsDict (.sms m) =
      some (.sms m, dictPut smsDict (uuidUnparse m.id) (some m)) := by
  rw [storeToDict, stamp_of_stamped h]

theorem stamped_clearVoid {m : Sms} (h : Stamped m) : Stamped m.clearVoid := h

structure Holds (smsDict : Dict Sms 2048) (live : Uuid → Option Sms) : Prop where
  get : ∀ id, dictGet smsDict (uuidUnparse id) = live id
  key : ∀ key m, dictGet smsDict key = some m → key = uuidUnparse m.id
  storable : ∀ key m, dictGet smsDict key = some m → Storable (.sms m)

theorem holds_create : Holds (dictCreate Sms 1024) fun _ => none where
  get _ := rfl
  key _ _ h := nomatch h
  storable _ _ h := nomatch h

section Holds

theorem holds_put (h : Holds smsDict live) {m : Sms} (hm : Storable (.sms m)) :
    Holds (dictPut smsDict (uuidUnparse m.id) (some m)) (KeyLog.apply live (.put m.id m)) where
  get id := by
    rw [dictGet_dictPut, KeyLog.apply_eq, h.get]
    exact if_congr uuidUnparse_injective.eq_iff rfl rfl
  key key m' hget := by
    rw [dictGet_dictPut] at hget
    split at hget
    · next hk =>
      cases hget
      exact hk
    · exact h.key key m' hget
  storable key m' hget := by
    rw [dictGet_dictPut] at hget
    split at hget
    · cases hget
      exact hm
    · exact h.storable key m' hget

theorem holds_remove (h : Holds smsDict live) (id : Uuid) :
    Holds (dictRemove smsDict (uuidUnparse id)).2 (KeyLog.apply live (.del id)) where
  get id' := by
    rw [dictGet_dictRemove, KeyLog.apply_eq, h.get]
    exact if_congr uuidUnparse_injective.eq_iff rfl rfl
  key key m hget := by
    rw [dictGet_dictRemove] at hget
    split at hget
    · cases hget
    · exact h.key key m hget
  storable key m hget := by
    rw [dictGet_dictRemove] at hget
    split at hget
    · cases hget
    · exact h.storable key m hget

theorem Holds.congr (h : Holds smsDict live) {d : Dict Sms 2048}
    (hget : ∀ key, dictGet d key = dictGet smsDict key) : Holds d live where
  get id := by rw [hget, h.get]
  key key m hm := h.key key m (by rw [← hget, hm])
  storable key m hm := h.storable key m (by rw [← hget, hm])

end Holds

theorem readMsg_msgRecord (pre rest : Octstr) (hm : m.Fits) :
    readMsg (pre ++ (msgRecord m ++ rest)) pre.length =
      .ok (some m.clearVoid, pre.length + (msgRecord m).length) := by
  have hlen := hm.2
  unfold intMax at hlen
  have hnum : toInt ((msgPack m).length : Int) = (msgPack m).length :=
    toInt_of_fits (by omega) (by omega)
  have hos : pre ++ (msgRecord m ++ rest) =
      pre ++ (appendInteger [] (msgPack m).length ++ (msgPack m ++ rest)) := by
    rw [msgRecord, appendInteger, nil_append, append_assoc]
  have hword : pre.length + 4 ≤ (pre ++ (msgRecord m ++ rest)).length := by
    rw [hos]
    simp [appendInteger]
  have hann : announced (pre ++ (msgRecord m ++ rest)) pre.length = (msgPack m).length := by
    rw [hos, announced_packed, hnum]
  have hpack : stringAt (pre ++ (msgRecord m ++ rest)) pre.length = msgPack m := by
    rw [hos, stringAt_packed _ _ hnum]
  have hunpack : storeMsgUnpack (msgPack m) = .ok (some m.clearVoid) := by
    rw [storeMsgUnpack, hm.roundTrips]
  rw [readMsg_record hword (by rw [hann]; omega), hpack, hunpack, ok_bind]
  simp [msgRecord, Nat.add_assoc]
  rfl

theorem holds_loadMsg (env : Surroundings) (h : Holds smsDict live) (hm : Storable m) :
    ∃ e, recordEntry m = some e ∧
      Holds (loadMsg env smsDict (some m.clearVoid)) (KeyLog.apply live (e.map Sms.clearVoid)) := by
  cases m with
  | sms m =>
    obtain ⟨hstamped, hfits⟩ := hm
    refine ⟨_, rfl, ?_⟩
    change Holds _ (KeyLog.apply live (.put m.clearVoid.id m.clearVoid))
    have hput := holds_put h (m := m.clearVoid) ⟨stamped_clearVoid hstamped, hfits.clearVoid⟩
    simpa only [Msg.clearVoid, loadMsg, storeToDict_stamped (stamped_clearVoid hstamped)] using hput
  | ack a => exact ⟨_, rfl, holds_remove h a.id⟩
  | heartbeat m => exact hm.elim
  | admin m => exact hm.elim
  | wdpDatagram m => exact hm.elim

def clearedEntries (log : List Msg) : List (Entry Uuid Sms) :=
  (log.filterMap recordEntry).map (Entry.map Sms.clearVoid)

variable (env : Nat → Surroundings)

theorem loadLoop_log (log : List Msg) (hlog : ∀ m ∈ log, Storable m) (pre : Octstr) {fuel : Nat}
    (hfuel : log.length ≤ fuel) (h : Holds smsDict live) :
    ∃ d, loadLoop env (pre ++ log.flatMap msgRecord) fuel pre.length smsDict = some (.ok d) ∧
      Holds d (KeyLog.replayFrom live (clearedEntries log)) := by
  induction log generalizing pre fuel smsDict live with
  | nil =>
    exact ⟨smsDict, loadLoop_done (by simp) env fuel, h⟩
  | cons m log ih =>
    obtain ⟨fuel, rfl⟩ : ∃ n, fuel = n + 1 := Nat.exists_eq_add_one.mpr (by
      rw [length_cons] at hfuel
      omega)
    have hm := hlog m mem_cons_self
    obtain ⟨e, he, hnext⟩ := holds_loadMsg (env fuel) h hm
    obtain ⟨d, hloop, hd⟩ := ih (fun m' hm' => hlog m' (mem_cons_of_mem _ hm'))
      (pre ++ msgRecord m) (Nat.le_of_succ_le_succ hfuel) hnext
    refine ⟨d, ?_, ?_⟩
    · have hpos : pre.length < (pre ++ (m :: log).flatMap msgRecord).length := by
        simp [msgRecord]
      rw [loadLoop, if_pos hpos, flatMap_cons]
      simp only [loadStep_of_ok (readMsg_msgRecord pre _ hm.fits)]
      rwa [append_assoc, length_append] at hloop
    · rw [clearedEntries, filterMap_cons_some he]
      exact hd

section Write
variable {name : StoreName} {contents : Octstr}

theorem writeMsg_open (hfile : store.file = some name) (hdisk : store.disk name = some contents)
    (m : Msg) :
    writeMsg store m =
      .ok { store with
        disk := Function.update store.disk name (some (contents ++ msgRecord m)) } := by
  rw [writeMsg, hfile]
  simp [hdisk]

theorem dumpKeys (keys : List Octstr) (hfile : store.file = some name)
    (hdisk : store.disk name = some contents) :
    ∃ s, keys.foldlM dumpKey store = .ok s ∧ s.file = some name ∧ s.smsDict = store.smsDict ∧
      s.disk name = some (contents ++
        ((keys.filterMap (dictGet store.smsDict)).map Msg.sms).flatMap msgRecord) := by
  induction keys generalizing store contents with
  | nil => exact ⟨store, rfl, hfile, rfl, by simp [hdisk]⟩
  | cons key keys ih =>
    rw [foldlM_cons, dumpKey]
    cases hkey : dictGet store.smsDict key with
    | none =>
      rw [filterMap_cons_none hkey]
      exact ih hfile hdisk
    | some m =>
      dsimp only
      rw [filterMap_cons_some hkey, writeMsg_open hfile hdisk]
      obtain ⟨s, hs, hfile', hdict, hdisk'⟩ := @ih
        { store with
          disk := Function.update store.disk name (some (contents ++ msgRecord (.sms m))) }
        (contents ++ msgRecord (.sms m)) hfile (Function.update_self ..)
      exact ⟨s, hs, hfile', hdict, by simpa using hdisk'⟩

end Write

variable {contents : Octstr}

theorem renameStore_eq (hfile : store.file = some .newfile)
    (hdisk : store.disk .newfile = some contents) :
    (renameStore store).file = some .filename ∧
      (renameStore store).disk .filename = some contents ∧
      (renameStore store).smsDict = store.smsDict := by
  cases hold : store.disk .filename <;> simp [renameStore, renameFile, hold, hfile, hdisk]

theorem doDump_eq (store : StoreFile) :
    ∃ s, doDump store = .ok s ∧ s.file = some .filename ∧
      s.disk .filename = some
        ((((dictKeys store.smsDict).filterMap (dictGet store.smsDict)).map Msg.sms).flatMap
          msgRecord) ∧
      s.smsDict = store.smsDict := by
  have hempty : (openFile store .newfile).disk .newfile = some [] := by
    simp [openFile]
  obtain ⟨s, hs, hfile, hdict, hdisk⟩ :=
    dumpKeys (dictKeys (openFile store .newfile).smsDict) rfl hempty
  rw [nil_append] at hdisk
  obtain ⟨hfile', hdisk', hdict'⟩ := renameStore_eq hfile hdisk
  refine ⟨renameStore s, ?_, hfile', hdisk', hdict'.trans hdict⟩
  unfold doDump
  dsimp only
  rw [hs]
  rfl

def dictMessages (smsDict : Dict Sms 2048) : List Sms :=
  (dictKeys smsDict).filterMap (dictGet smsDict)

section Messages

theorem Holds.mem_messages (h : Holds smsDict live) (m : Sms) :
    m ∈ dictMessages smsDict ↔ live m.id = some m := by
  rw [dictMessages, mem_filterMap]
  constructor
  · rintro ⟨key, -, hget⟩
    rw [← h.get, ← h.key key m hget, hget]
  · intro hm
    rw [← h.get] at hm
    exact ⟨uuidUnparse m.id, (mem_dictKeys _ _).mpr (by rw [hm]; rfl), hm⟩

theorem Holds.nodup_messages (h : Holds smsDict live) : (dictMessages smsDict).Nodup := by
  refine (nodup_dictKeys smsDict).filterMap fun key key' m hm hm' => ?_
  rw [h.key key m hm, h.key key' m hm']

theorem Holds.replay_messages (h : Holds smsDict live) :
    KeyLog.replay (((dictMessages smsDict).map Msg.sms).filterMap recordEntry) = live := by
  have hmem : ∀ id, id ∈ (dictMessages smsDict).map Sms.id ↔ (live id).isSome := by
    intro id
    rw [List.mem_map, Option.isSome_iff_exists]
    constructor
    · rintro ⟨m, hm, rfl⟩
      exact ⟨m, (h.mem_messages m).mp hm⟩
    · rintro ⟨m, hm⟩
      have hkey := h.key (uuidUnparse id) m (by rw [h.get, hm])
      obtain rfl := uuidUnparse_injective hkey
      exact ⟨m, (h.mem_messages m).mpr hm, rfl⟩
  have hlog : ((dictMessages smsDict).map Msg.sms).filterMap recordEntry =
      ((dictMessages smsDict).map Sms.id).filterMap fun id => (live id).map (Entry.put id) := by
    rw [filterMap_map, filterMap_map]
    refine filterMap_congr fun m hm => ?_
    simp [recordEntry, (h.mem_messages m).mp hm]
  rw [hlog]
  exact KeyLog.replay_snapshot live hmem

theorem restoreKeys_eq (keys : List Octstr) (h : Holds smsDict live)
    (hkeys : ∀ key ∈ keys, (dictGet smsDict key).isSome) :
    ∃ d, restoreKeys env keys smsDict =
        .ok (d, (keys.filterMap (dictGet smsDict)).map Msg.sms) ∧ Holds d live := by
  induction keys generalizing smsDict with
  | nil => exact ⟨smsDict, rfl, h⟩
  | cons key keys ih =>
    obtain ⟨m, hm⟩ := Option.isSome_iff_exists.mp (hkeys key mem_cons_self)
    have hpair : dictRemove smsDict key = (some m, (dictRemove smsDict key).2) :=
      Prod.ext ((dictRemove_fst _ _).trans hm) rfl
    have hget : ∀ k, dictGet (dictPut (dictRemove smsDict key).2 (uuidUnparse m.id) (some m)) k =
        dictGet smsDict k := by
      intro k
      rw [dictGet_dictPut, dictGet_dictRemove, ← h.key key m hm]
      by_cases hk : k = key
      · rw [if_pos hk, hk, hm]
      · rw [if_neg hk, if_neg hk]
    obtain ⟨d, hd, hholds⟩ := ih (h.congr hget) fun k hk => by
      rw [hget]
      exact hkeys k (mem_cons_of_mem _ hk)
    rw [show dictGet _ = dictGet smsDict from funext hget] at hd
    refine ⟨d, ?_, hholds⟩
    rw [restoreKeys, hpair]
    dsimp only
    rw [storeToDict_stamped (h.storable key m hm).1]
    dsimp only
    rw [hd, filterMap_cons_some hm]
    rfl

end Messages

structure Synced (store : StoreFile) (live : Uuid → Option Sms) : Prop where
  holds : Holds store.smsDict live
  file : store.file = some .filename
  log : ∃ log : List Msg, store.disk .filename = some (log.flatMap msgRecord) ∧
    (∀ m ∈ log, Storable m) ∧ KeyLog.replay (log.filterMap recordEntry) = live

theorem synced_write (h : Synced store live) (hm : Storable m) {e : Entry Uuid Sms}
    (he : recordEntry m = some e) (hd : Holds smsDict (KeyLog.apply live e)) :
    ∃ s, writeMsg { store with smsDict := smsDict } m = .ok s ∧ Synced s (KeyLog.apply live e) := by
  obtain ⟨log, hdisk, hlog, hreplay⟩ := h.log
  have hwrite := @writeMsg_open { store with smsDict := smsDict } .filename _ h.file hdisk m
  refine ⟨_, hwrite, hd, h.file, log ++ [m], ?_, ?_, ?_⟩
  · simp
  · intro m' hm'
    rcases mem_append.mp hm' with hold | hnew
    · exact hlog m' hold
    · rwa [mem_singleton.mp hnew]
  · rw [filterMap_append, KeyLog.replay_append, hreplay, filterMap_cons_some he]
    rfl

theorem synced_save (h : Synced store live) (env : Surroundings) (m : Sms)
    (hm : (Msg.sms (stamp env m)).Fits) :
    ∃ s, storeFileSave env store (.sms m) = .ok (some (.sms (stamp env m)), s) ∧
      Synced s (KeyLog.apply live (.put (stamp env m).id (stamp env m))) := by
  have hstorable : Storable (.sms (stamp env m)) := ⟨stamped_stamp env m, hm⟩
  obtain ⟨s, hs, hsync⟩ := synced_write h hstorable rfl (holds_put h.holds hstorable)
  refine ⟨s, ?_, hsync⟩
  rw [storeFileSave, storeToDict]
  dsimp only
  rw [hs]
  rfl

theorem ack_fits (status : AckStatus) {time : Int} (id : Uuid) (hlo : -2 ^ 31 ≤ time)
    (hhi : time < 2 ^ 31) : (Msg.ack ⟨status.code, time, id⟩).Fits := by
  have hcode : -2 ^ 31 ≤ status.code ∧ status.code < 2 ^ 31 := by
    cases status <;> decide
  refine ⟨⟨hcode, ⟨hlo, hhi⟩, trivial, trivial⟩, ?_⟩
  change (appendInteger [] _ ++ packFields [.integer, .integer, .uuid]
    (status.code, time, id, ()) []).length ≤ intMax
  rw [packFields_cons, packFields_cons, packFields_cons]
  simp only [length_append, length_packField, appendInteger, length_encodeNetworkLong]
  decide

theorem synced_ack (h : Synced store live) (env : Surroundings) (m : Sms) (status : AckStatus)
    (hlo : -2 ^ 31 ≤ m.time) (hhi : m.time < 2 ^ 31) :
    ∃ s, storeFileSaveAck env store status (some (.sms m)) =
        .ok (some (.ack ⟨status.code, m.time, m.id⟩), s) ∧
      Synced s (KeyLog.apply live (.del m.id)) := by
  have hstorable : Storable (.ack ⟨status.code, m.time, m.id⟩) := ack_fits status m.id hlo hhi
  obtain ⟨s, hs, hsync⟩ := synced_write h hstorable rfl (holds_remove h.holds m.id)
  refine ⟨s, ?_, hsync⟩
  rw [storeFileSaveAck, storeFileSave, storeToDict]
  dsimp only
  rw [hs]
  rfl

theorem synced_dump (h : Holds store.smsDict live) : ∃ s, doDump store = .ok s ∧ Synced s live := by
  obtain ⟨s, hs, hfile, hdisk, hdict⟩ := doDump_eq store
  refine ⟨s, hs, by rwa [hdict], hfile, _, hdisk, ?_, h.replay_messages⟩
  intro m hm
  obtain ⟨m, hmem, rfl⟩ := List.mem_map.mp hm
  obtain ⟨key, -, hget⟩ := mem_filterMap.mp hmem
  exact h.storable key m hget

inductive StoreOp
  | save (env : Surroundings) (msg : Sms)
  | ack (env : Surroundings) (msg : Sms) (status : AckStatus)
  | dump

def StoreOp.run (store : StoreFile) : StoreOp → Except Failure StoreFile
  | .save env msg => do
    let (_, store) ← storeFileSave env store (.sms msg)
    return store
  | .ack env msg status => do
    let (_, store) ← storeFileSaveAck env store status (some (.sms msg))
    return store
  | .dump => storeFileDump store

def StoreOp.id : StoreOp → Option Uuid
  | .save env msg => some (stamp env msg).id
  | .ack _ msg _ => some msg.id
  | .dump => none

def StoreOp.Fits : StoreOp → Prop
  | .save env msg => (Msg.sms (stamp env msg)).Fits
  | .ack _ msg _ => -2 ^ 31 ≤ msg.time ∧ msg.time < 2 ^ 31
  | .dump => True

def lastOp (ops : List StoreOp) (id : Uuid) : Option StoreOp :=
  ops.reverse.find? fun op => decide (op.id = some id)

def StoreOp.entry : StoreOp → Option (Entry Uuid Sms)
  | .save env msg => some (.put (stamp env msg).id (stamp env msg))
  | .ack _ msg _ => some (.del msg.id)
  | .dump => none

theorem replay_ops (ops : List StoreOp) (id : Uuid) (m : Sms) :
    KeyLog.replay (ops.filterMap StoreOp.entry) id = some m ↔
      ∃ env msg, lastOp ops id = some (.save env msg) ∧ m = stamp env msg := by
  have hfind : (ops.filterMap StoreOp.entry).reverse.find? (fun e => decide (e.key = id)) =
      (lastOp ops id).bind StoreOp.entry := by
    rw [← filterMap_reverse, List.find?_filterMap]
    congr 2
    funext op
    rw [Bool.eq_iff_iff]
    cases op with
    | save env msg =>
      change decide ((stamp env msg).id = id) = true ↔ decide (some (stamp env msg).id = some id)
      simp
    | ack env msg status =>
      change decide (msg.id = id) = true ↔ decide (some msg.id = some id)
      simp
    | dump => simp [StoreOp.entry, StoreOp.id]
  rw [KeyLog.replay_eq_last, hfind]
  cases lastOp ops id with
  | none => simp
  | some op =>
    cases op with
    | save env msg =>
      simp only [Option.bind_some, StoreOp.entry, Entry.value, Option.some.injEq,
        StoreOp.save.injEq]
      constructor
      · rintro rfl
        exact ⟨env, msg, ⟨rfl, rfl⟩, rfl⟩
      · rintro ⟨_, _, ⟨rfl, rfl⟩, rfl⟩
        rfl
    | ack env msg status => simp [StoreOp.entry, Entry.value]
    | dump => simp [StoreOp.entry]

theorem synced_op (h : Synced store live) (op : StoreOp) (hop : op.Fits) :
    ∃ s, op.run store = .ok s ∧ Synced s (KeyLog.replayFrom live op.entry.toList) := by
  cases op with
  | save env msg =>
    obtain ⟨s, hs, hsync⟩ := synced_save h env msg hop
    refine ⟨s, ?_, hsync⟩
    rw [StoreOp.run, hs]
    rfl
  | ack env msg status =>
    obtain ⟨s, hs, hsync⟩ := synced_ack h env msg status hop.1 hop.2
    refine ⟨s, ?_, hsync⟩
    rw [StoreOp.run, hs]
    rfl
  | dump => exact synced_dump h.holds

theorem synced_run (h : Synced store live) (ops : List StoreOp) (hops : ∀ op ∈ ops, op.Fits) :
    ∃ s, ops.foldlM StoreOp.run store = .ok s ∧
      Synced s (KeyLog.replayFrom live (ops.filterMap StoreOp.entry)) := by
  induction ops generalizing store live with
  | nil => exact ⟨store, rfl, h⟩
  | cons op ops ih =>
    obtain ⟨s, hs, hsync⟩ := synced_op h op (hops op mem_cons_self)
    obtain ⟨s', hs', hsync'⟩ := ih hsync fun o ho => hops o (mem_cons_of_mem _ ho)
    refine ⟨s', ?_, ?_⟩
    · rw [foldlM_cons, hs, ok_bind, hs']
    · cases hentry : op.entry with
      | none =>
        rw [hentry] at hsync'
        rwa [filterMap_cons_none hentry]
      | some e =>
        rw [hentry] at hsync'
        rwa [filterMap_cons_some hentry]

theorem storeFileLoad_of_file (h : store.disk .filename = some contents) {fuel : Nat}
    {env : Nat → Surroundings} :
    storeFileLoad fuel env store =
      (loadLoop env contents fuel 0 store.smsDict).map fun loaded =>
        loaded >>= fun smsDict =>
          restoreKeys (fun i => env (fuel + i)) (dictKeys smsDict) smsDict >>= fun r =>
            doDump { store with file := none, smsDict := r.1 } >>= fun s => pure (s, r.2) := by
  rw [storeFileLoad, h, Option.some_or]

theorem load_synced {old : StoreFile} (h : Synced old live) :
    ∃ enough, ∀ fuel ≥ enough, ∀ env, ∃ s received,
      storeFileLoad fuel env (storeFileInit old.disk) = some (.ok (s, received)) ∧
      Synced s (fun id => (live id).map Sms.clearVoid) ∧ received.Nodup ∧
      ∀ msg, msg ∈ received ↔ ∃ m, live m.id = some m ∧ msg = .sms m.clearVoid := by
  obtain ⟨log, hdisk, hlog, hreplay⟩ := h.log
  refine ⟨log.length, fun fuel hfuel env => ?_⟩
  obtain ⟨d, hloop, hd⟩ := loadLoop_log env log hlog [] hfuel holds_create
  have hlive : KeyLog.replayFrom (fun _ => none) (clearedEntries log) =
      fun id => (live id).map Sms.clearVoid := by
    funext id
    rw [← hreplay]
    exact KeyLog.replay_map Sms.clearVoid id (log.filterMap recordEntry)
  rw [hlive] at hd
  obtain ⟨d', hrestore, hd'⟩ := restoreKeys_eq (fun i => env (fuel + i)) (dictKeys d) hd
    fun key hkey => (mem_dictKeys d key).mp hkey
  obtain ⟨s, hs, hsync⟩ := @synced_dump _ ⟨none, old.disk, d'⟩ hd'
  refine ⟨s, (dictMessages d).map Msg.sms, ?_, hsync, ?_, ?_⟩
  · rw [nil_append, length_nil] at hloop
    have hdict : (storeFileInit old.disk).smsDict = dictCreate Sms 1024 := rfl
    have hsame : (storeFileInit old.disk).disk = old.disk := rfl
    rw [storeFileLoad_of_file (hsame ▸ hdisk), hdict, hsame, hloop, Option.map_some, ok_bind,
      hrestore, ok_bind, hs, ok_bind, dictMessages, pure_eq_ok]
  · exact hd.nodup_messages.map fun _ _ h => Msg.sms.inj h
  · intro msg
    rw [List.mem_map]
    constructor
    · rintro ⟨m, hm, rfl⟩
      obtain ⟨m₀, hm₀, rfl⟩ := Option.map_eq_some_iff.mp ((hd.mem_messages m).mp hm)
      exact ⟨m₀, hm₀, rfl⟩
    · rintro ⟨m, hm, rfl⟩
      exact ⟨m.clearVoid, (hd.mem_messages _).mpr (congrArg (Option.map Sms.clearVoid) hm), rfl⟩

theorem load_empty (fuel : Nat) (env : Nat → Surroundings) :
    ∃ s, storeFileLoad fuel env (storeFileInit fun _ => none) = some (.ok (s, [])) ∧
      Synced s fun _ => none :=
  ⟨_, rfl, holds_create, rfl, [], by simp [openFile], by simp, rfl⟩

/-- **The store survives.**  The next process is handed exactly the messages whose last
operation was a save, each once and as it was last saved, the `VOID` field cleared. -/
theorem store_survives (ops : List StoreOp) (hops : ∀ op ∈ ops, op.Fits) :
    ∀ fuel env, ∃ s₀ s₁,
      storeFileLoad fuel env (storeFileInit fun _ => none) = some (.ok (s₀, [])) ∧
      ops.foldlM StoreOp.run s₀ = .ok s₁ ∧
      ∃ enough, ∀ fuel ≥ enough, ∀ env, ∃ s₂ received,
        storeFileLoad fuel env (storeFileInit s₁.disk) = some (.ok (s₂, received)) ∧
        received.Nodup ∧
        ∀ msg, msg ∈ received ↔ ∃ env m, lastOp ops (stamp env m).id = some (.save env m) ∧
          msg = .sms (stamp env m).clearVoid := by
  intro fuel env
  obtain ⟨s₀, hload, hsync₀⟩ := load_empty fuel env
  obtain ⟨s₁, hrun, hsync₁⟩ := synced_run hsync₀ ops hops
  obtain ⟨enough, hnext⟩ := load_synced hsync₁
  refine ⟨s₀, s₁, hload, hrun, enough, fun fuel hfuel env => ?_⟩
  obtain ⟨s₂, received, hload₂, -, hnodup, hmem⟩ := hnext fuel hfuel env
  refine ⟨s₂, received, hload₂, hnodup, fun msg => (hmem msg).trans ?_⟩
  constructor
  · rintro ⟨m, hm, rfl⟩
    obtain ⟨env, msg, hlast, rfl⟩ := (replay_ops ops _ _).mp hm
    exact ⟨env, msg, hlast, rfl⟩
  · rintro ⟨env, m, hlast, rfl⟩
    exact ⟨stamp env m, (replay_ops ops _ _).mpr ⟨env, m, hlast, rfl⟩, rfl⟩

def idSms (octet : UInt8) : Sms := smsCreate ⟨octet :: replicate 15 0, by simp⟩

def savedTwo : List StoreOp :=
  [.save ⟨.random uuidClear, 7⟩ (idSms 1), .dump, .save ⟨.random uuidClear, 8⟩ (idSms 2),
    .ack ⟨.random uuidClear, 9⟩ { idSms 2 with time := 8 } .success]

/-- Of two messages that are saved, the one that is acknowledged does not come back. -/
theorem store_survives_savedTwo :
    ∃ s₁ enough, ∀ fuel ≥ enough, ∀ env, ∃ s₂ received,
      storeFileLoad fuel env (storeFileInit s₁) = some (.ok (s₂, received)) ∧
      .sms (stamp ⟨.random uuidClear, 7⟩ (idSms 1)).clearVoid ∈ received ∧
      .sms (stamp ⟨.random uuidClear, 8⟩ (idSms 2)).clearVoid ∉ received := by
  have hops : ∀ op ∈ savedTwo, op.Fits := by
    simp only [savedTwo, forall_mem_cons, StoreOp.Fits, not_mem_nil, false_imp_iff, implies_true,
      and_true]
    decide +kernel
  have hkept : lastOp savedTwo (stamp ⟨.random uuidClear, 7⟩ (idSms 1)).id =
      some (.save ⟨.random uuidClear, 7⟩ (idSms 1)) := rfl
  have hacked : lastOp savedTwo (stamp ⟨.random uuidClear, 8⟩ (idSms 2)).id =
      some (.ack ⟨.random uuidClear, 9⟩ { idSms 2 with time := 8 } .success) := rfl
  obtain ⟨s₀, s₁, -, -, enough, h⟩ := store_survives savedTwo hops 0
    fun _ => ⟨.random uuidClear, 0⟩
  refine ⟨s₁.disk, enough, fun fuel hfuel env => ?_⟩
  obtain ⟨s₂, received, hload, -, hmem⟩ := h fuel hfuel env
  refine ⟨s₂, received, hload, (hmem _).mpr ⟨_, _, hkept, rfl⟩, fun hback => ?_⟩
  obtain ⟨env, m, hlast, heq⟩ := (hmem _).mp hback
  have hclear := congrArg Sms.id (Msg.sms.inj heq)
  have hid : (stamp ⟨.random uuidClear, 8⟩ (idSms 2)).id = (stamp env m).id := hclear
  rw [← hid, hacked] at hlast
  cases hlast

end Kannel
