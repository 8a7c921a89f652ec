import Kannel.Gw.Msg
import Kannel.Gwlib.Dict

/-!
# The message store in a file

Unacknowledged messages are in a dictionary, and every change is logged to a file that a dump
replaces. The file system maps the three names to contents.
-/

namespace Kannel

inductive StoreName
  | filename | newfile | bakfile
  deriving DecidableEq, Repr

abbrev Disk := StoreName → Option Octstr

structure Surroundings where
  entropy : Entropy
  now : Nat

structure StoreFile where
  file : Option StoreName
  disk : Disk
  smsDict : Dict Sms 2048

inductive AckStatus
  | success | failed | failedTmp | buffered
  deriving DecidableEq, Repr

def AckStatus.code : AckStatus → Int
  | .success => 0
  | .failed => 1
  | .failedTmp => 2
  | .buffered => 3

def msgRecord (msg : Msg) : Octstr :=
  encodeNetworkLong (toUlong (msgPack msg).length) ++ msgPack msg

def writeMsg (store : StoreFile) (msg : Msg) : Except Failure StoreFile :=
  match store.file with
  | none => .error .assertion
  | some name =>
    .ok { store with
      disk := Function.update store.disk name ((store.disk name).map (· ++ msgRecord msg)) }

def openFile (store : StoreFile) (name : StoreName) : StoreFile :=
  { store with file := some name, disk := Function.update store.disk name (some []) }

def renameFile (store : StoreFile) (old new : StoreName) : StoreFile :=
  match store.disk old with
  | none => store
  | some contents =>
    { store with
      file := if store.file = some old then some new else store.file
      disk := Function.update (Function.update store.disk new (some contents)) old none }

def renameStore (store : StoreFile) : StoreFile :=
  renameFile (renameFile store .filename .bakfile) .newfile .filename

def dumpKey (store : StoreFile) (key : Octstr) : Except Failure StoreFile :=
  match dictGet store.smsDict key with
  | none => .ok store
  | some msg => writeMsg store (.sms msg)

def doDump (store : StoreFile) : Except Failure StoreFile := do
  let store := openFile store .newfile
  let store ← (dictKeys store.smsDict).foldlM dumpKey store
  return renameStore store

def storeFileDump (store : StoreFile) : Except Failure StoreFile :=
  doDump { store with file := none }

def stamp (env : Surroundings) (msg : Sms) : Sms :=
  let msg := if uuidIsNull msg.id then { msg with id := uuidGenerate env.entropy } else msg
  if msg.time = msgParamUndefined then { msg with time := env.now } else msg

def storeToDict (env : Surroundings) (smsDict : Dict Sms 2048) : Msg → Option (Msg × Dict Sms 2048)
  | .sms msg =>
    let msg := stamp env msg
    some (.sms msg, dictPut smsDict (uuidUnparse msg.id) (some msg))
  | .ack msg => some (.ack msg, (dictRemove smsDict (uuidUnparse msg.id)).2)
  | _ => none

def storeFileSave (env : Surroundings) (store : StoreFile) (msg : Msg) :
    Except Failure (Option Msg × StoreFile) :=
  match storeToDict env store.smsDict msg with
  | none => .ok (none, store)
  | some (msg, smsDict) => do
    let store ← writeMsg { store with smsDict := smsDict } msg
    return (some msg, store)

def storeFileSaveAck (env : Surroundings) (store : StoreFile) (status : AckStatus) :
    Option Msg → Except Failure (Option Msg × StoreFile)
  | some (.sms msg) => storeFileSave env store (.ack ⟨status.code, msg.time, msg.id⟩)
  | _ => .ok (none, store)

def storeMsgUnpack (pack : Octstr) : Except Failure (Option Msg) :=
  match msgUnpack pack with
  | .ok msg => .ok (some msg)
  | .error .invalid => .ok none
  | .error f => .error f

def readMsg (os : Octstr) (off : Nat) : Except Failure (Option Msg × Nat) :=
  if off + 4 > os.length then .ok (none, off)
  else do
    let i := decodeNetworkLong (octstrGetManyChars os off 4)
    let pack ← octstrCopy os (off + 4 : Nat) i
    let msg ← storeMsgUnpack pack
    return (msg, off + 4 + pack.length)

def loadMsg (env : Surroundings) (smsDict : Dict Sms 2048) : Option Msg → Dict Sms 2048
  | none => smsDict
  | some msg =>
    match storeToDict env smsDict msg with
    | some (_, smsDict) => smsDict
    | none => smsDict

def loadStep (env : Surroundings) (storeFile : Octstr) (pos : Nat) (smsDict : Dict Sms 2048) :
    Except Failure (Nat × Dict Sms 2048) := do
  let (msg, pos) ← readMsg storeFile pos
  return (pos, loadMsg env smsDict msg)

def loadLoop (env : Nat → Surroundings) (storeFile : Octstr) :
    Nat → Nat → Dict Sms 2048 → Option (Except Failure (Dict Sms 2048))
  | fuel, pos, smsDict =>
    if pos < storeFile.length then
      match fuel with
      | 0 => none
      | fuel + 1 =>
        match loadStep (env fuel) storeFile pos smsDict with
        | .error f => some (.error f)
        | .ok (pos, smsDict) => loadLoop env storeFile fuel pos smsDict
    else some (.ok smsDict)

def restoreKeys (env : Nat → Surroundings) :
    List Octstr → Dict Sms 2048 → Except Failure (Dict Sms 2048 × List Msg)
  | [], smsDict => .ok (smsDict, [])
  | key :: keys, smsDict =>
    match dictRemove smsDict key with
    | (none, _) => .error .assertion
    | (some msg, smsDict) =>
      match storeToDict (env keys.length) smsDict (.sms msg) with
      | some (msg, smsDict) => do
        let (smsDict, received) ← restoreKeys env keys smsDict
        return (smsDict, msg :: received)
      | none => restoreKeys env keys smsDict

def storeFileInit (disk : Disk) : StoreFile where
  file := none
  disk := disk
  smsDict := dictCreate Sms 1024

def storeFileLoad (fuel : Nat) (env : Nat → Surroundings) (store : StoreFile) :
    Option (Except Failure (StoreFile × List Msg)) :=
  match (store.disk .filename).or ((store.disk .newfile).or (store.disk .bakfile)) with
  | none => some (.ok (openFile store .filename, []))
  | some storeFile =>
    (loadLoop env storeFile fuel 0 store.smsDict).map fun loaded => do
      let smsDict ← loaded
      let (smsDict, received) ← restoreKeys (fun i => env (fuel + i)) (dictKeys smsDict) smsDict
      let store ← doDump { store with file := none, smsDict := smsDict }
      return (store, received)

end Kannel
