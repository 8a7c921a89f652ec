import Kannel.Gwlib.Dict
import Kannel.Gwlib.OctstrUrl

/-!
# Meta-data

Meta-data is one string `?group?key=value&...`, URL-encoded, parsed and rendered on every call.
-/

namespace Kannel

structure CString where
  octets : Octstr
  noNul : (0 : UInt8) ∉ octets

def octstrStrCaseCompareEq (ostr : Octstr) (str : CString) : Bool :=
  equalIgnoringCase (ostr.takeWhile (· ≠ 0)) str.octets

structure ValueDict where
  size : Nat
  nonzero : NeZero size
  dict : Dict Octstr size

instance valueDict_neZero (values : ValueDict) : NeZero values.size := values.nonzero

structure MetaGroup where
  group : Octstr
  values : ValueDict

namespace ValueDict

def of {size : Nat} [nonzero : NeZero size] (dict : Dict Octstr size) : ValueDict :=
  ⟨size, nonzero, dict⟩

def get (values : ValueDict) (key : Octstr) : Option Octstr := dictGet values.dict key

def put (values : ValueDict) (key : Octstr) (value : Option Octstr) : ValueDict :=
  of (dictPut values.dict key value)

def keys (values : ValueDict) : List Octstr := dictKeys values.dict

end ValueDict

inductive FieldType where
  | group | key | value
  deriving DecidableEq, Repr

structure Unpack where
  start : Int
  stop : Int
  type : Option FieldType
  nextType : Option FieldType
  key : Option Octstr
  ret : List MetaGroup

def Unpack.init : Unpack :=
  { start := -1, stop := -1, type := none, nextType := none, key := none, ret := [] }

def unpackSwitch (c : UInt8) (pos : Int) (s : Unpack) : Option Unpack :=
  if c = 63 then
    -- `?` begins or ends the name of a group
    if s.start = -1 then some { s with start := pos, type := some .group }
    else if s.type = some .group then some { s with stop := pos, nextType := some .key }
    else if s.type = some .value ∧ s.key.isSome then
      some { s with stop := pos, nextType := some .group }
    else if s.key.isNone then some { s with start := pos, type := some .group }
    else none
  else if c = 61 then
    if s.type = some .key ∧ s.ret ≠ [] ∧ s.key.isNone then
      some { s with stop := pos, nextType := some .value }
    else none
  else if c = 38 then
    if s.type = some .value ∧ s.ret ≠ [] ∧ s.key.isSome then
      some { s with stop := pos, nextType := some .key }
    else if s.type = some .key ∧ s.key.isNone then some { s with start := pos }
    else none
  else if c = 0 then
    if s.type = some .value then some { s with stop := pos } else some s
  else some s

def putInLast (ret : List MetaGroup) (key : Octstr) (value : Octstr) : List MetaGroup :=
  match ret.getLast? with
  | none => ret
  | some curr => ret.dropLast ++ [{ curr with values := curr.values.put key (some value) }]

def unpackField (tmp : Octstr) (s : Unpack) : Unpack :=
  match s.type with
  | some .group =>
    { s with ret := s.ret ++ [⟨tmp, ValueDict.of (dictCreate Octstr 1024)⟩] }
  | some .key => { s with key := some tmp }
  | some .value => { s with ret := putInLast s.ret (s.key.getD []) tmp, key := none }
  | none => s

def unpackTake (data : Octstr) (s : Unpack) : Unpack :=
  if 0 ≤ s.start ∧ 0 ≤ s.stop then
    let tmp := (data.drop (s.start + 1).toNat).take (s.stop - s.start - 1).toNat
    let s' := unpackField (octstrUrlDecode tmp).1 s
    { s' with type := s.nextType, nextType := none, start := s.stop, stop := -1 }
  else s

def unpackLoop (data : Octstr) : Octstr → Int → Unpack → Option Unpack
  | [], pos, s => (unpackSwitch 0 pos s).map (unpackTake data)
  | c :: str, pos, s =>
    match unpackSwitch c pos s with
    | none => none
    | some s' => unpackLoop data str (pos + 1) (unpackTake data s')

def metaDataUnpack (data : Octstr) : List MetaGroup :=
  match unpackLoop data data 0 Unpack.init with
  | none => []
  | some s => s.ret

def formatUrl (ostr : Option Octstr) : Octstr := octstrUrlEncode (ostr.getD (ascii "(null)"))

def packValue (values : ValueDict) (key : Octstr) : Octstr :=
  formatUrl (some key) ++ 61 :: formatUrl (values.get key) ++ [38]

def packGroup (mdata : MetaGroup) : Octstr :=
  63 :: formatUrl (some mdata.group) ++ 63 :: mdata.values.keys.flatMap (packValue mdata.values)

def metaDataPack (mdata : List MetaGroup) (data : Octstr) : Int × Octstr :=
  if mdata = [] then (-1, data) else (0, mdata.flatMap packGroup)

def updateGroup (group : CString) (edit : MetaGroup → MetaGroup) :
    List MetaGroup → Option (List MetaGroup)
  | [] => none
  | curr :: next =>
    if octstrStrCaseCompareEq curr.group group then some (edit curr :: next)
    else (updateGroup group edit next).map (curr :: ·)

def insertGroup (curr : MetaGroup) : List MetaGroup → List MetaGroup
  | [] => [curr]
  | first :: next => first :: curr :: next

def metaDataGetValues (data : Octstr) (group : CString) : Option ValueDict :=
  ((metaDataUnpack data).find? fun curr => octstrStrCaseCompareEq curr.group group).map
    MetaGroup.values

def copyOldValues {size : Nat} [NeZero size] (old : ValueDict) (dict : Dict Octstr size) :
    Dict Octstr size :=
  old.keys.foldl (fun dict key => (dictPutOnce dict key (old.get key)).2) dict

def metaDataSetValues {size : Nat} [NeZero size] (data : Octstr) (dict : Dict Octstr size)
    (group : CString) (replace : Bool) : Int × Octstr × Dict Octstr size :=
  let mdata := metaDataUnpack data
  let old := mdata.find? fun curr => octstrStrCaseCompareEq curr.group group
  let dict' :=
    match old with
    | some curr => if replace then dict else copyOldValues curr.values dict
    | none => dict
  let mdata' :=
    match updateGroup group (fun curr => { curr with values := ValueDict.of dict' }) mdata with
    | some mdata' => mdata'
    | none => insertGroup ⟨group.octets, ValueDict.of dict'⟩ mdata
  let packed := metaDataPack mdata' data
  (packed.1, packed.2, dict')

instance ten_neZero : NeZero (10 * 2) := ⟨by decide⟩

def setIn (values : ValueDict) (key value : Octstr) (replace : Bool) : ValueDict :=
  if replace then (values.put key none).put key (some value)
  else if (values.get key).isNone then values.put key (some value)
  else values

def metaDataSetValue (data : Octstr) (group : CString) (key value : Octstr) (replace : Bool) :
    Int × Octstr :=
  let mdata := metaDataUnpack data
  let edit (curr : MetaGroup) := { curr with values := setIn curr.values key value replace }
  let mdata' :=
    match updateGroup group edit mdata with
    | some mdata' => mdata'
    | none => insertGroup (edit ⟨group.octets, ValueDict.of (dictCreate Octstr 10)⟩) mdata
  metaDataPack mdata' data

def metaDataGetValue (data : Octstr) (group : CString) (key : Octstr) : Option Octstr :=
  match (metaDataUnpack data).find? fun curr => octstrStrCaseCompareEq curr.group group with
  | none => none
  | some curr => (dictRemove curr.values.dict key).1

def metaDataRemoveValue (data : Octstr) (group : CString) (key : Octstr) : Int × Octstr :=
  let edit (curr : MetaGroup) := { curr with values := curr.values.put key none }
  match updateGroup group edit (metaDataUnpack data) with
  | none => (-1, data)
  | some mdata => metaDataPack mdata data

end Kannel
