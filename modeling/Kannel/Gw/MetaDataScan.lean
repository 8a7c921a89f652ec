import Kannel.Gw.MetaData

/-!
# Meta-data is read back as it was rendered

URL-encoded parts contain no separators, so `meta_data_unpack` meets one exactly where
`meta_data_pack` wrote it.
-/

namespace Kannel
open List
attribute [simp] unpackSwitch

def PlainOctet (c : UInt8) : Prop := c ≠ 0 ∧ c ≠ 63 ∧ c ≠ 61 ∧ c ≠ 38

theorem unpackSwitch_plain {c : UInt8} (hc : PlainOctet c) (pos : Int) (s : Unpack) :
    unpackSwitch c pos s = some s := by
  obtain ⟨h0, h63, h61, h38⟩ := hc
  simp [h0, h63, h61, h38]

variable {s : Unpack} (data : Octstr)

theorem unpackTake_open (hopen : s.stop = -1) : unpackTake data s = s := by
  simp [unpackTake, hopen]

theorem unpackField_ended (text : Octstr) (s : Unpack) (stop : Int) (next : Option FieldType) :
    unpackField text { s with stop := stop, nextType := next } =
      { unpackField text s with stop := stop, nextType := next } := by
  obtain ⟨start, _, type, _, key, ret⟩ := s
  rcases type with _ | type
  · rfl
  · cases type <;> rfl

theorem unpackLoop_plain (hopen : s.stop = -1) (str part : Octstr) (pos : Int)
    (hplain : ∀ c ∈ part, PlainOctet c) :
    unpackLoop data (part ++ str) pos s = unpackLoop data str (pos + part.length) s := by
  induction part generalizing pos with
  | nil => simp
  | cons c part ih =>
    have hc := hplain c mem_cons_self
    have hpart : ∀ d ∈ part, PlainOctet d := fun d hd => hplain d (mem_cons_of_mem _ hd)
    rw [cons_append, unpackLoop, unpackSwitch_plain hc]
    dsimp only
    rw [unpackTake_open data hopen, ih (pos + 1) hpart, length_cons]
    congr 1
    omega

variable {before str : Octstr}

theorem unpackLoop_part {text : Octstr} {c : UInt8} {next : Option FieldType}
    (hdata : data = before ++ (octstrUrlEncode text ++ c :: str))
    (hstart : s.start + 1 = before.length) (hbegun : 0 ≤ s.start) (hopen : s.stop = -1)
    (hswitch : ∀ pos, unpackSwitch c pos s = some { s with stop := pos, nextType := next }) :
    unpackLoop data (octstrUrlEncode text ++ c :: str) before.length s =
      unpackLoop data str (before ++ octstrUrlEncode text ++ [c]).length
        { unpackField text s with
            type := next, nextType := none, stop := -1
            start := (before ++ octstrUrlEncode text).length } := by
  have hplain : ∀ d ∈ octstrUrlEncode text, PlainOctet d := fun d hd => octstrUrlEncode_plain hd
  rw [unpackLoop_plain data hopen _ _ _ hplain, unpackLoop, hswitch]
  have hpart : (data.drop (s.start + 1).toNat).take
      ((before.length + (octstrUrlEncode text).length : Int) - s.start - 1).toNat =
        octstrUrlEncode text := by
    have hdrop : (s.start + 1).toNat = before.length := by omega
    have htake : ((before.length + (octstrUrlEncode text).length : Int) - s.start - 1).toNat =
      (octstrUrlEncode text).length := by omega
    rw [hdrop, htake, hdata, drop_left, take_left]
  have hended : (0 : Int) ≤ before.length + (octstrUrlEncode text).length := by omega
  unfold unpackTake
  simp only [hbegun, hended, and_self, if_true, hpart, octstrUrlDecode_octstrUrlEncode,
    unpackField_ended, length_append, length_singleton, Nat.cast_add, Nat.cast_one]

def groupState (start : Int) (ret : List MetaGroup) : Unpack :=
  { start := start, stop := -1, type := some .group, nextType := none, key := none, ret := ret }

def keyState (start : Int) (ret : List MetaGroup) : Unpack :=
  { start := start, stop := -1, type := some .key, nextType := none, key := none, ret := ret }

attribute [simp] keyState

def valueState (start : Int) (key : Octstr) (ret : List MetaGroup) : Unpack :=
  { start := start, stop := -1, type := some .value, nextType := none, key := some key, ret := ret }

theorem length_behind (before : Octstr) (c : UInt8) :
    (before.length : Int) = ((before ++ [c]).length : Int) - 1 := by
  rw [length_append, length_singleton]
  omega

section Scanning
variable {before str : Octstr} {ret : List MetaGroup} (data : Octstr)

theorem unpackLoop_groupName {name : Octstr}
    (hdata : data = before ++ (octstrUrlEncode name ++ 63 :: str)) (hbefore : before ≠ []) :
    unpackLoop data (octstrUrlEncode name ++ 63 :: str) before.length
        (groupState (before.length - 1) ret) =
      unpackLoop data str (before ++ octstrUrlEncode name ++ [63]).length
        (keyState (before ++ octstrUrlEncode name).length
          (ret ++ [⟨name, ValueDict.of (dictCreate Octstr 1024)⟩])) := by
  have hlen : 0 < before.length := length_pos_iff.mpr hbefore
  have hbegun : (before.length : Int) - 1 ≠ -1 := by omega
  apply unpackLoop_part data hdata
  · simp [groupState]
  · simp only [groupState]
    omega
  · rfl
  · intro pos
    simp [groupState, hbegun]

theorem unpackLoop_key {key : Octstr} (hdata : data = before ++ (octstrUrlEncode key ++ 61 :: str))
    (hbefore : before ≠ []) (hret : ret ≠ []) :
    unpackLoop data (octstrUrlEncode key ++ 61 :: str) before.length
        (keyState (before.length - 1) ret) =
      unpackLoop data str (before ++ octstrUrlEncode key ++ [61]).length
        (valueState (before ++ octstrUrlEncode key).length key ret) := by
  have hlen : 0 < before.length := length_pos_iff.mpr hbefore
  apply unpackLoop_part data hdata
  · simp
  · simp only [keyState]
    omega
  · rfl
  · intro pos
    simp [hret]

variable {key value : Octstr}

theorem unpackLoop_value (hdata : data = before ++ (octstrUrlEncode value ++ 38 :: str))
    (hbefore : before ≠ []) (hret : ret ≠ []) :
    unpackLoop data (octstrUrlEncode value ++ 38 :: str) before.length
        (valueState (before.length - 1) key ret) =
      unpackLoop data str (before ++ octstrUrlEncode value ++ [38]).length
        (keyState (before ++ octstrUrlEncode value).length (putInLast ret key value)) := by
  have hlen : 0 < before.length := length_pos_iff.mpr hbefore
  apply unpackLoop_part data hdata
  · simp [valueState]
  · simp only [valueState]
    omega
  · rfl
  · intro pos
    simp [valueState, hret]

variable {values : ValueDict}

theorem unpackLoop_packValue (hget : values.get key = some value)
    (hdata : data = before ++ (packValue values key ++ str)) (hbefore : before ≠ [])
    (hret : ret ≠ []) :
    unpackLoop data (packValue values key ++ str) before.length (keyState (before.length - 1) ret) =
      unpackLoop data str (before ++ packValue values key).length
        (keyState ((before ++ packValue values key).length - 1) (putInLast ret key value)) := by
  have hpack : packValue values key =
      octstrUrlEncode key ++ 61 :: (octstrUrlEncode value ++ [38]) := by
    simp [packValue, formatUrl, hget]
  rw [hpack, append_assoc, cons_append, append_assoc, singleton_append]
  rw [hpack, append_assoc, cons_append, append_assoc, singleton_append] at hdata
  rw [unpackLoop_key data hdata hbefore hret]
  have hvalue : data =
      (before ++ octstrUrlEncode key ++ [61]) ++ (octstrUrlEncode value ++ 38 :: str) := by
    rw [hdata]
    simp
  have hstop : ((before ++ octstrUrlEncode key ++ [61] ++ octstrUrlEncode value).length : Int) =
      (before ++ (octstrUrlEncode key ++ 61 :: (octstrUrlEncode value ++ [38]))).length - 1 := by
    simp
    omega
  rw [length_behind (before ++ octstrUrlEncode key) 61,
    unpackLoop_value data hvalue (by simp) hret, hstop]
  simp

theorem unpackLoop_packValues (str : Octstr) (keys : List Octstr) (before : Octstr)
    (done : List MetaGroup) (curr : MetaGroup) (hkeys : ∀ key ∈ keys, (values.get key).isSome)
    (hdata : data = before ++ (keys.flatMap (packValue values) ++ str)) (hbefore : before ≠ []) :
    unpackLoop data (keys.flatMap (packValue values) ++ str) before.length
        (keyState (before.length - 1) (done ++ [curr])) =
      unpackLoop data str (before ++ keys.flatMap (packValue values)).length
        (keyState ((before ++ keys.flatMap (packValue values)).length - 1)
          (done ++ [⟨curr.group,
            keys.foldl (fun dict key => dict.put key (values.get key)) curr.values⟩])) := by
  induction keys generalizing before done curr with
  | nil => simp
  | cons key keys ih =>
    obtain ⟨value, hvalue⟩ := Option.isSome_iff_exists.mp (hkeys key mem_cons_self)
    rw [flatMap_cons, append_assoc] at hdata ⊢
    rw [unpackLoop_packValue data hvalue hdata hbefore (by simp)]
    have hput : putInLast (done ++ [curr]) key value =
        done ++ [⟨curr.group, curr.values.put key (values.get key)⟩] := by
      simp [putInLast, hvalue]
    rw [hput, ih (before ++ packValue values key) done _
      (fun k hk => hkeys k (mem_cons_of_mem _ hk)) (by rw [hdata, append_assoc])
      (by simp [hbefore]), append_assoc, foldl_cons]

end Scanning

def reread (mdata : MetaGroup) : MetaGroup where
  group := mdata.group
  values := mdata.values.keys.foldl (fun dict key => dict.put key (mdata.values.get key))
    (ValueDict.of (dictCreate Octstr 1024))

theorem ValueDict.mem_keys (values : ValueDict) (key : Octstr) :
    key ∈ values.keys ↔ (values.get key).isSome :=
  mem_dictKeys values.dict key

def BetweenGroups (pos : Nat) (s : Unpack) (ret : List MetaGroup) : Prop :=
  (pos = 0 ∧ ret = [] ∧ s = Unpack.init) ∨ (0 < pos ∧ s = keyState (pos - 1) ret)

theorem unpackLoop_packGroup {ret : List MetaGroup} (mdata : MetaGroup)
    (hdata : data = before ++ (packGroup mdata ++ str)) (hs : BetweenGroups before.length s ret) :
    unpackLoop data (packGroup mdata ++ str) before.length s =
      unpackLoop data str (before ++ packGroup mdata).length
        (keyState ((before ++ packGroup mdata).length - 1) (ret ++ [reread mdata])) := by
  have hbegin : unpackSwitch 63 before.length s = some (groupState before.length ret) := by
    rcases hs with ⟨-, rfl, rfl⟩ | ⟨-, rfl⟩
    · rfl
    · by_cases hfirst : (before.length : Int) - 1 = -1
      · simp [groupState, hfirst]
      · simp [groupState, hfirst]
  have hpack : packGroup mdata = 63 :: (octstrUrlEncode mdata.group ++
      63 :: mdata.values.keys.flatMap (packValue mdata.values)) := by
    simp [packGroup, formatUrl]
  rw [hpack, cons_append, append_assoc, cons_append] at hdata ⊢
  rw [unpackLoop, hbegin]
  dsimp only
  have hname : data = (before ++ [63]) ++ (octstrUrlEncode mdata.group ++
      63 :: (mdata.values.keys.flatMap (packValue mdata.values) ++ str)) := by
    rw [hdata]
    simp
  have hpos : (before.length : Int) + 1 = (before ++ [63]).length := by simp
  rw [unpackTake_open data rfl, hpos, length_behind before 63,
    unpackLoop_groupName data hname (by simp)]
  have hvalues : data = (before ++ [63] ++ octstrUrlEncode mdata.group ++ [63]) ++
      (mdata.values.keys.flatMap (packValue mdata.values) ++ str) := by
    rw [hdata]
    simp
  have hall : ∀ key ∈ mdata.values.keys, (mdata.values.get key).isSome :=
    fun key hkey => (mdata.values.mem_keys key).mp hkey
  rw [length_behind (before ++ [63] ++ octstrUrlEncode mdata.group) 63,
    unpackLoop_packValues data str mdata.values.keys _ ret _ hall hvalues (by simp)]
  simp [reread]

variable (mdata : List MetaGroup)

theorem unpackLoop_packGroups (before : Octstr) (s : Unpack) (ret : List MetaGroup)
    (hdata : data = before ++ mdata.flatMap packGroup) (hs : BetweenGroups before.length s ret) :
    ∃ s', unpackLoop data (mdata.flatMap packGroup) before.length s = some s' ∧
      s'.ret = ret ++ mdata.map reread := by
  induction mdata generalizing before s ret with
  | nil =>
    rcases hs with ⟨-, rfl, rfl⟩ | ⟨-, rfl⟩
    · exact ⟨Unpack.init, rfl, rfl⟩
    · have hend : unpackSwitch 0 before.length (keyState (before.length - 1) ret) =
          some (keyState (before.length - 1) ret) := by
        simp
      refine ⟨keyState (before.length - 1) ret, ?_, by simp⟩
      rw [flatMap_nil, unpackLoop, hend, Option.map_some, unpackTake_open data rfl]
  | cons group mdata ih =>
    rw [flatMap_cons] at hdata ⊢
    rw [unpackLoop_packGroup data group hdata hs]
    have hlen : 0 < (before ++ packGroup group).length := by simp [packGroup]
    obtain ⟨s', hrun, hret⟩ := ih (before ++ packGroup group)
      (keyState ((before ++ packGroup group).length - 1) (ret ++ [reread group]))
      (ret ++ [reread group]) (by rw [hdata, append_assoc]) (.inr ⟨hlen, rfl⟩)
    exact ⟨s', hrun, by rw [hret]; simp⟩

theorem metaDataUnpack_pack : metaDataUnpack (mdata.flatMap packGroup) = mdata.map reread := by
  obtain ⟨s', hrun, hret⟩ := unpackLoop_packGroups (mdata.flatMap packGroup) mdata [] Unpack.init []
    rfl (.inl ⟨rfl, rfl, rfl⟩)
  have hloop : unpackLoop (mdata.flatMap packGroup) (mdata.flatMap packGroup) 0 Unpack.init =
    some s' := hrun
  rw [metaDataUnpack, hloop]
  simpa using hret

end Kannel
