import Kannel.Gw.MetaDataScan

/-!
# Meta-data as a map of maps

Meta-data stands for a partial function from group names, in any case, to partial functions from
keys to values.
-/

namespace Kannel

abbrev MetaMap : Type := Octstr → Option (Octstr → Option Octstr)

namespace MetaMap

def empty : MetaMap := fun _ => none

def values (m : MetaMap) (group : Octstr) : Octstr → Option Octstr :=
  (m group).getD fun _ => none

def setValue (m : MetaMap) (group key value : Octstr) (replace : Bool) : MetaMap :=
  Function.update m group
    (some (if replace ∨ m.values group key = none then
      Function.update (m.values group) key (some value) else m.values group))

def setValues (m : MetaMap) (group : Octstr) (dict : Octstr → Option Octstr) (replace : Bool) :
    MetaMap :=
  Function.update m group
    (some fun key => (dict key).or (if replace then none else m.values group key))

def removeValue (m : MetaMap) (group key : Octstr) : MetaMap :=
  match m group with
  | none => m
  | some old => Function.update m group (some (Function.update old key none))

end MetaMap

variable {size : Nat}

namespace ValueDict

@[simp] theorem get_of [NeZero size] (dict : Dict Octstr size) : (of dict).get = dictGet dict := rfl

theorem get_put (values : ValueDict) (key : Octstr) (value : Option Octstr) :
    (values.put key value).get = Function.update values.get key value := by
  funext key'
  rw [Function.update_apply]
  cases value with
  | none => exact dictGet_dictRemove values.dict key key'
  | some value => exact dictGet_dictPut values.dict key key' value

theorem get_foldl_put (values : ValueDict) (keys : List Octstr) (base : ValueDict) (key : Octstr) :
    (keys.foldl (fun dict key => dict.put key (values.get key)) base).get key =
      if key ∈ keys then values.get key else base.get key := by
  induction keys generalizing base with
  | nil => simp
  | cons first keys ih =>
    rw [List.foldl_cons, ih, get_put]
    by_cases hmem : key ∈ keys
    · simp [hmem]
    · by_cases hfirst : key = first
      · simp [hfirst]
      · simp [hmem, hfirst]

end ValueDict

theorem get_reread (mdata : MetaGroup) : (reread mdata).values.get = mdata.values.get := by
  funext key
  rw [reread, ValueDict.get_foldl_put, ValueDict.get_of]
  by_cases hmem : key ∈ mdata.values.keys
  · rw [if_pos hmem]
  · rw [if_neg hmem]
    rw [mdata.values.mem_keys, Option.not_isSome_iff_eq_none] at hmem
    exact hmem.symm

theorem get_setIn (values : ValueDict) (key value : Octstr) (replace : Bool) :
    (setIn values key value replace).get =
      if replace ∨ values.get key = none then Function.update values.get key (some value)
      else values.get := by
  unfold setIn
  cases replace with
  | true => simp [ValueDict.get_put]
  | false =>
    by_cases hnone : values.get key = none
    · simp [hnone, ValueDict.get_put]
    · simp [hnone]

theorem dictGet_foldl_putOnce [NeZero size] (old : ValueDict) (keys : List Octstr)
    (hkeys : ∀ key ∈ keys, (old.get key).isSome) (dict : Dict Octstr size) (key : Octstr) :
    dictGet (keys.foldl (fun dict key => (dictPutOnce dict key (old.get key)).2) dict) key =
      if key ∈ keys then (dictGet dict key).or (old.get key) else dictGet dict key := by
  induction keys generalizing dict with
  | nil => simp
  | cons first keys ih =>
    obtain ⟨value, hvalue⟩ := Option.isSome_iff_exists.mp (hkeys first List.mem_cons_self)
    rw [List.foldl_cons, ih (fun k hk => hkeys k (List.mem_cons_of_mem _ hk)), hvalue,
      dictGet_dictPutOnce]
    by_cases hfirst : key = first
    · subst hfirst
      cases hget : dictGet dict key <;> simp [hvalue]
    · simp [hfirst]

theorem dictGet_copyOldValues [NeZero size] (old : ValueDict) (dict : Dict Octstr size)
    (key : Octstr) :
    dictGet (copyOldValues old dict) key = (dictGet dict key).or (old.get key) := by
  rw [copyOldValues, dictGet_foldl_putOnce old old.keys fun k hk => (old.mem_keys k).mp hk]
  by_cases hmem : key ∈ old.keys
  · rw [if_pos hmem]
  · rw [if_neg hmem]
    rw [old.mem_keys, Option.not_isSome_iff_eq_none] at hmem
    rw [hmem, Option.or_none]

def groupKey (name : Octstr) : Octstr := (name.takeWhile (· ≠ 0)).map tolower

theorem octstrStrCaseCompareEq_iff (ostr : Octstr) (str : CString) :
    octstrStrCaseCompareEq ostr str = decide (groupKey ostr = groupKey str.octets) := by
  have hstr : str.octets.takeWhile (· ≠ 0) = str.octets := by
    apply List.takeWhile_eq_self_iff.mpr
    intro c hc
    have hne : c ≠ 0 := fun h => str.noNul (h ▸ hc)
    simp [hne]
  simp only [octstrStrCaseCompareEq, equalIgnoringCase, groupKey, hstr]

def contents (mdata : List MetaGroup) : MetaMap := fun name =>
  (mdata.find? fun curr => groupKey curr.group = name).map fun curr => curr.values.get

theorem contents_cons (curr : MetaGroup) (mdata : List MetaGroup) :
    contents (curr :: mdata) =
      Function.update (contents mdata) (groupKey curr.group) (some curr.values.get) := by
  funext name
  by_cases hname : name = groupKey curr.group
  · subst hname
    simp [contents]
  · have hne : ¬ groupKey curr.group = name := fun h => hname h.symm
    simp [contents, hname, hne]

variable (mdata : List MetaGroup)

theorem contents_reread : contents (mdata.map reread) = contents mdata := by
  induction mdata with
  | nil => rfl
  | cons curr mdata ih =>
    rw [List.map_cons, contents_cons, contents_cons, ih, get_reread]
    rfl

theorem find_eq_contents (group : CString) :
    (mdata.find? fun curr => octstrStrCaseCompareEq curr.group group).map
      (fun curr => curr.values.get) = contents mdata (groupKey group.octets) := by
  simp only [octstrStrCaseCompareEq_iff, contents]

variable {group : CString} {curr : MetaGroup} {mdata : List MetaGroup}
variable (edit : MetaGroup → MetaGroup)

theorem contents_updateGroup (hname : ∀ curr, (edit curr).group = curr.group)
    (hfind : mdata.find? (fun curr => octstrStrCaseCompareEq curr.group group) = some curr) :
    ∃ mdata', updateGroup group edit mdata = some mdata' ∧ mdata' ≠ [] ∧
      contents mdata' =
        Function.update (contents mdata) (groupKey group.octets) (some (edit curr).values.get) := by
  induction mdata with
  | nil => cases hfind
  | cons first mdata ih =>
    rw [List.find?_cons] at hfind
    by_cases hfirst : octstrStrCaseCompareEq first.group group = true
    · rw [hfirst] at hfind
      obtain rfl : first = curr := Option.some.inj hfind
      rw [octstrStrCaseCompareEq_iff, decide_eq_true_eq] at hfirst
      refine ⟨edit first :: mdata, ?_, by simp, ?_⟩
      · simp [updateGroup, octstrStrCaseCompareEq_iff, hfirst]
      · rw [contents_cons, contents_cons, hname, hfirst, Function.update_idem]
    · rw [Bool.not_eq_true] at hfirst
      rw [hfirst] at hfind
      obtain ⟨mdata', hupdate, -, hcontents⟩ := ih hfind
      rw [octstrStrCaseCompareEq_iff, decide_eq_false_iff_not] at hfirst
      refine ⟨first :: mdata', ?_, by simp, ?_⟩
      · simp [updateGroup, octstrStrCaseCompareEq_iff, hfirst, hupdate]
      · rw [contents_cons, contents_cons, hcontents, Function.update_comm (Ne.symm hfirst)]

theorem updateGroup_none
    (hfind : mdata.find? (fun curr => octstrStrCaseCompareEq curr.group group) = none) :
    updateGroup group edit mdata = none := by
  induction mdata with
  | nil => rfl
  | cons first mdata ih =>
    rw [List.find?_cons] at hfind
    by_cases hfirst : octstrStrCaseCompareEq first.group group = true
    · rw [hfirst] at hfind
      cases hfind
    · rw [Bool.not_eq_true] at hfirst
      rw [hfirst] at hfind
      simp [updateGroup, hfirst, ih hfind]

theorem contents_insertGroup (hnew : contents mdata (groupKey curr.group) = none) :
    contents (insertGroup curr mdata) =
      Function.update (contents mdata) (groupKey curr.group) (some curr.values.get) := by
  cases mdata with
  | nil => exact contents_cons curr []
  | cons first mdata =>
    have hne : groupKey first.group ≠ groupKey curr.group := by
      intro heq
      rw [contents_cons, heq, Function.update_self] at hnew
      cases hnew
    rw [insertGroup, contents_cons, contents_cons, contents_cons, Function.update_comm hne]

def Renders (data : Octstr) (m : MetaMap) : Prop :=
  ∃ mdata, data = mdata.flatMap packGroup ∧ contents mdata = m

theorem renders_empty : Renders [] MetaMap.empty := ⟨[], rfl, rfl⟩

variable {data : Octstr} {m : MetaMap}

theorem Renders.unpack (h : Renders data m) : contents (metaDataUnpack data) = m := by
  obtain ⟨mdata, rfl, rfl⟩ := h
  rw [metaDataUnpack_pack, contents_reread]

theorem renders_pack (hne : mdata ≠ []) (data : Octstr) :
    (metaDataPack mdata data).1 = 0 ∧ Renders (metaDataPack mdata data).2 (contents mdata) := by
  rw [metaDataPack, if_neg hne]
  exact ⟨rfl, mdata, rfl, rfl⟩

theorem renders_edit (hm : contents mdata = m) (data : Octstr) (group : CString)
    (edit : MetaGroup → MetaGroup) (new : MetaGroup) {result : Octstr → Option Octstr}
    (hname : ∀ curr, (edit curr).group = curr.group) (hnew : new.group = group.octets)
    (hold : ∀ curr, mdata.find? (fun curr => octstrStrCaseCompareEq curr.group group) = some curr →
      (edit curr).values.get = result)
    (hnone : mdata.find? (fun curr => octstrStrCaseCompareEq curr.group group) = none →
      new.values.get = result) :
    let mdata' :=
      match updateGroup group edit mdata with
      | some mdata' => mdata'
      | none => insertGroup new mdata
    (metaDataPack mdata' data).1 = 0 ∧
      Renders (metaDataPack mdata' data).2
        (Function.update m (groupKey group.octets) (some result)) := by
  subst hm
  cases hfind : mdata.find? (fun curr => octstrStrCaseCompareEq curr.group group) with
  | none =>
    have hfree : contents mdata (groupKey new.group) = none := by
      rw [hnew, ← find_eq_contents, hfind, Option.map_none]
    have hins : insertGroup new mdata ≠ [] := by
      cases mdata <;> simp [insertGroup]
    rw [updateGroup_none edit hfind, ← hnone hfind, ← hnew, ← contents_insertGroup hfree]
    exact renders_pack hins data
  | some curr =>
    obtain ⟨mdata', hupdate, hne, hcontents⟩ := contents_updateGroup edit hname hfind
    rw [hupdate, ← hold curr hfind, ← hcontents]
    exact renders_pack hne data

theorem values_of_find (hm : contents mdata = m)
    (hfind : mdata.find? (fun curr => octstrStrCaseCompareEq curr.group group) = some curr) :
    m.values (groupKey group.octets) = curr.values.get := by
  rw [MetaMap.values, ← hm, ← find_eq_contents, hfind, Option.map_some, Option.getD_some]

theorem values_of_not_find (hm : contents mdata = m)
    (hfind : mdata.find? (fun curr => octstrStrCaseCompareEq curr.group group) = none) :
    m.values (groupKey group.octets) = fun _ => none := by
  rw [MetaMap.values, ← hm, ← find_eq_contents, hfind, Option.map_none, Option.getD_none]

section
variable (h : Renders data m)
include h

variable (group : CString)

theorem metaDataSetValue_renders (key value : Octstr) (replace : Bool) :
    (metaDataSetValue data group key value replace).1 = 0 ∧
      Renders (metaDataSetValue data group key value replace).2
        (m.setValue (groupKey group.octets) key value replace) := by
  apply renders_edit h.unpack data group
    (fun curr => { curr with values := setIn curr.values key value replace })
  · intro curr
    rfl
  · rfl
  · intro curr hfind
    rw [values_of_find h.unpack hfind, get_setIn]
  · intro hfind
    have hempty : dictGet (dictCreate Octstr 10) = fun _ => none := by
      funext key
      exact dictGet_dictCreate 10 key
    rw [values_of_not_find h.unpack hfind, get_setIn, ValueDict.get_of, hempty]

theorem metaDataSetValues_renders {size : Nat} [NeZero size] (dict : Dict Octstr size)
    (group : CString) (replace : Bool) :
    (metaDataSetValues data dict group replace).1 = 0 ∧
      Renders (metaDataSetValues data dict group replace).2.1
        (m.setValues (groupKey group.octets) (dictGet dict) replace) := by
  apply renders_edit h.unpack data group
  · intro curr
    rfl
  · rfl
  · intro curr hfind
    rw [values_of_find h.unpack hfind, hfind]
    funext key
    cases replace with
    | true => simp
    | false => simp [dictGet_copyOldValues]
  · intro hfind
    rw [values_of_not_find h.unpack hfind, hfind]
    simp

theorem metaDataRemoveValue_renders (key : Octstr) :
    Renders (metaDataRemoveValue data group key).2 (m.removeValue (groupKey group.octets) key) := by
  have hm := h.unpack
  unfold metaDataRemoveValue MetaMap.removeValue
  dsimp only
  cases hfind :
      (metaDataUnpack data).find? (fun curr => octstrStrCaseCompareEq curr.group group) with
  | none =>
    have hnone : m (groupKey group.octets) = none := by
      rw [← hm, ← find_eq_contents, hfind, Option.map_none]
    rw [updateGroup_none _ hfind, hnone]
    exact h
  | some curr =>
    have hsome : m (groupKey group.octets) = some curr.values.get := by
      rw [← hm, ← find_eq_contents, hfind, Option.map_some]
    obtain ⟨mdata', hupdate, hne, hcontents⟩ := contents_updateGroup
      (fun curr => { curr with values := curr.values.put key none }) (fun _ => rfl) hfind
    rw [hupdate, hsome, ← hm]
    rw [ValueDict.get_put] at hcontents
    dsimp only
    rw [← hcontents]
    exact (renders_pack hne data).2

theorem Renders.getValues :
    (metaDataGetValues data group).map ValueDict.get = m (groupKey group.octets) := by
  rw [← h.unpack, ← find_eq_contents, metaDataGetValues, Option.map_map]
  rfl

theorem Renders.getValue (key : Octstr) :
    metaDataGetValue data group key = m.values (groupKey group.octets) key := by
  unfold metaDataGetValue
  cases hfind :
      (metaDataUnpack data).find? (fun curr => octstrStrCaseCompareEq curr.group group) with
  | none => rw [values_of_not_find h.unpack hfind]
  | some curr =>
    rw [values_of_find h.unpack hfind]
    exact dictRemove_fst curr.values.dict key

end

inductive MetaCall where
  | setValue (group : CString) (key value : Octstr) (replace : Bool)
  | setValues (dict : ValueDict) (group : CString) (replace : Bool)
  | removeValue (group : CString) (key : Octstr)

def MetaCall.run (data : Octstr) : MetaCall → Octstr
  | .setValue group key value replace => (metaDataSetValue data group key value replace).2
  | .setValues dict group replace => (metaDataSetValues data dict.dict group replace).2.1
  | .removeValue group key => (metaDataRemoveValue data group key).2

def MetaCall.spec (m : MetaMap) : MetaCall → MetaMap
  | .setValue group key value replace => m.setValue (groupKey group.octets) key value replace
  | .setValues dict group replace => m.setValues (groupKey group.octets) dict.get replace
  | .removeValue group key => m.removeValue (groupKey group.octets) key

theorem MetaCall.run_renders (h : Renders data m) (call : MetaCall) :
    Renders (call.run data) (call.spec m) := by
  cases call with
  | setValue group key value replace => exact (metaDataSetValue_renders h group key value replace).2
  | setValues dict group replace => exact (metaDataSetValues_renders h dict.dict group replace).2
  | removeValue group key => exact metaDataRemoveValue_renders h group key

theorem renders_history (h : Renders data m) (calls : List MetaCall) :
    Renders (calls.foldl MetaCall.run data) (calls.foldl MetaCall.spec m) := by
  induction calls generalizing data m with
  | nil => exact h
  | cons call calls ih => exact ih (call.run_renders h)

/-- **Meta-data is a map of maps.**  After any editing calls on empty meta-data, the reading
calls answer as the map does. -/
theorem metaData_refines_map (calls : List MetaCall) :
    let data := calls.foldl MetaCall.run []
    let m := calls.foldl MetaCall.spec MetaMap.empty
    (∀ group : CString,
      (metaDataGetValues data group).map ValueDict.get = m (groupKey group.octets)) ∧
    (∀ (group : CString) (key : Octstr),
      metaDataGetValue data group key = (m (groupKey group.octets)).bind (· key)) := by
  intro data m
  have h : Renders data m := renders_history renders_empty calls
  refine ⟨h.getValues, ?_⟩
  intro group key
  rw [h.getValue, MetaMap.values]
  cases m (groupKey group.octets) <;> rfl

end Kannel
