import Kannel.Gw.MetaDataMap

/-!
# Merging meta-data

`meta_data_merge` files the groups of one string into those of another. It looks for a group
of the very name, where the functions that read and set values pay no regard to case.
-/

namespace Kannel
open List

def mergeValue (new : ValueDict) (replace : Bool) (curr : ValueDict) (key : Octstr) : ValueDict :=
  if replace then (curr.put key none).put key (new.get key)
  else .of (dictPutOnce curr.dict key (new.get key)).2

def mergeValues (new curr : ValueDict) (replace : Bool) : ValueDict :=
  new.keys.foldl (mergeValue new replace) curr

def added (replace : Bool) (new : MetaGroup) : MetaGroup :=
  ⟨new.group, mergeValues new.values (.of (dictCreate Octstr 10)) replace⟩

def mergeGroup (replace : Bool) (new : MetaGroup) : List MetaGroup → List MetaGroup
  | [] =>
    -- the last group has got an empty one behind it, to which the loop comes next
    [added replace new]
  | curr :: next =>
    if curr.group = new.group then
      { curr with values := mergeValues new.values curr.values replace } :: next
    else curr :: mergeGroup replace new next

def metaDataMerge (data newData : Octstr) (replace : Bool) : Option Octstr :=
  if data.length < 1 then some newData
  else if newData.length < 1 then some data
  else if metaDataUnpack data = [] then some newData
  else if metaDataUnpack newData = [] then some data
  else
    let mdata := (metaDataUnpack newData).foldl (fun mdata new => mergeGroup replace new mdata)
      (metaDataUnpack data)
    let packed := metaDataPack mdata []
    if packed.1 = -1 then none else some packed.2

def pick (replace : Bool) (old new : Option Octstr) : Option Octstr :=
  if replace then new.or old else old.or new

theorem get_mergeValue {new : ValueDict} {key : Octstr} (replace : Bool) (curr : ValueDict)
    (h : (new.get key).isSome) :
    (mergeValue new replace curr key).get =
      Function.update curr.get key (pick replace (curr.get key) (new.get key)) := by
  obtain ⟨value, hvalue⟩ := Option.isSome_iff_exists.mp h
  unfold mergeValue pick
  cases replace with
  | true => simp [ValueDict.get_put, hvalue]
  | false =>
    funext key'
    simp only [Bool.false_eq_true, if_false, ValueDict.get_of, hvalue, dictGet_dictPutOnce,
      Function.update_apply]
    change (if key' = key then some ((curr.get key).getD value) else curr.get key') = _
    cases curr.get key <;> rfl

theorem get_foldl_mergeValue {new : ValueDict} {keys : List Octstr} (replace : Bool)
    (curr : ValueDict) (hkeys : ∀ key ∈ keys, (new.get key).isSome) (hnodup : keys.Nodup)
    (key : Octstr) :
    (keys.foldl (mergeValue new replace) curr).get key =
      if key ∈ keys then pick replace (curr.get key) (new.get key) else curr.get key := by
  induction keys generalizing curr with
  | nil => simp
  | cons first keys ih =>
    obtain ⟨hnew, hnodup⟩ := nodup_cons.mp hnodup
    rw [foldl_cons, ih _ (fun k hk => hkeys k (mem_cons_of_mem _ hk)) hnodup,
      get_mergeValue replace curr (hkeys first mem_cons_self)]
    by_cases hfirst : key = first
    · subst hfirst
      simp [hnew]
    · simp [hfirst]

theorem get_mergeValues (new curr : ValueDict) (replace : Bool) (key : Octstr) :
    (mergeValues new curr replace).get key = pick replace (curr.get key) (new.get key) := by
  rw [mergeValues, get_foldl_mergeValue replace curr (fun k hk => (new.mem_keys k).mp hk)
    (nodup_dictKeys new.dict)]
  by_cases hmem : key ∈ new.keys
  · rw [if_pos hmem]
  · rw [new.mem_keys, Option.not_isSome_iff_eq_none] at hmem
    cases replace <;> simp [pick, hmem]

def firstNamed (mdata : List MetaGroup) (name : Octstr) : Option MetaGroup :=
  mdata.find? fun curr => groupKey curr.group = name

def filed (replace : Bool) (new curr : MetaGroup) : MetaGroup :=
  if curr.group = new.group then
    { curr with values := mergeValues new.values curr.values replace }
  else curr

variable {replace : Bool} {new curr : MetaGroup} {mdata news : List MetaGroup} {name : Octstr}

theorem firstNamed_cons :
    firstNamed (curr :: mdata) name =
      if groupKey curr.group = name then some curr else firstNamed mdata name := by
  by_cases h : groupKey curr.group = name <;> simp [firstNamed, h]

theorem groupKey_of_firstNamed (h : firstNamed mdata name = some curr) :
    groupKey curr.group = name := by
  simpa using find?_some h

theorem map_filed_firstNamed (h : groupKey new.group ≠ name) :
    (firstNamed mdata name).map (filed replace new) = firstNamed mdata name := by
  cases hfound : firstNamed mdata name with
  | none => rfl
  | some curr =>
    have hother : curr.group ≠ new.group := by
      intro heq
      rw [← heq] at h
      exact h (groupKey_of_firstNamed hfound)
    rw [Option.map_some, filed, if_neg hother]

theorem mergeGroup_ne_nil : mergeGroup replace new mdata ≠ [] := by
  cases mdata with
  | nil => exact cons_ne_nil _ _
  | cons curr next =>
    rw [mergeGroup]
    split <;> exact cons_ne_nil _ _

theorem firstNamed_mergeGroup :
    firstNamed (mergeGroup replace new mdata) name =
      ((firstNamed mdata name).map (filed replace new)).or
        (if groupKey new.group = name then some (added replace new) else none) := by
  induction mdata with
  | nil => exact firstNamed_cons
  | cons curr next ih =>
    rw [mergeGroup, firstNamed_cons]
    by_cases hsame : curr.group = new.group
    · rw [if_pos hsame, firstNamed_cons]
      by_cases hname : groupKey curr.group = name
      · rw [if_pos hname, if_pos hname, Option.map_some, filed, if_pos hsame, Option.some_or]
      · rw [if_neg hname, if_neg hname]
        rw [hsame] at hname
        rw [if_neg hname, map_filed_firstNamed hname, Option.or_none]
    · rw [if_neg hsame, firstNamed_cons, ih]
      by_cases hname : groupKey curr.group = name
      · rw [if_pos hname, if_pos hname, Option.map_some, filed, if_neg hsame, Option.some_or]
      · rw [if_neg hname, if_neg hname]

theorem firstNamed_merged (hnodup : (news.map fun new => groupKey new.group).Nodup) :
    firstNamed (news.foldl (fun mdata new => mergeGroup replace new mdata) mdata) name =
      ((firstNamed mdata name).map fun curr =>
        (firstNamed news name).elim curr fun new => filed replace new curr).or
        ((firstNamed news name).map (added replace)) := by
  induction news generalizing mdata with
  | nil => simp [firstNamed]
  | cons new news ih =>
    rw [map_cons, nodup_cons] at hnodup
    rw [foldl_cons, ih hnodup.2, firstNamed_mergeGroup, firstNamed_cons]
    by_cases hname : groupKey new.group = name
    · have hgone : firstNamed news name = none := by
        refine find?_eq_none.mpr fun other hother => ?_
        rw [← hname, decide_eq_true_eq]
        exact fun heq => hnodup.1 (heq ▸ mem_map_of_mem hother)
      simp [hgone, hname]
    · simp [hname, map_filed_firstNamed]

section Strings
variable {data newData : Octstr} {group : CString} {key : Octstr}

def valueIn (mdata : List MetaGroup) (group : CString) (key : Octstr) : Option Octstr :=
  (firstNamed mdata (groupKey group.octets)).bind fun curr => curr.values.get key

theorem values_contents : (contents mdata).values (groupKey group.octets) key =
    valueIn mdata group key := by
  unfold MetaMap.values valueIn contents firstNamed
  cases mdata.find? _ <;> rfl

theorem metaDataGetValue_eq :
    metaDataGetValue data group key = valueIn (metaDataUnpack data) group key := by
  unfold metaDataGetValue valueIn firstNamed
  simp only [octstrStrCaseCompareEq_iff]
  cases (metaDataUnpack data).find? _ with
  | none => rfl
  | some curr => exact dictRemove_fst curr.values.dict key

theorem metaDataGetValue_of_unpack (h : metaDataUnpack data = []) :
    metaDataGetValue data group key = none := by
  rw [metaDataGetValue_eq, h]
  rfl

theorem foldl_mergeGroup_ne_nil (h : mdata ≠ []) :
    news.foldl (fun mdata new => mergeGroup replace new mdata) mdata ≠ [] := by
  induction news generalizing mdata with
  | nil => exact h
  | cons new news ih => exact ih mergeGroup_ne_nil

def mergedValue (data newData : Octstr) (replace : Bool) (group : CString) (key : Octstr) :
    Option Octstr :=
  (metaDataMerge data newData replace).bind fun merged => metaDataGetValue merged group key

theorem unpack_of_length (h : data.length < 1) : metaDataUnpack data = [] := by
  rw [length_eq_zero_iff.mp (Nat.lt_one_iff.mp h)]
  rfl

theorem mergedValue_old (h : metaDataUnpack data = []) :
    mergedValue data newData replace group key = metaDataGetValue newData group key := by
  unfold mergedValue metaDataMerge
  by_cases hdata : data.length < 1
  · rw [if_pos hdata]
    rfl
  · rw [if_neg hdata]
    by_cases hnew : newData.length < 1
    · rw [if_pos hnew, metaDataGetValue_of_unpack (unpack_of_length hnew)]
      exact metaDataGetValue_of_unpack h
    · rw [if_neg hnew, if_pos h]
      rfl

theorem mergedValue_new (h : metaDataUnpack data ≠ []) (hnew : metaDataUnpack newData = []) :
    mergedValue data newData replace group key = metaDataGetValue data group key := by
  have hdata : ¬ data.length < 1 := fun hlt => h (unpack_of_length hlt)
  unfold mergedValue metaDataMerge
  rw [if_neg hdata]
  split <;> rfl

theorem mergedValue_both (h : metaDataUnpack data ≠ []) (hnew : metaDataUnpack newData ≠ []) :
    mergedValue data newData replace group key =
      valueIn ((metaDataUnpack newData).foldl (fun mdata new => mergeGroup replace new mdata)
        (metaDataUnpack data)) group key := by
  have hdata : ¬ data.length < 1 := fun hlt => h (unpack_of_length hlt)
  have hnewData : ¬ newData.length < 1 := fun hlt => hnew (unpack_of_length hlt)
  obtain ⟨hzero, hrenders⟩ := renders_pack (foldl_mergeGroup_ne_nil h) []
  unfold mergedValue metaDataMerge
  rw [if_neg hdata, if_neg hnewData, if_neg h, if_neg hnew]
  dsimp only
  rw [hzero, if_neg (by decide), Option.bind_some, hrenders.getValue, values_contents]

/-- Where both strings have the group they spell it alike, or it does not matter for the key. -/
def SpeltAlike (data newData : Octstr) (group : CString) (key : Octstr) : Prop :=
  ∀ curr new, firstNamed (metaDataUnpack data) (groupKey group.octets) = some curr →
    firstNamed (metaDataUnpack newData) (groupKey group.octets) = some new →
      curr.group = new.group ∨ new.values.get key = none ∨ new.values.get key = curr.values.get key

def DistinctGroups (data : Octstr) : Prop :=
  ((metaDataUnpack data).map fun curr => groupKey curr.group).Nodup

instance decidableDistinctGroups (data : Octstr) : Decidable (DistinctGroups data) :=
  inferInstanceAs (Decidable (Nodup _))

theorem kept_iff (old new : Option Octstr) :
    (old = new.or old ∧ old = old.or new) ↔ new = none ∨ new = old := by
  cases old <;> cases new <;> simp [eq_comm]

/-- **A merge gives the values of both strings where they spell the group alike.** -/
theorem metaDataMerge_values_iff (data newData : Octstr) (hdistinct : DistinctGroups newData)
    (group : CString) (key : Octstr) :
    (mergedValue data newData true group key =
          (metaDataGetValue newData group key).or (metaDataGetValue data group key) ∧
        mergedValue data newData false group key =
          (metaDataGetValue data group key).or (metaDataGetValue newData group key)) ↔
      SpeltAlike data newData group key := by
  by_cases hdata : metaDataUnpack data = []
  · simp [mergedValue_old hdata, metaDataGetValue_of_unpack hdata, SpeltAlike, hdata, firstNamed]
  · by_cases hnew : metaDataUnpack newData = []
    · simp [mergedValue_new hdata hnew, metaDataGetValue_of_unpack hnew, SpeltAlike, hnew,
        firstNamed]
    · rw [mergedValue_both hdata hnew, mergedValue_both hdata hnew, metaDataGetValue_eq,
        metaDataGetValue_eq]
      unfold valueIn SpeltAlike
      rw [firstNamed_merged hdistinct, firstNamed_merged hdistinct]
      cases firstNamed (metaDataUnpack data) (groupKey group.octets) with
      | none =>
        cases firstNamed (metaDataUnpack newData) (groupKey group.octets) with
        | none => simp
        | some new => simp [added, get_mergeValues, pick]
      | some curr =>
        cases firstNamed (metaDataUnpack newData) (groupKey group.octets) with
        | none => simp
        | some new =>
          by_cases hsame : curr.group = new.group
          · simp [filed, hsame, get_mergeValues, pick]
          · simpa [filed, hsame] using kept_iff (curr.values.get key) (new.values.get key)

end Strings

theorem smpp_noNul : (0 : UInt8) ∉ ascii "smpp" := by decide

def smppGroup : CString := ⟨ascii "smpp", smpp_noNul⟩

theorem metaDataMerge_values_plain :
    mergedValue (ascii "?smpp?a=1&b=2&") (ascii "?smpp?a=3&") true smppGroup (ascii "a") =
      some (ascii "3") := by
  have hnamed : ∀ data curr, (firstNamed (metaDataUnpack data) (groupKey smppGroup.octets)).map
      MetaGroup.group = some (ascii "smpp") →
        firstNamed (metaDataUnpack data) (groupKey smppGroup.octets) = some curr →
          curr.group = ascii "smpp" := by
    intro data curr hgroup hcurr
    rw [hcurr] at hgroup
    exact Option.some_inj.mp hgroup
  have hvalues := (metaDataMerge_values_iff (ascii "?smpp?a=1&b=2&") (ascii "?smpp?a=3&")
    (by decide +kernel) smppGroup (ascii "a")).mpr fun curr new hcurr hnew =>
      .inl ((hnamed _ curr (by decide +kernel) hcurr).trans
        (hnamed _ new (by decide +kernel) hnew).symm)
  exact hvalues.1.trans (by decide +kernel)

theorem metaDataMerge_other_case :
    mergedValue (ascii "?smpp?a=1&") (ascii "?SMPP?a=2&") true smppGroup (ascii "a") =
        some (ascii "1") ∧
      metaDataGetValue (ascii "?SMPP?a=2&") smppGroup (ascii "a") = some (ascii "2") := by
  decide +kernel

end Kannel
