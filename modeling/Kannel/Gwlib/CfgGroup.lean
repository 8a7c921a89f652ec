import Mathlib.Data.List.Sort
import Kannel.Gwlib.Cfg
import Kannel.Gwlib.Md5

/-!
# Questions to a group of the configuration

`cfg_get_group_checksum` hashes the variables of a group in the order of their names, except for
those it is told to leave out.  The reload of a configuration takes a group whose checksum has not
changed for an unchanged one.

What is hashed is one text: the name of the group, then every key with its value behind it, and
nothing between them.  Groups that agree have the same text, but the text of a group can also be
that of another one: where a value ends does not show.  Between groups with the same keys the
values can be compared one by one, as long as none of them goes on from the other's.
-/

namespace Kannel
open List

def cfgGetBool (getenv : Octstr → Option Octstr) (grp : CfgGroup) (varname : Octstr) :
    Option Bool :=
  (cfgGet getenv grp varname).map fun os =>
    if ["true", "yes", "on", "1"].any fun word => equalIgnoringCase os (ascii word) then true
    else if ["false", "no", "off", "0"].any fun word => equalIgnoringCase os (ascii word) then
      false
    else true

def numberBase (text : Octstr) : Nat :=
  match (splitSign (text.dropWhile isspace)).2 with
  | 48 :: x :: c :: _ => if (x = 120 ∨ x = 88) ∧ isDigitOf 16 c then 16 else 8
  | 48 :: _ => 8
  | _ => 10

def cfgGetInteger (getenv : Octstr → Option Octstr) (grp : CfgGroup) (varname : Octstr) :
    Option Int :=
  (cfgGet getenv grp varname).bind fun os =>
    (octstrParseLong os 0 (numberBase os)).map Prod.fst

def octstrLe (a b : Octstr) : Prop := a ≤ b

instance octstrLe_decidable : DecidableRel octstrLe :=
  fun a b => inferInstanceAs (Decidable (a ≤ b))

/-- The keys that are not excluded, in the order `octstr_compare` gives. -/
def checksumKeys (grp : CfgGroup) (exclude : List Octstr) : List Octstr :=
  ((dictKeys grp.vars).filter (· ∉ exclude)).insertionSort octstrLe

/-- The text that is hashed. -/
def checksumText (grp : CfgGroup) (exclude : List Octstr) : Octstr :=
  grp.name.getD [] ++
    (checksumKeys grp exclude).flatMap fun key => key ++ (dictGet grp.vars key).getD []

def cfgGetGroupChecksum (grp : CfgGroup) (exclude : List Octstr) : Octstr :=
  md5 (checksumText grp exclude)

/-- The groups have the same name and the same values for all keys that are not excluded. -/
def CfgGroup.AgreesExcept (grp other : CfgGroup) (exclude : List Octstr) : Prop :=
  grp.name = other.name ∧ ∀ key, key ∉ exclude → dictGet grp.vars key = dictGet other.vars key

variable {exclude : List Octstr} {grp other : CfgGroup}

theorem CfgGroup.AgreesExcept.symm (h : grp.AgreesExcept other exclude) :
    other.AgreesExcept grp exclude :=
  ⟨h.1.symm, fun key hkey => (h.2 key hkey).symm⟩

theorem cfgSet_agreesExcept (grp : CfgGroup) {varname : Octstr} (value : Octstr)
    {exclude : List Octstr} (h : varname ∈ exclude) :
    (cfgSet grp varname value).AgreesExcept grp exclude := by
  refine ⟨rfl, fun key hkey => ?_⟩
  have hne : key ≠ varname := fun heq => hkey (heq ▸ h)
  rw [cfgSet, dictGet_dictPut, if_neg hne]

/-- The groups set the same keys, of those that are not excluded. -/
def CfgGroup.SameKeys (grp other : CfgGroup) (exclude : List Octstr) : Prop :=
  ∀ key, key ∉ exclude → (dictGet grp.vars key).isSome = (dictGet other.vars key).isSome

theorem CfgGroup.AgreesExcept.sameKeys (h : grp.AgreesExcept other exclude) :
    grp.SameKeys other exclude :=
  fun key hkey => congrArg Option.isSome (h.2 key hkey)

theorem CfgGroup.SameKeys.perm (h : grp.SameKeys other exclude) :
    ((dictKeys grp.vars).filter (· ∉ exclude)).Perm
      ((dictKeys other.vars).filter (· ∉ exclude)) := by
  refine (perm_ext_iff_of_nodup ((nodup_dictKeys _).filter _)
    ((nodup_dictKeys _).filter _)).mpr fun key => ?_
  simp only [mem_filter, decide_eq_true_eq, mem_dictKeys]
  constructor
  · rintro ⟨hsome, hkey⟩
    exact ⟨(h key hkey).symm.trans hsome, hkey⟩
  · rintro ⟨hsome, hkey⟩
    exact ⟨(h key hkey).trans hsome, hkey⟩

instance octstrLe_isTotal : Std.Total octstrLe := ⟨fun a b => List.le_total a b⟩

instance octstrLe_isTrans : IsTrans Octstr octstrLe := ⟨fun _ _ _ => List.le_trans⟩

instance octstrLe_isAntisymm : Std.Antisymm octstrLe := ⟨fun _ _ => List.le_antisymm⟩

theorem checksumKeys_eq (h : grp.SameKeys other exclude) :
    checksumKeys grp exclude = checksumKeys other exclude := by
  refine Perm.eq_of_pairwise' (pairwise_insertionSort _ _) (pairwise_insertionSort _ _) ?_
  exact (perm_insertionSort _ _).trans (h.perm.trans (perm_insertionSort _ _).symm)

theorem mem_checksumKeys {key : Octstr} :
    key ∈ checksumKeys grp exclude ↔ (dictGet grp.vars key).isSome ∧ key ∉ exclude := by
  rw [checksumKeys, (perm_insertionSort _ _).mem_iff, mem_filter, decide_eq_true_eq, mem_dictKeys]

theorem cfgGetGroupChecksum_eq (h : grp.AgreesExcept other exclude) :
    cfgGetGroupChecksum grp exclude = cfgGetGroupChecksum other exclude := by
  unfold cfgGetGroupChecksum checksumText
  rw [checksumKeys_eq h.sameKeys, h.1]
  congr 2
  refine flatMap_congr fun key hkey => ?_
  rw [h.2 key (mem_checksumKeys.mp hkey).2]

end Kannel
