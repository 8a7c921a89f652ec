import Kannel.Gwlib.Octstr
import Kannel.Lib.HashTable

/-!
# Dictionaries

`dict.c` is the hash table of the library with `key_to_index` as its index and a running
`key_count`. `dict_put` of `NULL` removes the key.
-/

namespace Kannel
open List

def octstrHashKey (ostr : Octstr) : Nat :=
  let step (s : UInt64 × UInt64) (c : UInt8) : UInt64 × UInt64 :=
    (s.1 * s.2 + c.toInt8.toInt64.toUInt64, s.2 * 378551)
  (ostr.foldl step (0, 63689)).1.toNat &&& 0x7FFFFFFF

def keyToIndex (size : Nat) [NeZero size] (key : Octstr) : Fin size :=
  Fin.ofNat size (octstrHashKey key)

structure Dict (α : Type) (size : Nat) [NeZero size] where
  tab : HashTable Octstr α (keyToIndex size)
  keyCount : Nat
  keyCount_eq : keyCount = tab.keys.length

variable {α : Type} {size : Nat} [NeZero size]

def dictCreate (α : Type) (sizeHint : Nat) [NeZero (sizeHint * 2)] : Dict α (sizeHint * 2) where
  tab := HashTable.empty
  keyCount := 0
  keyCount_eq := by simp [HashTable.keys, HashTable.empty]

instance hinted_neZero : NeZero (1024 * 2) := ⟨by decide⟩

instance allocated_neZero : NeZero 2048 := ⟨by decide⟩

def dictGet (dict : Dict α size) (key : Octstr) : Option α := dict.tab.find key

def dictRemove (dict : Dict α size) (key : Octstr) : Option α × Dict α size :=
  match h : dict.tab.find key with
  | none => (none, dict)
  | some value =>
    (some value,
      { tab := dict.tab.remove key
        keyCount := dict.keyCount - 1
        keyCount_eq := by
          have hlen := dict.tab.length_keys_remove h
          rw [dict.keyCount_eq]
          omega })

def dictPut (dict : Dict α size) (key : Octstr) : Option α → Dict α size
  | none => (dictRemove dict key).2
  | some value =>
    match h : dict.tab.find key with
    | none =>
      { tab := dict.tab.put key value
        keyCount := dict.keyCount + 1
        keyCount_eq := by rw [dict.tab.length_keys_put_new value h, dict.keyCount_eq] }
    | some _ =>
      { tab := dict.tab.put key value
        keyCount := dict.keyCount
        keyCount_eq := by rw [dict.tab.length_keys_put_old value h, dict.keyCount_eq] }

def dictPutOnce (dict : Dict α size) (key : Octstr) : Option α → Bool × Dict α size
  | none => (true, (dictRemove dict key).2)
  | some value =>
    match dict.tab.find key with
    | none => (true, dictPut dict key (some value))
    | some _ => (false, dict)

def dictKeys (dict : Dict α size) : List Octstr := dict.tab.keys

def dictKeyCount (dict : Dict α size) : Nat := dict.keyCount

@[simp] theorem dictKeys_dictCreate (sizeHint : Nat) [NeZero (sizeHint * 2)] :
    dictKeys (dictCreate α sizeHint) = [] := by
  simp [dictKeys, dictCreate, HashTable.keys, HashTable.empty]

section
variable (dict : Dict α size)

theorem dictRemove_fst (key : Octstr) : (dictRemove dict key).1 = dictGet dict key := by
  unfold dictRemove dictGet
  split <;> simp_all

variable (key key' : Octstr)

theorem dictGet_dictRemove :
    dictGet (dictRemove dict key).2 key' = if key' = key then none else dictGet dict key' := by
  unfold dictRemove dictGet
  split
  · next h =>
    by_cases hk : key' = key
    · rw [if_pos hk, hk, h]
    · rw [if_neg hk]
  · rw [HashTable.find_remove]

theorem dictGet_dictPut (value : α) :
    dictGet (dictPut dict key (some value)) key' =
      if key' = key then some value else dictGet dict key' := by
  unfold dictPut dictGet
  dsimp only
  split <;> rw [HashTable.find_put]

theorem dictGet_dictPutOnce (value : α) :
    dictGet (dictPutOnce dict key (some value)).2 key' =
      if key' = key then some ((dictGet dict key).getD value) else dictGet dict key' := by
  unfold dictPutOnce
  dsimp only
  split
  · rename_i hfind
    have hget : dictGet dict key = none := hfind
    rw [dictGet_dictPut, hget, Option.getD_none]
  · rename_i old hfind
    have hget : dictGet dict key = some old := hfind
    by_cases hk : key' = key
    · rw [if_pos hk, hk, hget, Option.getD_some]
    · rw [if_neg hk]

end

@[simp] theorem dictGet_dictCreate (sizeHint : Nat) [NeZero (sizeHint * 2)] (key : Octstr) :
    dictGet (dictCreate α sizeHint) key = none := by
  simp [dictGet, dictCreate, HashTable.find, HashTable.empty]

variable (dict : Dict α size)

theorem mem_dictKeys (key : Octstr) : key ∈ dictKeys dict ↔ (dictGet dict key).isSome :=
  dict.tab.mem_keys key

theorem nodup_dictKeys : (dictKeys dict).Nodup := dict.tab.nodup_keys

theorem dictKeyCount_eq : dictKeyCount dict = (dictKeys dict).length :=
  dict.keyCount_eq

def dictValues (dict : Dict α size) : List α := (dictKeys dict).filterMap (dictGet dict)

theorem length_dictValues : (dictValues dict).length = dictKeyCount dict := by
  rw [dictKeyCount_eq, dictValues, length_filterMap_eq_countP, countP_eq_length]
  intro key hkey
  exact (mem_dictKeys dict key).mp hkey

theorem dictValues_eq_nil_iff : dictValues dict = [] ↔ dictKeyCount dict = 0 := by
  rw [← length_dictValues, length_eq_zero_iff]

variable {key : Octstr} {dict : Dict α size}

theorem dictRemove_of_none (h : dictGet dict key = none) : (dictRemove dict key).2 = dict := by
  have hfind : dict.tab.find key = none := h
  unfold dictRemove
  split
  · rfl
  · rename_i value hsome
    cases hfind.symm.trans hsome

theorem dictValues_perm_cons {dict dict' : Dict α size} {value : α}
    (hnew : dictGet dict' key = some value) (hold : dictGet dict key = none)
    (hrest : ∀ key', key' ≠ key → dictGet dict' key' = dictGet dict key') :
    (dictValues dict').Perm (value :: dictValues dict) := by
  have hkeys : (dictKeys dict').Perm (key :: dictKeys dict) := by
    refine (perm_ext_iff_of_nodup (nodup_dictKeys dict') ?_).mpr fun key' => ?_
    · refine nodup_cons.mpr ⟨?_, nodup_dictKeys dict⟩
      rw [mem_dictKeys, hold]
      exact Bool.false_ne_true
    · rw [mem_cons, mem_dictKeys, mem_dictKeys]
      by_cases hk : key' = key
      · simp [hk, hnew]
      · simp [hk, hrest key' hk]
  have hvalues : (dictKeys dict).filterMap (dictGet dict') = dictValues dict := by
    refine filterMap_congr fun key' hkey' => hrest key' ?_
    rintro rfl
    rw [mem_dictKeys, hold] at hkey'
    cases hkey'
  calc dictValues dict' = (dictKeys dict').filterMap (dictGet dict') := rfl
    Perm _ ((key :: dictKeys dict).filterMap (dictGet dict')) := hkeys.filterMap _
    _ = value :: (dictKeys dict).filterMap (dictGet dict') := by
        rw [filterMap_cons, hnew]
    _ = value :: dictValues dict := by rw [hvalues]

theorem dictValues_dictPut (value : α) (h : dictGet dict key = none) :
    (dictValues (dictPut dict key (some value))).Perm (value :: dictValues dict) := by
  refine dictValues_perm_cons ?_ h fun key' hk => ?_
  · rw [dictGet_dictPut, if_pos rfl]
  · rw [dictGet_dictPut, if_neg hk]

theorem dictValues_dictRemove {value : α} (h : dictGet dict key = some value) :
    (dictValues dict).Perm (value :: dictValues (dictRemove dict key).2) := by
  refine dictValues_perm_cons h ?_ fun key' hk => ?_
  · rw [dictGet_dictRemove, if_pos rfl]
  · rw [dictGet_dictRemove, if_neg hk]

end Kannel
