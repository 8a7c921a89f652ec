import Mathlib.Data.List.FinRange
import Mathlib.Data.Finset.Card
import Mathlib.Tactic

/-!
# Hash tables with chaining

A key sits in the chain that `index` says, and no chain holds a key twice.
-/

variable {κ α : Type} [DecidableEq κ] {n : Nat}

structure HashTable (κ α : Type) {n : Nat} (index : κ → Fin n) where
  chain : Fin n → List (κ × α)
  home : ∀ i, ∀ p ∈ chain i, index p.1 = i
  nodup : ∀ i, ((chain i).map Prod.fst).Nodup

namespace HashTable
open List

def putIn (k : κ) (v : α) : List (κ × α) → List (κ × α)
  | [] => [(k, v)]
  | p :: rest => if p.1 = k then (p.1, v) :: rest else p :: putIn k v rest

def removeFrom (k : κ) (chain : List (κ × α)) : List (κ × α) :=
  chain.filter fun p => p.1 ≠ k

variable (k : κ)

theorem keys_putIn (v : α) (chain : List (κ × α)) :
    (putIn k v chain).map Prod.fst =
      if k ∈ chain.map Prod.fst then chain.map Prod.fst else chain.map Prod.fst ++ [k] := by
  induction chain with
  | nil => simp [putIn]
  | cons p rest ih =>
    by_cases hp : p.1 = k
    · simp [putIn, hp]
    · have hk : ¬ k = p.1 := fun h => hp h.symm
      by_cases hmem : k ∈ rest.map Prod.fst
      · simp [putIn, hp, ih, hmem]
      · simp [putIn, hp, ih, hmem, hk]

private theorem lookup_cons_ite (k key : κ) (value : α) (rest : List (κ × α)) :
    ((key, value) :: rest).lookup k = if k = key then some value else rest.lookup k := by
  rw [lookup_cons]
  by_cases hk : k = key
  · simp [hk]
  · simp [hk, beq_false_of_ne hk]

variable (k k' : κ)

theorem lookup_putIn (v : α) (chain : List (κ × α)) :
    (putIn k v chain).lookup k' = if k' = k then some v else chain.lookup k' := by
  induction chain with
  | nil => rw [putIn, lookup_cons_ite]
  | cons p rest ih =>
    obtain ⟨key, value⟩ := p
    by_cases hp : key = k
    · simp only [putIn, hp, if_true, lookup_cons_ite]
      split <;> rfl
    · simp only [putIn, hp, if_false, lookup_cons_ite, ih]
      by_cases hk : k' = key
      · simp [hk, hp]
      · simp [hk]

variable (chain : List (κ × α))

theorem lookup_removeFrom :
    (removeFrom k chain).lookup k' = if k' = k then none else chain.lookup k' := by
  induction chain with
  | nil => simp [removeFrom]
  | cons p rest ih =>
    obtain ⟨key, value⟩ := p
    rw [removeFrom] at ih ⊢
    by_cases hp : key = k
    · rw [filter_cons_of_neg (by simp [hp]), ih, lookup_cons_ite, hp]
      split <;> rfl
    · rw [filter_cons_of_pos (by simp [hp]), lookup_cons_ite, lookup_cons_ite, ih]
      by_cases hk : k' = key
      · simp [hk, hp]
      · simp [hk]

theorem lookup_isSome : (chain.lookup k).isSome ↔ k ∈ chain.map Prod.fst := by
  induction chain with
  | nil => simp
  | cons p rest ih =>
    obtain ⟨key, value⟩ := p
    by_cases hk : k = key
    · simp [hk]
    · simp [hk]

section Operations
variable {index : κ → Fin n}

def empty : HashTable κ α index where
  chain _ := []
  home _ _ h := nomatch h
  nodup _ := nodup_nil

def find (t : HashTable κ α index) (k : κ) : Option α := (t.chain (index k)).lookup k

def setChain (t : HashTable κ α index) (i : Fin n) (c : List (κ × α))
    (hhome : ∀ p ∈ c, index p.1 = i) (hnodup : (c.map Prod.fst).Nodup) : HashTable κ α index where
  chain := Function.update t.chain i c
  home j p hp := by
    by_cases hj : j = i
    · subst hj
      rw [Function.update_self] at hp
      exact hhome p hp
    · rw [Function.update_of_ne hj] at hp
      exact t.home j p hp
  nodup j := by
    by_cases hj : j = i
    · subst hj
      rwa [Function.update_self]
    · rw [Function.update_of_ne hj]
      exact t.nodup j

variable (t : HashTable κ α index)

theorem home_putIn (v : α) : ∀ p ∈ putIn k v (t.chain (index k)), index p.1 = index k := by
  intro p hp
  have hold : ∀ key ∈ (t.chain (index k)).map Prod.fst, index key = index k := by
    intro key hkey
    obtain ⟨q, hq, rfl⟩ := List.mem_map.mp hkey
    exact t.home _ q hq
  have hmem := List.mem_map_of_mem (f := Prod.fst) hp
  rw [keys_putIn] at hmem
  split at hmem
  · exact hold _ hmem
  · rcases mem_append.mp hmem with hmem | hmem
    · exact hold _ hmem
    · rw [mem_singleton.mp hmem]

theorem nodup_putIn (v : α) : ((putIn k v (t.chain (index k))).map Prod.fst).Nodup := by
  rw [keys_putIn]
  split
  · exact t.nodup _
  · next hk => exact nodup_append'.mpr ⟨t.nodup _, nodup_singleton k, by simpa using hk⟩

def put (t : HashTable κ α index) (k : κ) (v : α) : HashTable κ α index :=
  t.setChain (index k) (putIn k v (t.chain (index k))) (t.home_putIn k v) (t.nodup_putIn k v)

def remove (t : HashTable κ α index) (k : κ) : HashTable κ α index :=
  t.setChain (index k) (removeFrom k (t.chain (index k)))
    (fun p hp => t.home _ p (mem_of_mem_filter hp))
    ((t.nodup _).sublist (filter_sublist.map _))

def keys (t : HashTable κ α index) : List κ :=
  (List.finRange n).flatMap fun i => (t.chain i).map Prod.fst

section
variable (t : HashTable κ α index)

theorem find_setChain (i : Fin n) (c : List (κ × α)) (hhome : ∀ p ∈ c, index p.1 = i)
    (hnodup : (c.map Prod.fst).Nodup) :
    (t.setChain i c hhome hnodup).find k = if index k = i then c.lookup k else t.find k := by
  unfold find setChain
  dsimp only
  by_cases hk : index k = i
  · rw [hk, Function.update_self, if_pos rfl]
  · rw [Function.update_of_ne hk, if_neg hk]

theorem find_put (v : α) : (t.put k v).find k' = if k' = k then some v else t.find k' := by
  rw [put, find_setChain, lookup_putIn]
  by_cases hi : index k' = index k
  · rw [if_pos hi, find, hi]
  · have hk : k' ≠ k := fun h => hi (congrArg index h)
    rw [if_neg hi, if_neg hk]

theorem find_remove : (t.remove k).find k' = if k' = k then none else t.find k' := by
  rw [remove, find_setChain, lookup_removeFrom]
  by_cases hi : index k' = index k
  · rw [if_pos hi, find, hi]
  · have hk : k' ≠ k := fun h => hi (congrArg index h)
    rw [if_neg hi, if_neg hk]

theorem mem_keys : k ∈ t.keys ↔ (t.find k).isSome := by
  rw [find, lookup_isSome, keys, mem_flatMap]
  constructor
  · rintro ⟨i, -, hk⟩
    obtain ⟨p, hp, rfl⟩ := List.mem_map.mp hk
    rwa [t.home i p hp]
  · exact fun hk => ⟨index k, mem_finRange _, hk⟩

omit [DecidableEq κ] in
theorem nodup_keys : t.keys.Nodup := by
  refine nodup_flatMap.mpr ⟨fun i _ => t.nodup i, ?_⟩
  refine (nodup_finRange n).imp fun {i j} hij k hi hj => hij ?_
  obtain ⟨p, hp, rfl⟩ := List.mem_map.mp hi
  obtain ⟨q, hq, hfst⟩ := List.mem_map.mp hj
  rw [← t.home i p hp, ← t.home j q hq, hfst]

theorem length_keys : t.keys.length = t.keys.toFinset.card :=
  (toFinset_card_of_nodup t.nodup_keys).symm

theorem length_keys_put_new {k : κ} (v : α) (h : t.find k = none) :
    (t.put k v).keys.length = t.keys.length + 1 := by
  have hk : k ∉ t.keys.toFinset := by
    simp [mem_keys, h]
  have hkeys : (t.put k v).keys.toFinset = insert k t.keys.toFinset := by
    ext k'
    by_cases hk' : k' = k <;> simp [mem_keys, find_put, hk']
  rw [length_keys, hkeys, Finset.card_insert_of_notMem hk, length_keys]

theorem length_keys_put_old {k : κ} {w : α} (v : α) (h : t.find k = some w) :
    (t.put k v).keys.length = t.keys.length := by
  have hkeys : (t.put k v).keys.toFinset = t.keys.toFinset := by
    ext k'
    by_cases hk' : k' = k <;> simp [mem_keys, find_put, hk', h]
  rw [length_keys, hkeys, length_keys]

theorem length_keys_remove {k : κ} {w : α} (h : t.find k = some w) :
    (t.remove k).keys.length + 1 = t.keys.length := by
  have hk : k ∈ t.keys.toFinset := by
    simp [mem_keys, h]
  have hkeys : (t.remove k).keys.toFinset = t.keys.toFinset.erase k := by
    ext k'
    by_cases hk' : k' = k <;> simp [mem_keys, find_remove, hk']
  rw [length_keys, hkeys, Finset.card_erase_add_one hk, length_keys]

end
end Operations
end HashTable
