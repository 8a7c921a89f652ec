import Mathlib.Tactic

/-!
# Logs of puts and deletions

The last entry for a key counts (`replay_eq_last`), and a log may be compacted
(`replay_snapshot`).
-/

namespace KeyLog
open List
variable {κ α β : Type}

inductive Entry (κ α : Type)
  | put (k : κ) (v : α)
  | del (k : κ)

def Entry.key : Entry κ α → κ
  | .put k _ => k
  | .del k => k

def Entry.value : Entry κ α → Option α
  | .put _ v => some v
  | .del _ => none

def Entry.map (f : α → β) : Entry κ α → Entry κ β
  | .put k v => .put k (f v)
  | .del k => .del k

variable (f : α → β) (e : Entry κ α)

@[simp] theorem Entry.key_map : (e.map f).key = e.key := by
  cases e <;> rfl

@[simp] theorem Entry.value_map : (e.map f).value = e.value.map f := by
  cases e <;> rfl

variable [DecidableEq κ]

def apply (m : κ → Option α) (e : Entry κ α) : κ → Option α :=
  Function.update m e.key e.value

variable (m : κ → Option α) (k : κ)

theorem apply_eq : apply m e k = if k = e.key then e.value else m k := by
  rw [apply, Function.update_apply]

def replayFrom (m : κ → Option α) (log : List (Entry κ α)) : κ → Option α :=
  log.foldl apply m

def replay (log : List (Entry κ α)) : κ → Option α := replayFrom (fun _ => none) log

variable (log log' : List (Entry κ α))

theorem replayFrom_append : replayFrom m (log ++ log') = replayFrom (replayFrom m log) log' :=
  foldl_append

theorem replay_append : replay (log ++ log') = replayFrom (replay log) log' :=
  replayFrom_append _ _ _

variable (log : List (Entry κ α))

theorem replayFrom_eq_last :
    replayFrom m log k =
      (log.reverse.find? fun e => decide (e.key = k)).elim (m k) Entry.value := by
  induction log using List.reverseRecOn with
  | nil => rfl
  | append_singleton log e ih =>
    rw [replayFrom_append, reverse_append, reverse_singleton, singleton_append]
    change apply (replayFrom m log) e k = _
    rw [apply_eq]
    by_cases hk : e.key = k
    · simp [hk]
    · have hk' : ¬ k = e.key := fun h => hk h.symm
      simp [hk, hk', ih]

theorem replay_eq_last :
    replay log k = (log.reverse.find? fun e => decide (e.key = k)).bind Entry.value := by
  rw [replay, replayFrom_eq_last]
  cases log.reverse.find? fun e => decide (e.key = k) <;> rfl

theorem replay_map : replay (log.map (Entry.map f)) k = (replay log k).map f := by
  induction log using List.reverseRecOn with
  | nil => rfl
  | append_singleton log e ih =>
    rw [map_append, replay_append, replay_append]
    change apply (replay (log.map (Entry.map f))) (e.map f) k = (apply (replay log) e k).map f
    rw [apply_eq, apply_eq, Entry.key_map, Entry.value_map, ih]
    split <;> rfl

/-- **Compaction.**  The log that puts each key of a map once, in any order,
describes that map. -/
theorem replay_snapshot {ks : List κ} (hmem : ∀ k, k ∈ ks ↔ (m k).isSome) :
    replay (ks.filterMap fun k => (m k).map (Entry.put k)) = m := by
  have hfrom : ∀ (m₀ : κ → Option α) (k : κ),
      replayFrom m₀ (ks.filterMap fun k => (m k).map (Entry.put k)) k =
        if k ∈ ks then (m k).or (m₀ k) else m₀ k := by
    clear hmem
    induction ks with
    | nil => intro m₀ k; rfl
    | cons key ks ih =>
      intro m₀ k
      cases hkey : m key with
      | none =>
        rw [filterMap_cons_none (by rw [hkey]; rfl), ih]
        by_cases hk : k = key
        · simp [hk, hkey]
        · simp [hk]
      | some v =>
        rw [filterMap_cons_some (by rw [hkey]; rfl)]
        change replayFrom (apply m₀ (.put key v)) _ k = _
        rw [ih, apply_eq]
        by_cases hk : k = key
        · simp [Entry.key, Entry.value, hk, hkey]
        · simp [Entry.key, hk]
  funext k
  rw [replay, hfrom]
  by_cases hk : k ∈ ks
  · rw [if_pos hk, Option.or_none]
  · rw [if_neg hk]
    cases hv : m k with
    | none => rfl
    | some v => exact absurd ((hmem k).mpr (by rw [hv]; rfl)) hk

end KeyLog
