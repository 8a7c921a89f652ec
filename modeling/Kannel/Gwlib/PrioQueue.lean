import Kannel.Gwlib.Octstr
import Kannel.Lib.HalvingHeap

/-!
# The priority queue

A binary heap from slot 1 on, with the `NULL` item that stops `upheap` in slot 0 and a sequence
number each. After a removal the slot behind the last element has a pointer that `downheap`
looks at.
-/

namespace Kannel
open List

namespace Prioqueue
open HalvingHeap
variable {α : Type}

structure Element (α : Type) where
  item : Option α
  seq : ℕ
  deriving DecidableEq, Repr

abbrev Slot (α : Type) := Option (Element α)

structure GwPrioqueue (α : Type) where
  tab : List (Slot α)
  len : ℕ
  seq : ℕ
  deriving DecidableEq, Repr

def readSlot (tab : List (Slot α)) (i : ℕ) : Except Failure (Slot α) :=
  match tab[i]? with
  | some s => .ok s
  | none => .error .outside

def writeSlot (tab : List (Slot α)) (i : ℕ) (s : Slot α) : Except Failure (List (Slot α)) :=
  if i < tab.length then .ok (tab.set i s) else .error .outside

def deref : Slot α → Except Failure (Element α)
  | some e => .ok e
  | none => .error .outside

def itemOf (e : Element α) : Except Failure α :=
  match e.item with
  | some x => .ok x
  | none => .error .outside

def makeBigger (q : GwPrioqueue α) (items : ℕ) : GwPrioqueue α :=
  { q with tab := q.tab ++ replicate (q.len + items - q.tab.length) none }

def compare (cmp : α → α → ℤ) (a b : Slot α) : Except Failure ℤ := do
  let a ← deref a
  let b ← deref b
  let x ← itemOf a
  let y ← itemOf b
  let rc := cmp x y
  pure (if rc = 0 then (if a.seq < b.seq then 1 else if b.seq < a.seq then -1 else rc) else rc)

def belongsBelow (cmp : α → α → ℤ) (parent v : Slot α) : Except Failure Bool := do
  let top ← deref parent
  if top.item.isNone then pure false
  else do
    let rc ← compare cmp parent v
    pure (rc < 0)

def upheapLoop (cmp : α → α → ℤ) (v : Slot α) :
    ℕ → List (Slot α) → ℕ → Except Failure (List (Slot α))
  | 0, _, _ => .error .outside
  | rounds + 1, tab, index => do
    let parent ← readSlot tab (index / 2)
    if ← belongsBelow cmp parent v then
      let tab ← writeSlot tab index parent
      upheapLoop cmp v rounds tab (index / 2)
    else writeSlot tab index v

def upheap (cmp : α → α → ℤ) (tab : List (Slot α)) (index : ℕ) :
    Except Failure (List (Slot α)) := do
  let v ← readSlot tab index
  upheapLoop cmp v (index + 1) tab index

def biggestChild (cmp : α → α → ℤ) (len : ℕ) (tab : List (Slot α)) (index : ℕ) : Except Failure ℕ :=
  if 2 * index < len then do
    let left ← readSlot tab (2 * index)
    let right ← readSlot tab (2 * index + 1)
    let rc ← compare cmp left right
    pure (if rc < 0 then 2 * index + 1 else 2 * index)
  else pure (2 * index)

def downheapLoop (cmp : α → α → ℤ) (len : ℕ) (v : Slot α) :
    ℕ → List (Slot α) → ℕ → Except Failure (List (Slot α))
  | 0, _, _ => .error .outside
  | rounds + 1, tab, index =>
    if index ≤ len / 2 then do
      let j ← biggestChild cmp len tab index
      let child ← readSlot tab j
      let rc ← compare cmp v child
      if 0 ≤ rc then writeSlot tab index v
      else do
        let tab ← writeSlot tab index child
        downheapLoop cmp len v rounds tab j
    else writeSlot tab index v

def downheap (cmp : α → α → ℤ) (len : ℕ) (tab : List (Slot α)) (index : ℕ) :
    Except Failure (List (Slot α)) := do
  let v ← readSlot tab index
  downheapLoop cmp len v (len + 1) tab index

def freeElement (tab : List (Slot α)) (e : Element α) : List (Slot α) :=
  tab.map fun s => if s.any (·.seq = e.seq) then none else s

def gwPrioqueueCreate : Except Failure (GwPrioqueue α) := do
  let q := makeBigger ⟨[], 0, 0⟩ 1
  let tab ← writeSlot q.tab 0 (some ⟨none, q.seq⟩)
  pure ⟨tab, q.len + 1, q.seq + 1⟩

def gwPrioqueueLen (q : GwPrioqueue α) : ℤ := q.len - 1

def gwPrioqueueInsert (cmp : α → α → ℤ) (q : GwPrioqueue α) (item : Option α) :
    Except Failure (GwPrioqueue α) := do
  if item.isNone then .error .assertion
  let q := makeBigger q 1
  let tab ← writeSlot q.tab q.len (some ⟨item, q.seq⟩)
  let tab ← upheap cmp tab q.len
  pure ⟨tab, q.len + 1, q.seq + 1⟩

def gwPrioqueueRemove (cmp : α → α → ℤ) (q : GwPrioqueue α) :
    Except Failure (Option α × GwPrioqueue α) := do
  if q.len ≤ 1 then pure (none, q)
  else do
    let first ← readSlot q.tab 1
    let first ← deref first
    let tab := freeElement q.tab first
    let last ← readSlot tab (q.len - 1)
    let tab ← writeSlot tab 1 last
    let tab ← downheap cmp (q.len - 1) tab 1
    pure (first.item, { q with tab := tab, len := q.len - 1 })

def gwPrioqueueForeach (q : GwPrioqueue α) : Except Failure (List (Option α)) :=
  (range' 1 (q.len - 1)).mapM fun i => do
    let e ← readSlot q.tab i
    let e ← deref e
    pure e.item

structure TotalPreorder (cmp : α → α → ℤ) : Prop where
  swap : ∀ a b, 0 < cmp a b ↔ cmp b a < 0
  trans : ∀ a b c, 0 ≤ cmp a b → 0 ≤ cmp b c → 0 ≤ cmp a c

def Serves (cmp : α → α → ℤ) (items : List α) (m : α) (rest : List α) : Prop :=
  ∃ older newer, items = older ++ m :: newer ∧ rest = older ++ newer ∧
    (∀ x ∈ older, cmp x m < 0) ∧ ∀ x ∈ newer, cmp x m ≤ 0

inductive Op (α : Type)
  | insert (item : α)
  | remove
  deriving DecidableEq, Repr

/-- **The queue as a list** in the order of insertion, with what the calls return. -/
inductive Behaves (cmp : α → α → ℤ) : List α → List (Op α) → List (Option α) → List α → Prop
  | done (items : List α) : Behaves cmp items [] [] items
  | insert {items later : List α} {x : α} {ops : List (Op α)} {outs : List (Option α)}
      (tail : Behaves cmp (items ++ [x]) ops outs later) :
      Behaves cmp items (.insert x :: ops) outs later
  | empty {later : List α} {ops : List (Op α)} {outs : List (Option α)}
      (tail : Behaves cmp [] ops outs later) :
      Behaves cmp [] (.remove :: ops) (none :: outs) later
  | remove {items rest later : List α} {m : α} {ops : List (Op α)} {outs : List (Option α)}
      (serves : Serves cmp items m rest) (tail : Behaves cmp rest ops outs later) :
      Behaves cmp items (.remove :: ops) (some m :: outs) later

def runOps (cmp : α → α → ℤ) :
    GwPrioqueue α → List (Op α) → Except Failure (List (Option α) × GwPrioqueue α)
  | q, [] => pure ([], q)
  | q, .insert x :: ops => do
    let q ← gwPrioqueueInsert cmp q (some x)
    runOps cmp q ops
  | q, .remove :: ops => do
    let (out, q) ← gwPrioqueueRemove cmp q
    let (outs, q) ← runOps cmp q ops
    pure (out :: outs, q)

def Above (cmp : α → α → ℤ) (a b : Element α) : Prop :=
  ∃ x y, a.item = some x ∧ b.item = some y ∧ (0 < cmp x y ∨ cmp x y = 0 ∧ a.seq ≤ b.seq)

section order
variable {cmp : α → α → ℤ}

section
variable (hcmp : TotalPreorder cmp)
include hcmp

theorem TotalPreorder.self (a : α) : cmp a a = 0 := by
  have h := hcmp.swap a a
  omega

theorem TotalPreorder.isTrans_above : IsTrans (Element α) (Above cmp) := by
  refine ⟨?_⟩
  rintro a b c ⟨x, y, hx, hy, hxy⟩ ⟨y', z, hy', hz, hyz⟩
  obtain rfl : y = y' := Option.some.inj (hy.symm.trans hy')
  refine ⟨x, z, hx, hz, ?_⟩
  have hxz := hcmp.trans x y z (by omega) (by omega)
  by_cases hzero : cmp x z = 0
  · -- then neither of the two comparisons is strict
    have hzx := hcmp.swap x z
    have hzy := hcmp.trans z x y (by omega) (by omega)
    have hyx := hcmp.trans y z x (by omega) (by omega)
    have hswap := hcmp.swap x y
    have hswap' := hcmp.swap y z
    exact Or.inr ⟨hzero, by omega⟩
  · exact Or.inl (by omega)

theorem above_of_not_above {a b : Element α} {x y : α} (hx : a.item = some x) (hy : b.item = some y)
    (h : ¬ Above cmp a b) : Above cmp b a := by
  have hneg : ¬ (0 < cmp x y ∨ cmp x y = 0 ∧ a.seq ≤ b.seq) := fun hpos => h ⟨x, y, hx, hy, hpos⟩
  have hxy := hcmp.swap x y
  have hyx := hcmp.swap y x
  exact ⟨y, x, hy, hx, by omega⟩

theorem above_self {a : Element α} {x : α} (hx : a.item = some x) : Above cmp a a :=
  ⟨x, x, hx, hx, Or.inr ⟨hcmp.self x, le_rfl⟩⟩

end

theorem compare_ok (cmp : α → α → ℤ) {a b : Element α} {x y : α} (hx : a.item = some x)
    (hy : b.item = some y) :
    ∃ rc, compare cmp (some a) (some b) = .ok rc ∧ (rc < 0 ↔ ¬ Above cmp a b) := by
  have habove : Above cmp a b ↔ (0 < cmp x y ∨ cmp x y = 0 ∧ a.seq ≤ b.seq) := by
    constructor
    · rintro ⟨x', y', hx', hy', h⟩
      obtain rfl : x = x' := Option.some.inj (hx.symm.trans hx')
      obtain rfl : y = y' := Option.some.inj (hy.symm.trans hy')
      exact h
    · intro h
      exact ⟨x, y, hx, hy, h⟩
  refine ⟨if cmp x y = 0 then (if a.seq < b.seq then 1 else if b.seq < a.seq then -1 else cmp x y)
    else cmp x y, ?_, ?_⟩
  · simp only [compare, deref, itemOf, hx, hy, ok_bind, pure_eq_ok]
  · rw [habove]
    split_ifs <;> omega

end order

structure ShowsBut (tab : List (Slot α)) (g : ℕ → Element α) (n k : ℕ) : Prop where
  room : n ≤ tab.length
  slot : ∀ i, i < n → i ≠ k → tab[i]? = some (some (g i))

structure Shows (tab : List (Slot α)) (g : ℕ → Element α) (n : ℕ) : Prop where
  room : n ≤ tab.length
  slot : ∀ i, i < n → tab[i]? = some (some (g i))

variable {tab tab' : List (Slot α)} {g g' : ℕ → Element α} {n k i j : ℕ}

theorem readSlot_of_eq {s : Slot α} (h : tab[i]? = some s) : readSlot tab i = .ok s := by
  rw [readSlot, h]

theorem writeSlot_of_lt (h : i < tab.length) (s : Slot α) :
    writeSlot tab i s = .ok (tab.set i s) := if_pos h

theorem ShowsBut.fill (h : ShowsBut tab g n k) : Shows (tab.set k (some (g k))) g n where
  room := by rw [length_set]; exact h.room
  slot i hi := by
    have hroom := h.room
    by_cases hik : i = k
    · rw [hik, List.getElem?_set_self (by omega)]
    · rw [List.getElem?_set_ne (Ne.symm hik), h.slot i hi hik]

theorem ShowsBut.move (h : ShowsBut tab g n k) (j : ℕ) :
    ShowsBut (tab.set k (some (g j))) (swapAt g k j) n j where
  room := by rw [length_set]; exact h.room
  slot i hi hij := by
    have hroom := h.room
    by_cases hik : i = k
    · rw [hik, List.getElem?_set_self (by omega), swapAt_left]
    · rw [List.getElem?_set_ne (Ne.symm hik), h.slot i hi hik, swapAt_of_ne g hik hij]

def elements (g : ℕ → Element α) (n : ℕ) : List (Element α) := (range' 1 (n - 1)).map g

theorem mem_elements {e : Element α} : e ∈ elements g n ↔ ∃ i, 1 ≤ i ∧ i < n ∧ g i = e := by
  simp only [elements, List.mem_map, mem_range'_1]
  constructor
  · rintro ⟨i, hi, rfl⟩
    exact ⟨i, by omega, by omega, rfl⟩
  · rintro ⟨i, hlo, hhi, rfl⟩
    exact ⟨i, by omega, rfl⟩

structure Rearranged (g g' : ℕ → Element α) (n : ℕ) : Prop where
  marker : g' 0 = g 0
  perm : (elements g' n).Perm (elements g n)

theorem Rearranged.refl (g : ℕ → Element α) (n : ℕ) : Rearranged g g n := ⟨rfl, Perm.refl _⟩

theorem Rearranged.trans {g'' : ℕ → Element α} (h : Rearranged g g' n)
    (h' : Rearranged g' g'' n) : Rearranged g g'' n :=
  ⟨h'.marker.trans h.marker, h'.perm.trans h.perm⟩

theorem rearranged_swapAt (g : ℕ → Element α) (hk : 1 ≤ k) (hkn : k < n) (hj : 1 ≤ j)
    (hjn : j < n) : Rearranged g (swapAt g k j) n where
  marker := swapAt_of_ne g (by omega) (by omega)
  perm := perm_map_swapAt g (mem_range'_1.mpr (by omega)) (mem_range'_1.mpr (by omega))

def Filled (g : ℕ → Element α) (n : ℕ) : Prop := ∀ e ∈ elements g n, ∃ x, e.item = some x

theorem Filled.item (h : Filled g n) (hi : 1 ≤ i) (hin : i < n) : ∃ x, (g i).item = some x :=
  h _ (mem_elements.mpr ⟨i, hi, hin, rfl⟩)

theorem Filled.rearranged (h : Filled g n) (hre : Rearranged g g' n) : Filled g' n :=
  fun e he => h e (hre.perm.mem_iff.mp he)

section loops
variable {cmp : α → α → ℤ} {rounds : ℕ}

structure Settled (cmp : α → α → ℤ) (g : ℕ → Element α) (n : ℕ) (tab : List (Slot α))
    (g' : ℕ → Element α) : Prop where
  shows : Shows tab g' n
  ordered : Ordered (Above cmp) g' 1 n
  rearranged : Rearranged g g' n

theorem Settled.of_rearranged {g₀ : ℕ → Element α} (h : Settled cmp g n tab g')
    (hre : Rearranged g₀ g n) : Settled cmp g₀ n tab g' :=
  ⟨h.shows, h.ordered, hre.trans h.rearranged⟩

theorem belongsBelow_marker (hmark : (g 0).item = none) (v : Slot α) :
    belongsBelow cmp (some (g 0)) v = .ok false := by
  simp [belongsBelow, deref, hmark, pure_eq_ok]

theorem belongsBelow_ok (cmp : α → α → ℤ) {a b : Element α} {x y : α}
    (hx : a.item = some x) (hy : b.item = some y) :
    ∃ up, belongsBelow cmp (some a) (some b) = .ok up ∧ (up = true ↔ ¬ Above cmp a b) := by
  obtain ⟨rc, hrc, hneg⟩ := compare_ok cmp hx hy
  refine ⟨decide (rc < 0), ?_, ?_⟩
  · simp [belongsBelow, deref, hx, hrc, pure_eq_ok]
  · rw [decide_eq_true_iff, hneg]

theorem upheapLoop_ok (hcmp : TotalPreorder cmp) (hrise : Rising (Above cmp) g 1 n k)
    (hshow : ShowsBut tab g n k) (hlo : 1 ≤ k) (hk : k < n) (hrounds : k < rounds)
    (hmark : (g 0).item = none) (hfill : Filled g n) :
    ∃ tab' g', upheapLoop cmp (some (g k)) rounds tab k = .ok tab' ∧ Settled cmp g n tab' g' := by
  induction rounds generalizing k tab g with
  | zero => omega
  | succ rounds ih =>
    have hroom := hshow.room
    have hread := readSlot_of_eq (hshow.slot (k / 2) (by omega) (by omega))
    have hstop : Ordered (Above cmp) g 1 n → belongsBelow cmp (some (g (k / 2))) (some (g k)) =
        .ok false → ∃ tab' g', upheapLoop cmp (some (g k)) (rounds + 1) tab k = .ok tab' ∧
          Settled cmp g n tab' g' := by
      intro hord hbelow
      refine ⟨tab.set k (some (g k)), g, ?_, hshow.fill, hord, Rearranged.refl g n⟩
      rw [upheapLoop, hread, ok_bind, hbelow, ok_bind, if_neg Bool.false_ne_true,
        writeSlot_of_lt (by omega)]
    by_cases htop : k = 1
    · subst htop
      exact hstop (hrise.ordered fun h => absurd h (lt_irrefl 1)) (belongsBelow_marker hmark _)
    · obtain ⟨x, hx⟩ := hfill.item (by omega : 1 ≤ k / 2) (by omega)
      obtain ⟨y, hy⟩ := hfill.item hlo hk
      obtain ⟨up, hup, hiff⟩ := belongsBelow_ok cmp hx hy
      cases up with
      | false =>
        have habove : Above cmp (g (k / 2)) (g k) := by
          by_contra hnot
          exact Bool.false_ne_true (hiff.mpr hnot)
        exact hstop (hrise.ordered fun _ => habove) hup
      | true =>
        have habove := above_of_not_above hcmp hx hy (hiff.mp rfl)
        have hswap := rearranged_swapAt g hlo hk (by omega : 1 ≤ k / 2) (by omega)
        have := hcmp.isTrans_above
        obtain ⟨tab', g', hloop, hsettled⟩ := ih (hrise.step (by omega) habove)
          (hshow.move (k / 2)) (by omega) (by omega) (by omega)
          (by rw [hswap.marker]; exact hmark) (hfill.rearranged hswap)
        refine ⟨tab', g', ?_, hsettled.of_rearranged hswap⟩
        rw [swapAt_right] at hloop
        rw [upheapLoop, hread, ok_bind, hup, ok_bind, if_pos rfl,
          writeSlot_of_lt (by omega), ok_bind, hloop]

theorem biggestChild_ok (hcmp : TotalPreorder cmp) (hshow : ShowsBut tab g n k)
    (hstale : tab[n]? = some (some (g k))) (hlo : 1 ≤ k) (hk : k < n) (hhalf : k ≤ n / 2)
    (hfill : Filled g n) :
    ∃ c e, biggestChild cmp n tab k = .ok c ∧ tab[c]? = some (some e) ∧
      (c < n ∧ c / 2 = k ∧ e = g c ∧ (∀ i, 1 < i → i < n → i / 2 = k → Above cmp (g c) (g i)) ∨
        e = g k ∧ ∀ i, 1 < i → i < n → i / 2 = k → Above cmp (g k) (g i)) := by
  obtain ⟨x, hx⟩ := hfill.item hlo hk
  rw [biggestChild]
  by_cases hlt : 2 * k < n
  · have hleft := hshow.slot (2 * k) hlt (by omega)
    obtain ⟨y, hy⟩ := hfill.item (by omega : 1 ≤ 2 * k) hlt
    have hself := above_self hcmp hy
    rw [if_pos hlt, readSlot_of_eq hleft, ok_bind]
    by_cases hright : 2 * k + 1 < n
    · have hslot := hshow.slot (2 * k + 1) hright (by omega)
      obtain ⟨z, hz⟩ := hfill.item (by omega : 1 ≤ 2 * k + 1) hright
      obtain ⟨rc, hrc, hneg⟩ := compare_ok cmp hy hz
      rw [readSlot_of_eq hslot, ok_bind, hrc, ok_bind]
      by_cases hsmall : rc < 0
      · have habove := above_of_not_above hcmp hy hz (hneg.mp hsmall)
        refine ⟨2 * k + 1, g (2 * k + 1), by rw [if_pos hsmall]; rfl, hslot,
          Or.inl ⟨hright, by omega, rfl, ?_⟩⟩
        intro i _ _ hi
        obtain rfl | rfl : i = 2 * k ∨ i = 2 * k + 1 := by omega
        · exact habove
        · exact above_self hcmp hz
      · have habove : Above cmp (g (2 * k)) (g (2 * k + 1)) := by
          by_contra hnot
          exact hsmall (hneg.mpr hnot)
        refine ⟨2 * k, g (2 * k), by rw [if_neg hsmall]; rfl, hleft,
          Or.inl ⟨hlt, by omega, rfl, ?_⟩⟩
        intro i _ _ hi
        obtain rfl | rfl : i = 2 * k ∨ i = 2 * k + 1 := by omega
        · exact hself
        · exact habove
    · obtain rfl : n = 2 * k + 1 := by omega
      obtain ⟨rc, hrc, hneg⟩ := compare_ok cmp hy hx
      rw [readSlot_of_eq hstale, ok_bind, hrc, ok_bind]
      by_cases hsmall : rc < 0
      · refine ⟨2 * k + 1, g k, by rw [if_pos hsmall]; rfl, hstale, Or.inr ⟨rfl, ?_⟩⟩
        intro i _ hin hi
        obtain rfl : i = 2 * k := by omega
        exact above_of_not_above hcmp hy hx (hneg.mp hsmall)
      · refine ⟨2 * k, g (2 * k), by rw [if_neg hsmall]; rfl, hleft,
          Or.inl ⟨hlt, by omega, rfl, ?_⟩⟩
        intro i _ hin hi
        obtain rfl : i = 2 * k := by omega
        exact hself
  · obtain rfl : n = 2 * k := by omega
    refine ⟨2 * k, g k, by rw [if_neg hlt]; rfl, hstale, Or.inr ⟨rfl, ?_⟩⟩
    intro i _ hin hi
    omega

theorem downheapLoop_ok (hcmp : TotalPreorder cmp) (hsink : Sinking (Above cmp) g 1 n k)
    (hshow : ShowsBut tab g n k) (hstale : tab[n]? = some (some (g k))) (hlo : 1 ≤ k) (hk : k < n)
    (hrounds : n < rounds + k) (hfill : Filled g n) :
    ∃ tab' g', downheapLoop cmp n (some (g k)) rounds tab k = .ok tab' ∧
      Settled cmp g n tab' g' := by
  induction rounds generalizing k tab g with
  | zero => omega
  | succ rounds ih =>
    have hroom := hshow.room
    have hwrite : writeSlot tab k (some (g k)) = .ok (tab.set k (some (g k))) :=
      writeSlot_of_lt (by omega) _
    have hsettled : (∀ i, 1 < i → i < n → i / 2 = k → Above cmp (g k) (g i)) →
        Settled cmp g n (tab.set k (some (g k))) g := fun hchildren =>
      ⟨hshow.fill, hsink.ordered hchildren, Rearranged.refl g n⟩
    rw [downheapLoop]
    by_cases hhalf : k ≤ n / 2
    · obtain ⟨c, e, hchild, hslot, hcase⟩ :=
        biggestChild_ok hcmp hshow hstale hlo hk hhalf hfill
      obtain ⟨x, hx⟩ := hfill.item hlo hk
      rw [if_pos hhalf, hchild, ok_bind, readSlot_of_eq hslot, ok_bind]
      rcases hcase with ⟨hcn, hck, rfl, hfirst⟩ | ⟨rfl, hchildren⟩
      · obtain ⟨y, hy⟩ := hfill.item (by omega : 1 ≤ c) hcn
        obtain ⟨rc, hrc, hneg⟩ := compare_ok cmp hx hy
        have := hcmp.isTrans_above
        rw [hrc, ok_bind]
        by_cases hstop : 0 ≤ rc
        · have habove : Above cmp (g k) (g c) := by
            by_contra hnot
            have := hneg.mpr hnot
            omega
          rw [if_pos hstop]
          refine ⟨_, g, hwrite, hsettled fun i h1 hi h2 => ?_⟩
          exact IsTrans.trans _ _ _ habove (hfirst i h1 hi h2)
        · have hdown := above_of_not_above hcmp hx hy (hneg.mp (by omega))
          have hswap := rearranged_swapAt g hlo hk (by omega : 1 ≤ c) hcn
          obtain ⟨tab', g', hloop, hset⟩ := ih (hsink.step (by omega) hcn hck hfirst hdown)
            (hshow.move c) (by rw [List.getElem?_set_ne (by omega), hstale, swapAt_right])
            (by omega) hcn (by omega) (hfill.rearranged hswap)
          refine ⟨tab', g', ?_, hset.of_rearranged hswap⟩
          rw [swapAt_right] at hloop
          rw [if_neg hstop, writeSlot_of_lt (by omega), ok_bind, hloop]
      · -- the element meets itself, and stays
        obtain ⟨rc, hrc, hneg⟩ := compare_ok cmp hx hx
        have hstop : 0 ≤ rc := by
          by_contra hnot
          exact hneg.mp (by omega) (above_self hcmp hx)
        rw [hrc, ok_bind, if_pos hstop]
        exact ⟨_, g, hwrite, hsettled hchildren⟩
    · rw [if_neg hhalf]
      refine ⟨_, g, hwrite, hsettled fun i _ hi h2 => ?_⟩
      omega

end loops

section calls
variable {cmp : α → α → ℤ} {q : GwPrioqueue α} {es : List (α × ℕ)}

def entry (p : α × ℕ) : Element α := ⟨some p.1, p.2⟩

/-- **The queue between two calls**: its slots have the elements `g`, a heap, inserted in the
order `es`. -/
structure Holds (cmp : α → α → ℤ) (q : GwPrioqueue α) (g : ℕ → Element α)
    (es : List (α × ℕ)) : Prop where
  shows : Shows q.tab g q.len
  marker : g 0 = ⟨none, 0⟩
  ordered : Ordered (Above cmp) g 1 q.len
  perm : (elements g q.len).Perm (es.map entry)
  len : q.len = es.length + 1
  sorted : es.Pairwise (·.2 < ·.2)
  numbers : ∀ p ∈ es, 1 ≤ p.2 ∧ p.2 < q.seq
  next : 1 ≤ q.seq

theorem filled_of_perm (h : (elements g n).Perm (es.map entry)) : Filled g n := by
  intro e he
  obtain ⟨p, -, rfl⟩ := List.mem_map.mp (h.mem_iff.mp he)
  exact ⟨p.1, rfl⟩

theorem gwPrioqueueCreate_holds (cmp : α → α → ℤ) :
    ∃ q g, gwPrioqueueCreate = .ok q ∧ Holds cmp q g [] := by
  refine ⟨⟨[some ⟨none, 0⟩], 1, 1⟩, fun _ => ⟨none, 0⟩, rfl, ?_⟩
  refine ⟨⟨le_rfl, ?_⟩, rfl, ?_, Perm.nil, rfl, Pairwise.nil, ?_, le_rfl⟩
  · intro i hi
    obtain rfl : i = 0 := by simpa using hi
    rfl
  · intro i hlo hi
    exact absurd hi (Nat.not_lt.mpr hlo.le)
  · intro p hp
    cases hp

theorem elements_succ (hn : 1 ≤ n) : elements g (n + 1) = elements g n ++ [g n] := by
  obtain ⟨m, rfl⟩ : ∃ m, n = m + 1 := ⟨n - 1, by omega⟩
  simp only [elements, Nat.add_sub_cancel]
  rw [range'_concat, map_append, map_singleton, one_mul, Nat.add_comm 1 m]

theorem elements_congr (h : ∀ i, 1 ≤ i → i < n → g' i = g i) : elements g' n = elements g n := by
  refine map_congr_left fun i hi => ?_
  obtain ⟨hlo, hhi⟩ := mem_range'_1.mp hi
  exact h i hlo (by omega)

theorem gwPrioqueueInsert_some (cmp : α → α → ℤ) (q : GwPrioqueue α) (x : α) :
    gwPrioqueueInsert cmp q (some x) = (do
      let tab ← writeSlot (makeBigger q 1).tab q.len (some ⟨some x, q.seq⟩)
      let tab ← upheap cmp tab q.len
      pure ⟨tab, q.len + 1, q.seq + 1⟩) := rfl

theorem gwPrioqueueInsert_holds (hcmp : TotalPreorder cmp) (h : Holds cmp q g es) (x : α) :
    ∃ q' g', gwPrioqueueInsert cmp q (some x) = .ok q' ∧ Holds cmp q' g' (es ++ [(x, q.seq)]) := by
  have hlen := h.len
  have hroom := h.shows.room
  let new : Element α := ⟨some x, q.seq⟩
  let g₁ : ℕ → Element α := Function.update g q.len new
  have hold : ∀ i, i < q.len → g₁ i = g i := fun i hi => Function.update_of_ne (by omega) _ _
  have hnew : g₁ q.len = new := Function.update_self ..
  let tab := (makeBigger q 1).tab.set q.len (some new)
  have hbig : q.len < (makeBigger q 1).tab.length := by
    simp only [makeBigger, length_append, length_replicate]
    omega
  have hshow : ShowsBut tab g₁ (q.len + 1) q.len := by
    refine ⟨by rw [length_set]; exact hbig, fun i hi hne => ?_⟩
    have hslot := h.shows.slot i (by omega)
    rw [List.getElem?_set_ne (Ne.symm hne), makeBigger, List.getElem?_append_left (by omega), hslot,
      hold i (by omega)]
  have hperm : (elements g₁ (q.len + 1)).Perm ((es ++ [(x, q.seq)]).map entry) := by
    rw [elements_succ (by omega), hnew, elements_congr (g := g) fun i _ hi => hold i hi, map_append]
    exact h.perm.append_right _
  obtain ⟨tab', g', hloop, hset⟩ := upheapLoop_ok hcmp (h.ordered.rising hold) hshow (by omega)
    (Nat.lt_succ_self _) (Nat.lt_succ_self _) (by rw [hold 0 (by omega), h.marker])
    (filled_of_perm hperm)
  refine ⟨⟨tab', q.len + 1, q.seq + 1⟩, g', ?_, ?_⟩
  · have hread : readSlot tab q.len = .ok (some new) :=
      readSlot_of_eq (List.getElem?_set_self hbig)
    rw [hnew] at hloop
    have hup : upheap cmp tab q.len = .ok tab' := by
      rw [upheap, hread, ok_bind, hloop]
    have hwrite : writeSlot (makeBigger q 1).tab q.len (some new) = .ok tab :=
      writeSlot_of_lt hbig _
    rw [gwPrioqueueInsert_some, hwrite, ok_bind, hup, ok_bind, pure_eq_ok]
  · refine ⟨hset.shows, ?_, hset.ordered, hset.rearranged.perm.trans hperm, ?_, ?_, ?_, ?_⟩
    · rw [hset.rearranged.marker, hold 0 (by omega), h.marker]
    · rw [length_append, length_singleton, ← hlen]
    · refine pairwise_append.mpr ⟨h.sorted, pairwise_singleton _ _, ?_⟩
      intro p hp p' hp'
      obtain rfl := mem_singleton.mp hp'
      exact (h.numbers p hp).2
    · intro p hp
      rcases mem_append.mp hp with hp | hp
      · have := h.numbers p hp
        exact ⟨this.1, Nat.lt_succ_of_lt this.2⟩
      · obtain rfl := mem_singleton.mp hp
        exact ⟨h.next, Nat.lt_succ_self _⟩
    · exact Nat.le_add_left 1 q.seq

theorem perm_elements_of_last (hn : 2 ≤ n) (hlast : g' 1 = g n)
    (hsame : ∀ i, i < n → i ≠ 1 → g' i = g i) :
    (elements g (n + 1)).Perm (g 1 :: elements g' n) := by
  obtain ⟨m, rfl⟩ : ∃ m, n = m + 2 := ⟨n - 2, by omega⟩
  have hrest : (range' 2 m).map g' = (range' 2 m).map g := by
    refine map_congr_left fun i hi => ?_
    obtain ⟨hlo, hhi⟩ := mem_range'_1.mp hi
    exact hsame i (by omega) (by omega)
  have hnew : elements g' (m + 2) = g (m + 2) :: (range' 2 m).map g := by
    rw [← hlast, ← hrest]
    rfl
  have hold : elements g (m + 2) = g 1 :: (range' 2 m).map g := rfl
  rw [elements_succ (by omega), hold, hnew]
  exact (perm_append_singleton _ _).cons _

theorem Holds.seq_ne (h : Holds cmp q g es) (hi : i < q.len) (hone : 1 < q.len) (hne : i ≠ 1) :
    (g i).seq ≠ (g 1).seq := by
  have hnodup : ((elements g q.len).map Element.seq).Nodup := by
    have hes : ((es.map entry).map Element.seq).Nodup := by
      rw [List.map_map]
      exact pairwise_map.mpr (h.sorted.imp fun hlt => Nat.ne_of_lt hlt)
    exact (h.perm.map Element.seq).nodup_iff.mpr hes
  rw [elements, List.map_map] at hnodup
  by_cases hzero : i = 0
  · obtain ⟨p, hp, hentry⟩ : ∃ p ∈ es, entry p = g 1 :=
      List.mem_map.mp (h.perm.mem_iff.mp (mem_elements.mpr ⟨1, le_rfl, hone, rfl⟩))
    have hpos := (h.numbers p hp).1
    rw [hzero, h.marker, ← hentry]
    exact Nat.ne_of_lt hpos
  · intro heq
    exact hne (inj_on_of_nodup_map hnodup (mem_range'_1.mpr (by omega))
      (mem_range'_1.mpr (by omega)) heq)

theorem getElem_freeElement (tab : List (Slot α)) (e : Element α) (i : ℕ) :
    (freeElement tab e)[i]? = tab[i]?.map fun s => if s.any (·.seq = e.seq) then none else s :=
  List.getElem?_map

theorem Holds.slot_freed (h : Holds cmp q g es) (hi : i < q.len) (hone : 1 < q.len)
    (hne : i ≠ 1) : (freeElement q.tab (g 1))[i]? = some (some (g i)) := by
  have hseq := h.seq_ne hi hone hne
  rw [getElem_freeElement, h.shows.slot i hi]
  simp [hseq]

section
variable (hcmp : TotalPreorder cmp) (h : Holds cmp q g es)
include hcmp h

theorem Holds.downheap_ok (hn : q.len = n + 1) (hpos : 1 ≤ n) :
    ∃ last tab tab' g', readSlot (freeElement q.tab (g 1)) n = .ok last ∧
      writeSlot (freeElement q.tab (g 1)) 1 last = .ok tab ∧ downheap cmp n tab 1 = .ok tab' ∧
      Shows tab' g' n ∧ Ordered (Above cmp) g' 1 n ∧ g' 0 = g 0 ∧
      (elements g q.len).Perm (g 1 :: elements g' n) := by
  have hroom : q.len ≤ (freeElement q.tab (g 1)).length := by
    rw [freeElement, length_map]
    exact h.shows.room
  by_cases hone : n = 1
  · -- the first element is the last one: its pointer is copied, and not followed
    subst hone
    have hfreed : (freeElement q.tab (g 1))[1]? = some none := by
      rw [getElem_freeElement, h.shows.slot 1 (by omega)]
      simp
    have hwrite := writeSlot_of_lt (by omega : 1 < (freeElement q.tab (g 1)).length) none
    let tab := (freeElement q.tab (g 1)).set 1 none
    have hslot : tab[1]? = some none := List.getElem?_set_self (by omega)
    have hlen : tab.length = (freeElement q.tab (g 1)).length := length_set ..
    refine ⟨none, tab, tab.set 1 none, g, readSlot_of_eq hfreed, hwrite, ?_, ⟨?_, ?_⟩, ?_, rfl, ?_⟩
    · rw [downheap, readSlot_of_eq hslot, ok_bind, downheapLoop]
      exact writeSlot_of_lt (by omega) none
    · rw [length_set]
      omega
    · intro i hi
      rw [List.getElem?_set_ne (by omega), List.getElem?_set_ne (by omega)]
      exact h.slot_freed (by omega) (by omega) (by omega)
    · intro i hlo hi
      omega
    · rw [hn]
      exact Perm.refl _
  · let g₁ : ℕ → Element α := Function.update g 1 (g n)
    have hfirst : g₁ 1 = g n := Function.update_self ..
    have hsame : ∀ i, i < n → i ≠ 1 → g₁ i = g i := fun i _ hi => Function.update_of_ne hi _ _
    have hread := h.slot_freed (by omega : n < q.len) (by omega) hone
    let tab := (freeElement q.tab (g 1)).set 1 (some (g n))
    have hperm := perm_elements_of_last (by omega : 2 ≤ n) hfirst hsame
    have hshow : ShowsBut tab g₁ n 1 := by
      refine ⟨by rw [length_set]; omega, fun i hi hne => ?_⟩
      rw [List.getElem?_set_ne (Ne.symm hne), hsame i hi hne]
      exact h.slot_freed (by omega) (by omega) hne
    have hstale : tab[n]? = some (some (g₁ 1)) := by
      rw [List.getElem?_set_ne (Ne.symm hone), hread, hfirst]
    have hfill : Filled g₁ n := by
      intro e he
      have hold : Filled g q.len := filled_of_perm h.perm
      refine hold e ?_
      rw [hn]
      exact hperm.mem_iff.mpr (mem_cons_of_mem _ he)
    have := hcmp.isTrans_above
    have hsink : Sinking (Above cmp) g₁ 1 n 1 :=
      ⟨h.ordered.loose (by omega) (by omega) hsame, fun hlt => absurd hlt (lt_irrefl 1)⟩
    obtain ⟨tab', g', hloop, hset⟩ := downheapLoop_ok hcmp hsink hshow hstale le_rfl (by omega)
      (Nat.lt_succ_of_lt (Nat.lt_succ_self n)) hfill
    refine ⟨some (g n), tab, tab', g', readSlot_of_eq hread, writeSlot_of_lt (by omega) _, ?_,
      hset.shows, hset.ordered, ?_, ?_⟩
    · have hslot : tab[1]? = some (some (g₁ 1)) := by
        exact List.getElem?_set_self (by omega)
      rw [downheap, readSlot_of_eq hslot, ok_bind, hloop]
    · rw [hset.rearranged.marker, hsame 0 (by omega) (by omega)]
    · rw [hn]
      exact hperm.trans (hset.rearranged.perm.symm.cons _)

theorem Holds.serves {older newer : List (α × ℕ)} {p : α × ℕ} (hes : es = older ++ p :: newer)
    (hp : g 1 = entry p) :
    Serves cmp (es.map Prod.fst) p.1 ((older ++ newer).map Prod.fst) := by
  have := hcmp.isTrans_above
  have htop : ∀ p' ∈ es, p' = p ∨ 0 < cmp p.1 p'.1 ∨ cmp p.1 p'.1 = 0 ∧ p.2 ≤ p'.2 := by
    intro p' hp'
    obtain ⟨i, hlo, hi, hgi⟩ :=
      mem_elements.mp (h.perm.mem_iff.mpr (List.mem_map_of_mem (f := entry) hp'))
    by_cases hone : i = 1
    · rw [hone, hp] at hgi
      exact Or.inl (by cases p; cases p'; cases hgi; rfl)
    · obtain ⟨x, y, hx, hy, hxy⟩ := h.ordered.top le_rfl i (by omega) hi
      rw [hp] at hx hxy
      rw [hgi] at hy hxy
      cases hx
      cases hy
      exact Or.inr hxy
  have hsorted := h.sorted
  rw [hes] at hsorted
  obtain ⟨-, hcons, hacross⟩ := pairwise_append.mp hsorted
  refine ⟨older.map Prod.fst, newer.map Prod.fst, by rw [hes]; simp, by simp, ?_, ?_⟩
  · intro x hx
    obtain ⟨p', hp', rfl⟩ := List.mem_map.mp hx
    have hlt : p'.2 < p.2 := hacross p' hp' p mem_cons_self
    rcases htop p' (by rw [hes]; exact mem_append_left _ hp') with rfl | hbig | ⟨-, hle⟩
    · exact absurd hlt (lt_irrefl _)
    · exact (hcmp.swap _ _).mp hbig
    · exact absurd hle (Nat.not_le.mpr hlt)
  · intro x hx
    obtain ⟨p', hp', rfl⟩ := List.mem_map.mp hx
    have hmem : p' ∈ es := by
      rw [hes]
      exact mem_append_right _ (mem_cons_of_mem _ hp')
    have hswap' := hcmp.swap p'.1 p.1
    rcases htop p' hmem with rfl | hbig | ⟨hzero, -⟩
    · exact (hcmp.self _).le
    · omega
    · omega

theorem gwPrioqueueRemove_holds (hes : es ≠ []) :
    ∃ m q' g' es', gwPrioqueueRemove cmp q = .ok (some m, q') ∧ Holds cmp q' g' es' ∧
      Serves cmp (es.map Prod.fst) m (es'.map Prod.fst) := by
  have hlen := h.len
  have hpos : 1 ≤ es.length := length_pos_iff.mpr hes
  have hone : 1 < q.len := by omega
  obtain ⟨p, hp, hentry⟩ : ∃ p ∈ es, entry p = g 1 :=
    List.mem_map.mp (h.perm.mem_iff.mp (mem_elements.mpr ⟨1, le_rfl, hone, rfl⟩))
  obtain ⟨older, newer, rfl⟩ := append_of_mem hp
  obtain ⟨last, tab, tab', g', hread, hwrite, hdown, hshow, hord, hmark, hperm⟩ :=
    h.downheap_ok hcmp (by omega : q.len = (q.len - 1) + 1) (by omega)
  refine ⟨p.1, ⟨tab', q.len - 1, q.seq⟩, g', older ++ newer, ?_, ?_, h.serves hcmp rfl hentry.symm⟩
  · have hfirst := readSlot_of_eq (h.shows.slot 1 hone)
    rw [gwPrioqueueRemove, if_neg (by omega), hfirst, ok_bind, deref]
    simp only [hread, ok_bind, hwrite, hdown, pure_eq_ok]
    rw [← hentry, entry]
  · refine ⟨hshow, hmark.trans h.marker, hord, ?_, ?_, ?_, ?_, h.next⟩
    · have hcons : (g 1 :: elements g' (q.len - 1)).Perm (g 1 :: (older ++ newer).map entry) := by
        refine (hperm.symm.trans h.perm).trans ?_
        rw [← hentry]
        exact perm_middle.map entry
      exact hcons.cons_inv
    · simp only [length_append, length_cons] at hlen ⊢
      omega
    · exact h.sorted.sublist ((sublist_cons_self p newer).append_left older)
    · intro p' hp'
      exact h.numbers p' (mem_append.mpr ((mem_append.mp hp').imp_right (mem_cons_of_mem _)))

end

theorem gwPrioqueueRemove_empty (h : Holds cmp q g []) :
    gwPrioqueueRemove cmp q = .ok (none, q) := by
  have hlen : q.len ≤ 1 := h.len.le
  rw [gwPrioqueueRemove, if_pos hlen, pure_eq_ok]

theorem runOps_holds (hcmp : TotalPreorder cmp) (ops : List (Op α)) (h : Holds cmp q g es) :
    ∃ outs q' g' es', runOps cmp q ops = .ok (outs, q') ∧ Holds cmp q' g' es' ∧
      Behaves cmp (es.map Prod.fst) ops outs (es'.map Prod.fst) := by
  induction ops generalizing q g es with
  | nil => exact ⟨[], q, g, es, rfl, h, .done _⟩
  | cons op ops ih =>
    cases op with
    | insert x =>
      obtain ⟨q₁, g₁, hins, h₁⟩ := gwPrioqueueInsert_holds hcmp h x
      obtain ⟨outs, q', g', es', hrun, h', hbeh⟩ := ih h₁
      rw [map_append] at hbeh
      refine ⟨outs, q', g', es', ?_, h', .insert hbeh⟩
      rw [runOps, hins, ok_bind, hrun]
    | remove =>
      by_cases hes : es = []
      · subst hes
        obtain ⟨outs, q', g', es', hrun, h', hbeh⟩ := ih h
        refine ⟨none :: outs, q', g', es', ?_, h', .empty hbeh⟩
        rw [runOps, gwPrioqueueRemove_empty h]
        simp only [hrun, ok_bind, pure_eq_ok]
      · obtain ⟨m, q₁, g₁, es₁, hrem, h₁, hserves⟩ := gwPrioqueueRemove_holds hcmp h hes
        obtain ⟨outs, q', g', es', hrun, h', hbeh⟩ := ih h₁
        refine ⟨some m :: outs, q', g', es', ?_, h', .remove hserves hbeh⟩
        rw [runOps, hrem]
        simp only [hrun, ok_bind, pure_eq_ok]

theorem mapM_readItems (h : Shows q.tab g q.len) (is : List ℕ) (his : ∀ i ∈ is, i < q.len) :
    (is.mapM fun i => do
      let e ← readSlot q.tab i
      let e ← deref e
      pure e.item) = Except.ok ((is.map g).map Element.item) := by
  induction is with
  | nil => rfl
  | cons i is ih =>
    have hread := readSlot_of_eq (h.slot i (his i mem_cons_self))
    rw [mapM_cons, hread, ok_bind, deref, ok_bind, pure_eq_ok,
      ih fun j hj => his j (mem_cons_of_mem _ hj)]
    rfl

theorem Holds.foreach (h : Holds cmp q g es) :
    ∃ items, gwPrioqueueForeach q = .ok items ∧ items.Perm ((es.map Prod.fst).map some) := by
  refine ⟨(elements g q.len).map Element.item, ?_, ?_⟩
  · refine mapM_readItems h.shows _ fun i hi => ?_
    obtain ⟨hlo, hhi⟩ := mem_range'_1.mp hi
    omega
  · have hperm := h.perm.map Element.item
    rw [List.map_map] at hperm ⊢
    exact hperm

end calls

/-- **The queue** behaves as the list of its items: a removal returns `NULL` if there is none,
and else the first inserted one of the biggest; `gw_prioqueue_foreach` and `gw_prioqueue_len`
agree. -/
theorem gwPrioqueue_behaves {cmp : α → α → ℤ} (hcmp : TotalPreorder cmp) (ops : List (Op α)) :
    ∃ outs q items visited, (gwPrioqueueCreate >>= fun q => runOps cmp q ops) = .ok (outs, q) ∧
      Behaves cmp [] ops outs items ∧ gwPrioqueueForeach q = .ok visited ∧
      visited.Perm (items.map some) ∧ gwPrioqueueLen q = items.length := by
  obtain ⟨q₀, g₀, hcreate, h₀⟩ := gwPrioqueueCreate_holds cmp
  obtain ⟨outs, q, g, es, hrun, h, hbeh⟩ := runOps_holds hcmp ops h₀
  obtain ⟨visited, hvisit, hperm⟩ := h.foreach
  refine ⟨outs, q, es.map Prod.fst, visited, ?_, hbeh, hvisit, hperm, ?_⟩
  · rw [hcreate, ok_bind, hrun]
  · rw [gwPrioqueueLen, h.len, length_map]
    omega

theorem totalPreorder_sub : TotalPreorder fun a b : ℤ => a - b where
  swap a b := by omega
  trans a b c := by omega

theorem difference_behaves :
    ∃ outs q items visited,
      (gwPrioqueueCreate >>= fun q => runOps (fun a b : ℤ => a - b) q
        [.remove, .insert 3, .insert 5, .insert 5, .remove, .insert 4, .remove]) = .ok (outs, q) ∧
      Behaves (fun a b : ℤ => a - b) []
        [.remove, .insert 3, .insert 5, .insert 5, .remove, .insert 4, .remove] outs items ∧
      gwPrioqueueForeach q = .ok visited ∧ visited.Perm (items.map some) ∧
      gwPrioqueueLen q = items.length :=
  gwPrioqueue_behaves totalPreorder_sub _

end Prioqueue
end Kannel
