import Kannel.Gwlib.GwListRun
import Kannel.Gwlib.PrioQueue

/-!
# Lists: sorting

The scans of a round stop at items the earlier rounds have left, and the first round always
exchanges two items, so both ranges are smaller.
-/

namespace Kannel
open List

namespace GwList
open Prioqueue
variable {ι : Type} {cmp : ι → ι → ℤ} {list : RingList ι} {xs ys zs : List ι} {x y pivot : ι}
  {i j k l r left right : ℤ} {n size : ℕ}

def sortGet (list : RingList ι) (i : ℤ) : Except Failure ι :=
  if 0 ≤ i ∧ i < list.len then getItem list i.toNat else .error .outside

def sortSet (list : RingList ι) (i : ℤ) (x : ι) : Except Failure (RingList ι) :=
  if 0 ≤ i ∧ i < list.len then setItem list i.toNat x else .error .outside

def scanUp (cmp : ι → ι → ℤ) (list : RingList ι) (pivot : ι) : ℕ → ℤ → Except Failure ℤ
  | 0, _ => .error .outside
  | n + 1, l => do
    let x ← sortGet list l
    if cmp x pivot < 0 then scanUp cmp list pivot n (l + 1) else pure l

def scanDown (cmp : ι → ι → ℤ) (list : RingList ι) (pivot : ι) : ℕ → ℤ → Except Failure ℤ
  | 0, _ => .error .outside
  | n + 1, r => do
    let x ← sortGet list r
    if cmp x pivot > 0 then scanDown cmp list pivot n (r - 1) else pure r

def partitionLoop (cmp : ι → ι → ℤ) (pivot : ι) :
    ℕ → RingList ι → ℤ → ℤ → Except Failure (RingList ι × ℤ × ℤ)
  | 0, _, _, _ => .error .outside
  | n + 1, list, l, r => do
    let l ← scanUp cmp list pivot (list.len + 1) l
    let r ← scanDown cmp list pivot (list.len + 1) r
    if l ≤ r then do
      let x ← sortGet list l
      let y ← sortGet list r
      let list ← sortSet list l y
      let list ← sortSet list r x
      if l + 1 ≤ r - 1 then partitionLoop cmp pivot n list (l + 1) (r - 1)
      else pure (list, l + 1, r - 1)
    else pure (list, l, r)

def quicksort (cmp : ι → ι → ℤ) : ℕ → RingList ι → ℤ → ℤ → Except Failure (RingList ι)
  | 0, list, left, right => if left < right then .error .outside else pure list
  | n + 1, list, left, right =>
    if left < right then do
      let pivot ← sortGet list right
      let (list, l, r) ← partitionLoop cmp pivot (list.len + 1) list left right
      let list ← quicksort cmp n list left r
      quicksort cmp n list l right
    else pure list

def gwlistSort (list : RingList ι) (cmp : ι → ι → ℤ) : Except Failure (RingList ι) :=
  if list.len = 0 then pure list else quicksort cmp list.len list 0 (list.len - 1)

def itemAt (xs : List ι) (k : ℤ) : Option ι := if 0 ≤ k then xs[k.toNat]? else none

def exchanged (xs : List ι) (i j : ℤ) (x y : ι) : List ι := (xs.set i.toNat y).set j.toNat x

theorem itemAt_bounds (h : itemAt xs k = some x) : 0 ≤ k ∧ k < xs.length := by
  grind [itemAt]

theorem exists_itemAt (hlo : 0 ≤ k) (hhi : k < xs.length) : ∃ x, itemAt xs k = some x := by
  refine ⟨xs[k.toNat], ?_⟩
  rw [itemAt, if_pos hlo, List.getElem?_eq_getElem]

theorem itemAt_exchanged (hx : itemAt xs i = some x) (hy : itemAt xs j = some y) (k : ℤ) :
    itemAt (exchanged xs i j x y) k =
      if k = j then some x else if k = i then some y else itemAt xs k := by
  unfold itemAt exchanged at *
  grind

theorem Holds.sortGet_eq (h : Holds size list xs) (hx : itemAt xs k = some x) :
    sortGet list k = .ok x := by
  have hk := itemAt_bounds hx
  have hlen := h.len
  rw [itemAt, if_pos hk.1] at hx
  rw [sortGet, if_pos (by omega), h.getItem_eq hx]

theorem Holds.sortSet_ok (h : Holds size list xs) (hlo : 0 ≤ k) (hhi : k < xs.length) (x : ι) :
    ∃ list', sortSet list k x = .ok list' ∧ Holds size list' (xs.set k.toNat x) := by
  have hlen := h.len
  have hfits := h.fits
  have hstart := h.start_lt (by omega)
  obtain ⟨list', hset, hframe, hsame, hother⟩ := setItem_ok hstart (by omega : k.toNat < _) x
  refine ⟨list', by rw [sortSet, if_pos (by omega), hset], ?_, ?_, ?_, ?_, ?_⟩
  · exact hframe.size.symm ▸ h.size_le
  · rw [hframe.len, h.len, length_set]
  · rw [hframe.size, length_set]
    exact hfits
  · rw [hframe.size, hframe.start]
    exact h.start
  · intro i hi
    rw [length_set] at hi
    rw [List.getElem?_set]
    split_ifs with hk
    · rw [← hk, hsame]
    · omega
    · rw [hother i (by omega) (Ne.symm hk), h.item i hi]

structure Rearranged (left right : ℤ) (xs ys : List ι) : Prop where
  perm : ys.Perm xs
  outside : ∀ k, k < left ∨ right < k → itemAt ys k = itemAt xs k
  inside : ∀ P : ι → Prop,
    (∀ k x, left ≤ k → k ≤ right → itemAt xs k = some x → P x) →
      ∀ k x, left ≤ k → k ≤ right → itemAt ys k = some x → P x

theorem Rearranged.refl (left right : ℤ) (xs : List ι) : Rearranged left right xs xs :=
  ⟨Perm.refl xs, fun _ _ => rfl, fun _ h => h⟩

theorem Rearranged.trans (h : Rearranged left right xs ys) (h' : Rearranged left right ys zs) :
    Rearranged left right xs zs :=
  ⟨h'.perm.trans h.perm, fun k hk => (h'.outside k hk).trans (h.outside k hk),
    fun P hP => h'.inside P (h.inside P hP)⟩

theorem Rearranged.widen {left' right' : ℤ} (h : Rearranged left' right' xs ys)
    (hlo : left ≤ left') (hhi : right' ≤ right) : Rearranged left right xs ys := by
  refine ⟨h.perm, fun k hk => h.outside k (by omega), ?_⟩
  intro P hP k x hk hk' hx
  by_cases hin : left' ≤ k ∧ k ≤ right'
  · exact h.inside P (fun k x hk hk' => hP k x (by omega) (by omega)) k x hin.1 hin.2 hx
  · rw [h.outside k (by omega)] at hx
    exact hP k x hk hk' hx

theorem Rearranged.length_eq (h : Rearranged left right xs ys) : ys.length = xs.length :=
  h.perm.length_eq

theorem rearranged_exchanged (hx : itemAt xs i = some x) (hy : itemAt xs j = some y)
    (hi : left ≤ i ∧ i ≤ right) (hj : left ≤ j ∧ j ≤ right) :
    Rearranged left right xs (exchanged xs i j x y) := by
  have hat := itemAt_exchanged hx hy
  refine ⟨?_, ?_, ?_⟩
  · have hi' := itemAt_bounds hx
    have hj' := itemAt_bounds hy
    rw [itemAt, if_pos hi'.1, List.getElem?_eq_getElem (by omega), Option.some.injEq] at hx
    rw [itemAt, if_pos hj'.1, List.getElem?_eq_getElem (by omega), Option.some.injEq] at hy
    rw [← hx, ← hy]
    exact set_set_perm (by omega) (by omega)
  · intro k hk
    rw [hat, if_neg (by omega), if_neg (by omega)]
  · intro P hP k z hk hk' hz
    rw [hat] at hz
    split_ifs at hz
    · cases hz
      exact hP i x hi.1 hi.2 hx
    · cases hz
      exact hP j y hj.1 hj.2 hy
    · exact hP k z hk hk' hz

theorem scanUp_ok (h : Holds size list xs) (hlo : 0 ≤ l) (hk : itemAt xs k = some x)
    (hle : l ≤ k) (hstop : ¬ cmp x pivot < 0) (hfuel : xs.length - l < n) :
    ∃ l' y, scanUp cmp list pivot n l = .ok l' ∧ l ≤ l' ∧ l' ≤ k ∧ itemAt xs l' = some y ∧
      ¬ cmp y pivot < 0 ∧ ∀ m z, l ≤ m → m < l' → itemAt xs m = some z → cmp z pivot < 0 := by
  have hbound := itemAt_bounds hk
  induction n generalizing l with
  | zero => omega
  | succ n ih =>
    obtain ⟨y, hy⟩ := exists_itemAt hlo (show l < xs.length by omega)
    rw [scanUp, h.sortGet_eq hy, ok_bind]
    by_cases hless : cmp y pivot < 0
    · have hne : l ≠ k := by
        rintro rfl
        cases hy.symm.trans hk
        exact hstop hless
      obtain ⟨l', z, hscan, hl, hl', hz, hnot, hall⟩ := ih (l := l + 1) (by omega) (by omega)
        (by omega)
      rw [if_pos hless]
      refine ⟨l', z, hscan, by omega, hl', hz, hnot, fun m w hm hm' hw => ?_⟩
      by_cases hfirst : m = l
      · rw [hfirst, hy] at hw
        cases hw
        exact hless
      · exact hall m w (by omega) hm' hw
    · rw [if_neg hless]
      exact ⟨l, y, rfl, le_rfl, hle, hy, hless, fun m z hm hm' => by omega⟩

theorem scanDown_ok (h : Holds size list xs) (hhi : r < xs.length) (hk : itemAt xs k = some x)
    (hle : k ≤ r) (hstop : ¬ 0 < cmp x pivot) (hfuel : r + 1 < n) :
    ∃ r' y, scanDown cmp list pivot n r = .ok r' ∧ r' ≤ r ∧ k ≤ r' ∧ itemAt xs r' = some y ∧
      ¬ 0 < cmp y pivot ∧ ∀ m z, r' < m → m ≤ r → itemAt xs m = some z → 0 < cmp z pivot := by
  have hbound := itemAt_bounds hk
  induction n generalizing r with
  | zero => omega
  | succ n ih =>
    obtain ⟨y, hy⟩ := exists_itemAt (show 0 ≤ r by omega) hhi
    rw [scanDown, h.sortGet_eq hy, ok_bind]
    by_cases hmore : cmp y pivot > 0
    · have hne : r ≠ k := by
        rintro rfl
        cases hy.symm.trans hk
        exact hstop hmore
      obtain ⟨r', z, hscan, hr, hr', hz, hnot, hall⟩ := ih (r := r - 1) (by omega) (by omega)
        (by omega)
      rw [if_pos hmore]
      refine ⟨r', z, hscan, by omega, hr', hz, hnot, fun m w hm hm' hw => ?_⟩
      by_cases hfirst : m = r
      · rw [hfirst, hy] at hw
        cases hw
        exact hmore
      · exact hall m w hm (by omega) hw
    · rw [if_neg hmore]
      exact ⟨r, y, rfl, le_rfl, hle, hy, hmore, fun m z hm hm' => by omega⟩

structure Parted (cmp : ι → ι → ℤ) (pivot : ι) (left right : ℤ) (xs : List ι) (l r : ℤ) :
    Prop where
  below : ∀ k x, left ≤ k → k < l → itemAt xs k = some x → cmp x pivot ≤ 0
  above : ∀ k x, r < k → k ≤ right → itemAt xs k = some x → 0 ≤ cmp x pivot

structure Guarded (cmp : ι → ι → ℤ) (pivot : ι) (left right : ℤ) (xs : List ι) (l r : ℤ) :
    Prop where
  up : ∃ k x, l ≤ k ∧ k ≤ right ∧ itemAt xs k = some x ∧ ¬ cmp x pivot < 0
  down : ∃ k x, left ≤ k ∧ k ≤ r ∧ itemAt xs k = some x ∧ ¬ 0 < cmp x pivot

theorem Holds.exchange_ok (h : Holds size list xs) (hx : itemAt xs i = some x)
    (hy : itemAt xs j = some y) :
    ∃ list' list'', sortSet list i y = .ok list' ∧ sortSet list' j x = .ok list'' ∧
      Holds size list'' (exchanged xs i j x y) := by
  have hi := itemAt_bounds hx
  have hj := itemAt_bounds hy
  obtain ⟨list', hset, hholds⟩ := h.sortSet_ok hi.1 hi.2 y
  obtain ⟨list'', hset', hholds'⟩ := hholds.sortSet_ok hj.1 (by rw [length_set]; exact hj.2) x
  exact ⟨list', list'', hset, hset', hholds'⟩

theorem partitionLoop_ok (h : Holds size list xs) (hlo : 0 ≤ left) (hhi : right < xs.length)
    (hl : left ≤ l) (hr : r ≤ right) (hlr : l ≤ r) (hparted : Parted cmp pivot left right xs l r)
    (hguarded : Guarded cmp pivot left right xs l r) (hfuel : r - l < n) :
    ∃ list' ys l' r', partitionLoop cmp pivot n list l r = .ok (list', l', r') ∧
      Holds size list' ys ∧ Rearranged left right xs ys ∧ Parted cmp pivot left right ys l' r' ∧
      r' < l' ∧ l ≤ l' ∧ r' ≤ r ∧ left ≤ r' + 1 ∧ l' ≤ right + 1 ∧
      (∀ y, itemAt xs r = some y → cmp y pivot = 0 → l < l' ∧ r' < r) := by
  induction n generalizing list xs l r with
  | zero => omega
  | succ n ih =>
    obtain ⟨k, z, hk, hk', hz, hstop⟩ := hguarded.up
    obtain ⟨m, w, hm, hm', hw, hstop'⟩ := hguarded.down
    have hlen := h.len
    obtain ⟨l₁, x, hup, hl₁, hl₁k, hx, hx0, hbelow⟩ :=
      scanUp_ok (n := list.len + 1) h (by omega) hz hk hstop (by omega)
    obtain ⟨r₁, y, hdown, hr₁, hmr₁, hy, hy0, habove⟩ :=
      scanDown_ok (n := list.len + 1) h (by omega) hw hm' hstop' (by omega)
    rw [partitionLoop, hup, ok_bind, hdown, ok_bind]
    -- an item like the pivot at `r` stops both scans
    have hfirst : ∀ v, itemAt xs r = some v → cmp v pivot = 0 → l₁ ≤ r₁ := by
      intro v hv hzero
      have hr₁' : r₁ = r := by
        by_contra hne
        have := habove r v (by omega) le_rfl hv
        omega
      by_contra hgt
      have := hbelow r v hlr (by omega) hv
      omega
    by_cases hcross : l₁ ≤ r₁
    · obtain ⟨list', list'', hset, hset', hholds⟩ := h.exchange_ok hx hy
      have hat := itemAt_exchanged hx hy
      have hrearr : Rearranged left right xs (exchanged xs l₁ r₁ x y) :=
        rearranged_exchanged hx hy ⟨by omega, by omega⟩ ⟨by omega, by omega⟩
      have hparted' : Parted cmp pivot left right (exchanged xs l₁ r₁ x y) (l₁ + 1) (r₁ - 1) := by
        constructor
        · intro k v hk hk' hv
          have hold := hparted.below k v hk
          grind
        · intro k v hk hk' hv
          have hold := hparted.above k v
          have hnew := habove k v
          grind
      rw [if_pos hcross, h.sortGet_eq hx, ok_bind, h.sortGet_eq hy, ok_bind, hset, ok_bind, hset',
        ok_bind]
      by_cases hmore : l₁ + 1 ≤ r₁ - 1
      · rw [if_pos hmore]
        have hguarded' : Guarded cmp pivot left right (exchanged xs l₁ r₁ x y) (l₁ + 1) (r₁ - 1) :=
          ⟨⟨r₁, x, by omega, by omega, by rw [hat, if_pos rfl], hx0⟩,
            ⟨l₁, y, by omega, by omega, by rw [hat, if_neg (by omega), if_pos rfl], hy0⟩⟩
        obtain ⟨list₃, zs, l', r', hloop, hholds', hrearr', hparted₂, hlt, hl', hr', hlo', hhi',
          -⟩ := ih hholds (by rw [hrearr.length_eq]; exact hhi) (by omega) (by omega) hmore hparted'
            hguarded' (by omega)
        exact ⟨list₃, zs, l', r', hloop, hholds', hrearr.trans hrearr', hparted₂, hlt, by omega,
          by omega, hlo', hhi', fun _ _ _ => ⟨by omega, by omega⟩⟩
      · rw [if_neg hmore]
        exact ⟨list'', _, l₁ + 1, r₁ - 1, rfl, hholds, hrearr, hparted', by omega, by omega,
          by omega, by omega, by omega, fun _ _ _ => ⟨by omega, by omega⟩⟩
    · rw [if_neg hcross]
      refine ⟨list, xs, l₁, r₁, rfl, h, Rearranged.refl _ _ _, ⟨?_, ?_⟩, by omega, by omega,
        by omega, by omega, by omega, fun v hv hzero => absurd (hfirst v hv hzero) hcross⟩
      · intro k v hk hk' hv
        have hold := hparted.below k v hk
        grind
      · intro k v hk hk' hv
        have hold := hparted.above k v
        grind

def SortedOn (cmp : ι → ι → ℤ) (xs : List ι) (left right : ℤ) : Prop :=
  ∀ i j x y, left ≤ i → i < j → j ≤ right → itemAt xs i = some x → itemAt xs j = some y →
    cmp x y ≤ 0

theorem cmp_le_of_pivot (hcmp : TotalPreorder cmp) (hx : cmp x pivot ≤ 0)
    (hy : 0 ≤ cmp y pivot) : cmp x y ≤ 0 := by
  have hxp := hcmp.swap x pivot
  have hxy := hcmp.swap x y
  have htrans := hcmp.trans y pivot x hy (by omega)
  omega

theorem SortedOn.join (hcmp : TotalPreorder cmp) {us vs ws : List ι}
    (hparted : Parted cmp pivot left right us l r) (hrl : r < l)
    (hlow : Rearranged left r us vs) (hsorted : SortedOn cmp vs left r)
    (hhigh : Rearranged l right vs ws) (hsorted' : SortedOn cmp ws l right) :
    SortedOn cmp ws left right := by
  have hlow' : Rearranged left (l - 1) us vs := hlow.widen le_rfl (by omega)
  have hhigh' : Rearranged (r + 1) right vs ws := hhigh.widen (by omega) le_rfl
  have hbelow := hlow'.inside (fun x => cmp x pivot ≤ 0)
    fun k x hk hk' => hparted.below k x hk (by omega)
  have habove := hhigh'.inside (fun x => 0 ≤ cmp x pivot) fun k x hk hk' hx =>
    hparted.above k x (by omega) hk' (by rwa [← hlow.outside k (by omega)])
  intro i j x y hi hij hj hx hy
  by_cases hleft : j ≤ r
  · rw [hhigh.outside i (by omega)] at hx
    rw [hhigh.outside j (by omega)] at hy
    exact hsorted i j x y hi hij hleft hx hy
  · by_cases hright : l ≤ i
    · exact hsorted' i j x y hright hij hj hx hy
    · -- the first item is below `l`, the second one above `r`
      have hx' := hx
      rw [hhigh.outside i (by omega)] at hx'
      exact cmp_le_of_pivot hcmp (hbelow i x hi (by omega) hx') (habove j y (by omega) hj hy)

theorem quicksort_ok (hcmp : TotalPreorder cmp) (h : Holds size list xs) (hlo : 0 ≤ left)
    (hhi : right < xs.length) (hfuel : right - left ≤ n) :
    ∃ list' ys, quicksort cmp n list left right = .ok list' ∧ Holds size list' ys ∧
      Rearranged left right xs ys ∧ SortedOn cmp ys left right := by
  induction n generalizing list xs left right with
  | zero =>
    refine ⟨list, xs, if_neg (by omega), h, Rearranged.refl _ _ _, ?_⟩
    intro i j x y hi hij hj
    omega
  | succ n ih =>
    rw [quicksort]
    by_cases hlt : left < right
    · obtain ⟨pivot, hpivot⟩ := exists_itemAt (show 0 ≤ right by omega) hhi
      have hself := hcmp.self pivot
      have hlen := h.len
      have hparted : Parted cmp pivot left right xs left right :=
        ⟨fun k x hk hk' => by omega, fun k x hk hk' => by omega⟩
      have hguarded : Guarded cmp pivot left right xs left right :=
        ⟨⟨right, pivot, by omega, le_rfl, hpivot, by omega⟩,
          ⟨right, pivot, by omega, le_rfl, hpivot, by omega⟩⟩
      obtain ⟨list₁, us, l, r, hloop, hholds, hrearr, hparted', hrl, -, -, hl, hr, hpast⟩ :=
        partitionLoop_ok (n := list.len + 1) h hlo hhi le_rfl le_rfl hlt.le hparted hguarded
          (by omega)
      obtain ⟨hl', hr'⟩ := hpast pivot hpivot hself
      have hus := hrearr.length_eq
      obtain ⟨list₂, vs, hsort, hholds₂, hrearr₂, hsorted⟩ :=
        @ih list₁ us left r hholds hlo (by omega) (by omega)
      have hvs := hrearr₂.length_eq
      obtain ⟨list₃, ws, hsort', hholds₃, hrearr₃, hsorted'⟩ :=
        @ih list₂ vs l right hholds₂ (by omega) (by omega) (by omega)
      rw [if_pos hlt, h.sortGet_eq hpivot, ok_bind, hloop, ok_bind]
      dsimp only
      rw [hsort]
      refine ⟨list₃, ws, hsort', hholds₃, ?_,
        hsorted.join hcmp hparted' hrl hrearr₂ hrearr₃ hsorted'⟩
      exact (hrearr.trans (hrearr₂.widen le_rfl (by omega))).trans (hrearr₃.widen (by omega) le_rfl)
    · rw [if_neg hlt]
      refine ⟨list, xs, rfl, h, Rearranged.refl _ _ _, ?_⟩
      intro i j x y hi hij hj
      omega

/-- **Sorting** returns, wherever the items are in the ring, reads no position without
an item, and leaves the items in order. -/
theorem gwlistSort_ok (hcmp : TotalPreorder cmp) (h : Holds size list xs) :
    ∃ list' ys, gwlistSort list cmp = .ok list' ∧ Holds size list' ys ∧ ys.Perm xs ∧
      ys.Pairwise fun x y => cmp x y ≤ 0 := by
  have hlen := h.len
  unfold gwlistSort
  split_ifs with hempty
  · have hnil : xs = [] := length_eq_zero_iff.mp (by omega)
    exact ⟨list, xs, rfl, h, Perm.refl xs, hnil ▸ Pairwise.nil⟩
  · obtain ⟨list', ys, hsort, hholds, hrearr, hsorted⟩ :=
      @quicksort_ok ι cmp list xs 0 (list.len - 1) list.len size hcmp h le_rfl (by omega) (by omega)
    refine ⟨list', ys, hsort, hholds, hrearr.perm, ?_⟩
    rw [pairwise_iff_getElem]
    intro i j hi hj hij
    have hys := hrearr.length_eq
    refine hsorted i j ys[i] ys[j] (by omega) (by omega) (by omega) ?_ ?_
    · simp [itemAt]
    · simp [itemAt]

theorem gwlistSort_wrapped : ∃ list' ys,
    gwlistSort ⟨[some 3, some 2, some 1], 2, 3⟩ (fun a b : ℤ => a - b) = .ok list' ∧
      Holds 3 list' ys ∧ ys.Perm [1, 3, 2] ∧ ys.Pairwise fun x y => x - y ≤ 0 :=
  gwlistSort_ok ⟨fun a b => by omega, fun a b c => by omega⟩
    ⟨le_rfl, rfl, by decide, .inl (by decide), by decide⟩

end GwList
end Kannel
