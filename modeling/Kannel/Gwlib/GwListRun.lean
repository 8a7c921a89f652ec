import Kannel.Gwlib.GwList
import Kannel.Lib.Avoids

/-!
# Lists: the ring behaves as a sequence

`Holds size l xs` says that the ring `l` has the items `xs`, each in its slot, in an array of `size`
slots or more.  For every function there is one lemma that takes `Holds` before the call to `Holds`
after it, with what the function does to a plain sequence in between; the moves of `make_bigger`
and `delete_items_from_list` are done with the lemmas of `RingBuffer`.

`listStep` and `plainStep` make one call on the ring and on the plain sequence.  They agree
(`listStep_agrees`), so whole sequences of calls do (`gwlist_sequence`).  The array of a list never
gets shorter, so that a list that ever held an item has one.
-/

namespace Kannel
open List

namespace GwList
open RingBuffer
variable {ι : Type} {l l' l'' : RingList ι} {xs : List ι} {i j n pos count size : ℕ}

def slot (l : RingList ι) (i : ℕ) : Option ι := l.tab[index l i]?.join

/-- The ring has the items, each in its slot, and an array of `size` slots at least. -/
structure Holds (size : ℕ) (l : RingList ι) (xs : List ι) : Prop where
  size_le : size ≤ l.tab.length
  len : l.len = xs.length
  fits : xs.length ≤ l.tab.length
  start : l.start < l.tab.length ∨ l.start = 0 ∧ l.tab.length = 0
  item : ∀ i, i < xs.length → slot l i = xs[i]?

theorem Holds.start_lt (h : Holds size l xs) (hpos : 0 < l.tab.length) :
    l.start < l.tab.length := by
  rcases h.start with hlt | ⟨-, hzero⟩
  · exact hlt
  · omega

theorem gwlistCreate_holds : Holds 0 (gwlistCreate : RingList ι) [] where
  size_le := le_rfl
  len := rfl
  fits := le_rfl
  start := Or.inr ⟨rfl, rfl⟩
  item i hi := absurd hi (Nat.not_lt_zero i)

structure SameFrame (l l' : RingList ι) : Prop where
  start : l'.start = l.start
  len : l'.len = l.len
  size : l'.tab.length = l.tab.length

theorem SameFrame.trans (h : SameFrame l l') (h' : SameFrame l' l'') : SameFrame l l'' :=
  ⟨h'.start.trans h.start, h'.len.trans h.len, h'.size.trans h.size⟩

theorem getItem_of_slot {x : ι} (h : slot l i = some x) : getItem l i = .ok x := by
  rw [getItem, Option.join_eq_some_iff.mp h]

theorem Holds.getItem_eq (h : Holds size l xs) {x : ι} (hx : xs[i]? = some x) :
    getItem l i = .ok x := by
  have hi : i < xs.length := (List.getElem?_eq_some_iff.mp hx).1
  exact getItem_of_slot ((h.item i hi).trans hx)

theorem setItem_ok (hs : l.start < l.tab.length) (hi : i < l.tab.length) (x : ι) :
    ∃ l', setItem l i x = .ok l' ∧ SameFrame l l' ∧ slot l' i = some x ∧
      ∀ j, j < l.tab.length → j ≠ i → slot l' j = slot l j := by
  have hlt : index l i < l.tab.length := Nat.mod_lt _ (by omega)
  let l' : RingList ι := { l with tab := l.tab.set (index l i) (some x) }
  have hsize : l'.tab.length = l.tab.length := length_set ..
  refine ⟨l', if_pos hlt, ⟨rfl, rfl, hsize⟩, ?_, fun j hj hne => ?_⟩
  · rw [slot, index, hsize]
    exact congrArg Option.join (set_same hs (some x))
  · rw [slot, index, hsize]
    exact congrArg Option.join (set_other hs hj hi hne (some x))

theorem shiftUp_ok (i : ℕ) (hs : l.start < l.tab.length) (hi : i < l.tab.length)
    (hsome : ∀ j, j < i → ∃ x, slot l j = some x) :
    ∃ l', shiftUp pos i l = .ok l' ∧ SameFrame l l' ∧
      ∀ j, j < l.tab.length →
        slot l' j = if pos < j ∧ j ≤ i then slot l (j - 1) else slot l j := by
  induction i generalizing l with
  | zero =>
    refine ⟨l, rfl, ⟨rfl, rfl, rfl⟩, fun j _ => ?_⟩
    rw [if_neg (by omega)]
  | succ i ih =>
    rw [shiftUp]
    by_cases hpos : i + 1 > pos
    · obtain ⟨x, hx⟩ := hsome i (Nat.lt_succ_self i)
      obtain ⟨l₁, hset, hframe, hself, hother⟩ := setItem_ok hs hi x
      have hsome₁ : ∀ j, j < i → ∃ x, slot l₁ j = some x := by
        intro j hj
        rw [hother j (by omega) (by omega)]
        exact hsome j (by omega)
      obtain ⟨l', hloop, hframe', hslots⟩ :=
        ih (by rw [hframe.start, hframe.size]; exact hs) (by rw [hframe.size]; omega) hsome₁
      refine ⟨l', ?_, hframe.trans hframe', fun j hj => ?_⟩
      · rw [if_pos hpos, getItem_of_slot hx, ok_bind, hset, ok_bind, hloop]
      · rw [hslots j (by rw [hframe.size]; exact hj)]
        by_cases hlast : j = i + 1
        · rw [if_neg (by omega), if_pos (by omega), hlast, hself, Nat.add_sub_cancel, hx]
        · by_cases hin : pos < j ∧ j ≤ i
          · rw [if_pos hin, if_pos (by omega), hother (j - 1) (by omega) (by omega)]
          · rw [if_neg hin, if_neg (by omega), hother j hj hlast]
    · refine ⟨l, if_neg hpos, ⟨rfl, rfl, rfl⟩, fun j _ => ?_⟩
      rw [if_neg (by omega)]

theorem closeGap_ok (n : ℕ) (hs : l.start < l.tab.length)
    (hfit : pos + i + n + count ≤ l.tab.length)
    (hsome : ∀ j, pos + i ≤ j → j < pos + i + n → ∃ x, slot l (j + count) = some x) :
    ∃ l', closeGap pos count n l i = .ok l' ∧ SameFrame l l' ∧
      ∀ j, j < l.tab.length →
        slot l' j = if pos + i ≤ j ∧ j < pos + i + n then slot l (j + count) else slot l j := by
  induction n generalizing l i with
  | zero =>
    refine ⟨l, rfl, ⟨rfl, rfl, rfl⟩, fun j _ => ?_⟩
    rw [if_neg (by omega)]
  | succ n ih =>
    obtain ⟨x, hx⟩ := hsome (pos + i) le_rfl (by omega)
    obtain ⟨l₁, hset, hframe, hself, hother⟩ :=
      setItem_ok hs (by omega : pos + i < l.tab.length) x
    have hsome₁ : ∀ j, pos + (i + 1) ≤ j → j < pos + (i + 1) + n →
        ∃ x, slot l₁ (j + count) = some x := by
      intro j hlo hhi
      rw [hother (j + count) (by omega) (by omega)]
      exact hsome j (by omega) (by omega)
    obtain ⟨l', hloop, hframe', hslots⟩ :=
      ih (by rw [hframe.start, hframe.size]; exact hs) (by rw [hframe.size]; omega) hsome₁
    refine ⟨l', ?_, hframe.trans hframe', fun j hj => ?_⟩
    · rw [closeGap, getItem_of_slot hx, ok_bind, hset, ok_bind, hloop]
    · rw [hslots j (by rw [hframe.size]; exact hj)]
      by_cases hfirst : j = pos + i
      · rw [if_neg (by omega), if_pos (by omega), hfirst, hself, hx]
      · by_cases hin : pos + (i + 1) ≤ j ∧ j < pos + (i + 1) + n
        · rw [if_pos hin, if_pos (by omega), hother (j + count) (by omega) (by omega)]
        · rw [if_neg hin, if_neg (by omega), hother j hj hfirst]

theorem slot_of_lt (h : l.start + i < l.tab.length) : slot l i = l.tab[l.start + i]?.join := by
  rw [slot, index, Nat.mod_eq_of_lt h]

theorem slot_of_ge (hs : l.start < l.tab.length) (hi : i < l.tab.length)
    (h : l.tab.length ≤ l.start + i) : slot l i = l.tab[l.start + i - l.tab.length]?.join := by
  rw [slot, index, wrap hs hi, if_neg (by omega)]

theorem memmove_ok {tab : List (Option ι)} {dst src : ℕ} (hdst : dst + n ≤ tab.length)
    (hsrc : src + n ≤ tab.length) : memmove tab dst src n = .ok (moved tab dst src n) :=
  if_pos ⟨hdst, hsrc⟩

theorem makeBigger_ok (h : Holds size l xs) (items : ℕ) :
    ∃ l', makeBigger l items = .ok l' ∧ Holds size l' xs ∧ xs.length + items ≤ l'.tab.length := by
  have hlen := h.len
  have hfits := h.fits
  rw [makeBigger]
  by_cases hroom : l.len + items ≤ l.tab.length
  · exact ⟨l, if_pos hroom, h, by omega⟩
  · obtain ⟨tab, htab⟩ : ∃ tab, tab = l.tab ++ replicate items none := ⟨_, rfl⟩
    have hsize : tab.length = l.tab.length + items := by
      rw [htab, length_append, length_replicate]
    have hold : ∀ m, m < l.tab.length → tab[m]? = l.tab[m]? := by
      intro m hm
      rw [htab, List.getElem?_append_left hm]
    have hstart' : l.start < tab.length := by
      rcases h.start with hlt | ⟨hzero, -⟩ <;> omega
    -- what is left to show, whatever the items have become
    have hdone : ∀ tab' : List (Option ι), tab'.length = tab.length →
        (∀ i, i < xs.length → slot { l with tab := tab' } i = slot l i) →
        Holds size { l with tab := tab' } xs ∧ xs.length + items ≤ tab'.length := by
      intro tab' hsize' hslots
      have hold_le := h.size_le
      refine ⟨⟨by simp only; omega, hlen, by simp only; omega, Or.inl (by simp only; omega),
        fun i hi => ?_⟩, by omega⟩
      rw [hslots i hi, h.item i hi]
    rw [if_neg hroom]
    rw [← htab, if_neg (not_not.mpr h.start)]
    by_cases hwrap : l.start + l.len > l.tab.length
    · have hs : l.start < l.tab.length := by
        rcases h.start with hlt | ⟨hzero, -⟩ <;> omega
      rw [if_pos hwrap]
      by_cases hcase : l.len - (l.tab.length - l.start) ≤ l.tab.length + items - l.tab.length
      · rw [if_pos hcase, memmove_ok (by omega) (by omega)]
        have hmoved := getElem_moved tab l.tab.length 0 (l.len - (l.tab.length - l.start))
          (by omega) (by omega)
        have hlength := length_moved tab l.tab.length 0 (l.len - (l.tab.length - l.start))
          (by omega) (by omega)
        refine ⟨_, rfl, hdone _ hlength fun i hi => ?_⟩
        rw [slot_of_lt (by simp only; omega)]
        simp only
        rw [hmoved]
        by_cases hend : l.start + i < l.tab.length
        · rw [if_neg (by omega), hold _ hend, slot_of_lt hend]
        · rw [if_pos (by omega), Nat.zero_add, hold _ (by omega),
            slot_of_ge hs (by omega) (by omega)]
      · -- the items at the beginning do not fit behind the others
        obtain ⟨rest, hrest⟩ : ∃ rest, rest = l.len - (l.tab.length - l.start) - items := ⟨_, rfl⟩
        obtain ⟨tab₁, htab₁⟩ : ∃ tab₁, tab₁ = moved tab l.tab.length 0 items := ⟨_, rfl⟩
        have hsize₁ : tab₁.length = tab.length := by
          rw [htab₁]
          exact length_moved tab l.tab.length 0 items (by omega) (by omega)
        have hmoved₁ : ∀ m, tab₁[m]? = if l.tab.length ≤ m ∧ m < l.tab.length + items
            then tab[0 + (m - l.tab.length)]? else tab[m]? := by
          intro m
          rw [htab₁]
          exact getElem_moved tab l.tab.length 0 items (by omega) (by omega) m
        have hmoved := getElem_moved tab₁ 0 items rest (by omega) (by omega)
        have hlength := length_moved tab₁ 0 items rest (by omega) (by omega)
        rw [if_neg hcase, Nat.add_sub_cancel_left, memmove_ok (by omega) (by omega), ok_bind,
          ← htab₁, ← hrest, memmove_ok (by omega) (by omega)]
        refine ⟨_, rfl, hdone _ (by omega) fun i hi => ?_⟩
        by_cases hnew : l.start + i < l.tab.length + items
        · rw [slot_of_lt (by simp only; omega)]
          simp only
          rw [hmoved, if_neg (by omega), hmoved₁]
          by_cases hend : l.start + i < l.tab.length
          · rw [if_neg (by omega), hold _ hend, slot_of_lt hend]
          · rw [if_pos (by omega), Nat.zero_add, hold _ (by omega),
              slot_of_ge hs (by omega) (by omega)]
        · rw [slot_of_ge (by simp only; omega) (by simp only; omega) (by simp only; omega)]
          simp only
          have hplace : items + (l.start + i - (moved tab₁ 0 items rest).length - 0) =
            l.start + i - l.tab.length := by omega
          rw [hmoved, if_pos (by omega), hplace, hmoved₁, if_neg (by omega), hold _ (by omega),
            slot_of_ge hs (by omega) (by omega)]
    · rw [if_neg hwrap]
      refine ⟨_, rfl, hdone tab rfl fun i hi => ?_⟩
      rw [slot_of_lt (by simp only; omega), slot_of_lt (by omega)]
      simp only
      rw [hold _ (by omega)]

theorem gwlistAppend_ok (h : Holds size l xs) (x : ι) :
    ∃ l', gwlistAppend l x = .ok l' ∧ Holds size l' (xs ++ [x]) := by
  obtain ⟨l₁, hbig, h₁, hroom⟩ := makeBigger_ok h 1
  have hlen := h₁.len
  obtain ⟨l₂, hset, hframe, hself, hother⟩ :=
    setItem_ok (h₁.start_lt (by omega)) (by omega : l₁.len < l₁.tab.length) x
  refine ⟨{ l₂ with len := l₂.len + 1 }, ?_, hframe.size.symm ▸ h₁.size_le, ?_, ?_, ?_,
    fun i hi => ?_⟩
  · rw [gwlistAppend, hbig, ok_bind, hset, ok_bind, pure_eq_ok]
  · rw [length_append, length_singleton, ← hlen, ← hframe.len]
  · rw [length_append]
    rw [hframe.size]
    exact hroom
  · rw [hframe.start, hframe.size]
    exact h₁.start
  · rw [length_append, length_singleton] at hi
    show slot l₂ i = _
    by_cases hlast : i = xs.length
    · rw [hlast, ← hlen, hself, hlen, List.getElem?_append_right le_rfl, Nat.sub_self]
      rfl
    · rw [hother i (by omega) (by omega), h₁.item i (by omega),
        List.getElem?_append_left (by omega)]

theorem gwlistInsert_ok (h : Holds size l xs) (hpos : pos ≤ xs.length) (x : ι) :
    ∃ l', gwlistInsert l pos x = .ok l' ∧ Holds size l' (xs.insertIdx pos x) := by
  have hlen := h.len
  obtain ⟨l₁, hbig, h₁, hroom⟩ := makeBigger_ok h 1
  have hlen₁ := h₁.len
  have hs := h₁.start_lt (by omega)
  have hsome : ∀ j, j < l₁.len → ∃ x, slot l₁ j = some x := by
    intro j hj
    rw [h₁.item j (by omega), List.getElem?_eq_getElem (by omega)]
    exact ⟨_, rfl⟩
  obtain ⟨l₂, hshift, hframe, hslots⟩ :=
    shiftUp_ok l₁.len hs (by omega : l₁.len < l₁.tab.length) hsome
  obtain ⟨l₃, hset, hframe', hself, hother⟩ :=
    setItem_ok (by rw [hframe.start, hframe.size]; exact hs)
      (by rw [hframe.size]; omega : pos < l₂.tab.length) x
  have hsame := hframe.trans hframe'
  have hlength : (xs.insertIdx pos x).length = xs.length + 1 :=
    length_insertIdx_of_le_length hpos x
  refine ⟨{ l₃ with len := l₃.len + 1 }, ?_, hsame.size.symm ▸ h₁.size_le, ?_, ?_, ?_,
    fun i hi => ?_⟩
  · have hin : 0 ≤ (pos : ℤ) ∧ (pos : ℤ) ≤ l.len := by omega
    rw [gwlistInsert, if_neg (not_not.mpr hin), hbig, ok_bind, Int.toNat_natCast, hshift, ok_bind,
      hset, ok_bind, pure_eq_ok]
  · rw [hlength, hsame.len, hlen₁]
  · rw [hlength, hsame.size]
    exact hroom
  · rw [hsame.start, hsame.size]
    exact h₁.start
  · show slot l₃ i = _
    rw [List.getElem?_insertIdx]
    by_cases hat : i = pos
    · rw [if_neg (by omega), if_pos hat, if_pos (by omega), hat, hself]
    · rw [hother i (by rw [hframe.size]; omega) hat, hslots i (by omega)]
      by_cases hlow : i < pos
      · rw [if_neg (by omega), if_pos hlow, h₁.item i (by omega)]
      · rw [if_pos (by omega), if_neg hlow, if_neg hat, h₁.item (i - 1) (by omega)]

theorem getElem_cut (hpos : pos ≤ xs.length) (i : ℕ) :
    (xs.take pos ++ xs.drop (pos + count))[i]? = if i < pos then xs[i]? else xs[i + count]? := by
  rw [List.getElem?_append, length_take, Nat.min_eq_left hpos]
  by_cases hi : i < pos
  · rw [if_pos hi, if_pos hi, List.getElem?_take_of_lt hi]
  · rw [if_neg hi, if_neg hi, List.getElem?_drop]
    congr 1
    omega

theorem Holds.cut (h : Holds size l xs) (hpos : pos + count ≤ xs.length)
    (hlen : l'.len = l.len - count) (hsize : l'.tab.length = l.tab.length)
    (hstart : l'.start < l'.tab.length)
    (hslots : ∀ j, j < xs.length - count →
      slot l' j = if j < pos then slot l j else slot l (j + count)) :
    Holds size l' (xs.take pos ++ xs.drop (pos + count)) := by
  have hlength : (xs.take pos ++ xs.drop (pos + count)).length = xs.length - count := by
    rw [length_append, length_take, length_drop]
    omega
  have hfits := h.fits
  refine ⟨hsize.symm ▸ h.size_le, ?_, ?_, Or.inl hstart, fun i hi => ?_⟩
  · rw [hlength, hlen, h.len]
  · omega
  · rw [hlength] at hi
    rw [hslots i hi, getElem_cut (by omega)]
    by_cases hlow : i < pos
    · rw [if_pos hlow, if_pos hlow, h.item i (by omega)]
    · rw [if_neg hlow, if_neg hlow, h.item (i + count) (by omega)]

theorem deleteItems_ok (h : Holds size l xs) (hpos : pos < xs.length)
    (hcount : pos + count ≤ xs.length) :
    ∃ l', deleteItemsFromList l pos count = .ok l' ∧
      Holds size l' (xs.take pos ++ xs.drop (pos + count)) := by
  have hlen := h.len
  have hfits := h.fits
  have hs := h.start_lt (by omega)
  have hin : 0 ≤ (pos : ℤ) ∧ (pos : ℤ) < l.len ∧ 0 ≤ (count : ℤ) := by omega
  have hsum : (pos : ℤ) + count ≤ l.len := by omega
  rw [deleteItemsFromList, if_neg (not_not.mpr hin), if_neg (not_not.mpr hsum),
    Int.toNat_natCast, Int.toNat_natCast]
  by_cases hfirst : pos = 0
  · rw [if_pos hfirst]
    refine ⟨_, rfl, h.cut hcount rfl rfl (Nat.mod_lt _ (by omega)) fun j hj => ?_⟩
    rw [if_neg (by omega), slot, slot, index, index]
    rw [wrap_shift, Nat.add_comm count j]
  · rw [if_neg hfirst]
    by_cases hend : pos + count = l.len
    · rw [if_pos hend]
      refine ⟨_, rfl, h.cut hcount rfl rfl hs fun j hj => ?_⟩
      rw [if_pos (by omega)]
      rfl
    · rw [if_neg hend]
      by_cases hflat : l.start + l.len < l.tab.length
      · have hmoved := getElem_moved l.tab (l.start + pos) (l.start + pos + count)
          (l.len - pos - count) (by omega) (by omega)
        have hlength := length_moved l.tab (l.start + pos) (l.start + pos + count)
          (l.len - pos - count) (by omega) (by omega)
        rw [if_pos hflat, memmove_ok (by omega) (by omega)]
        refine ⟨_, rfl, h.cut hcount rfl hlength (by simp only; omega) fun j hj => ?_⟩
        rw [slot_of_lt (by simp only; omega)]
        simp only
        rw [hmoved]
        by_cases hlow : j < pos
        · rw [if_neg (by omega), if_pos hlow, slot_of_lt (by omega)]
        · have hplace : l.start + pos + count + (l.start + j - (l.start + pos)) =
            l.start + (j + count) := by omega
          rw [if_pos (by omega), if_neg hlow, hplace, slot_of_lt (by omega)]
      · have hsome : ∀ j, pos + 0 ≤ j → j < pos + 0 + (l.len - count - pos) →
            ∃ x, slot l (j + count) = some x := by
          intro j _ hj
          rw [h.item (j + count) (by omega), List.getElem?_eq_getElem (by omega)]
          exact ⟨_, rfl⟩
        obtain ⟨l₁, hgap, hframe, hslots⟩ :=
          closeGap_ok (l.len - count - pos) hs (by omega) hsome
        rw [if_neg hflat, hgap]
        refine ⟨_, rfl, h.cut hcount (by rw [hframe.len]) hframe.size ?_ fun j hj => ?_⟩
        · rw [hframe.start, hframe.size]
          exact hs
        · show slot l₁ j = _
          rw [hslots j (by omega)]
          by_cases hlow : j < pos
          · rw [if_neg (by omega), if_pos hlow]
          · rw [if_pos (by omega), if_neg hlow]

theorem deleteItem_ok {kept rest : List ι} {x : ι} (h : Holds size l (kept ++ x :: rest)) :
    ∃ l', deleteItemsFromList l kept.length 1 = .ok l' ∧ Holds size l' (kept ++ rest) := by
  have hlength : (kept ++ x :: rest).length = kept.length + rest.length + 1 := by
    rw [length_append, length_cons, Nat.add_assoc]
  obtain ⟨l', hdelete, h'⟩ := deleteItems_ok h (by omega : kept.length < (kept ++ x :: rest).length)
    (by omega : kept.length + 1 ≤ (kept ++ x :: rest).length)
  refine ⟨l', hdelete, ?_⟩
  rw [take_left, Nat.add_comm, drop_append, drop_eq_nil_of_le (by omega)] at h'
  have hdrop : 1 + kept.length - kept.length = 1 := by omega
  rwa [hdrop, drop_one, tail_cons, nil_append] at h'

variable {ys : List ι}

theorem of_drop_eq_cons {y : ι} (h : xs.drop i = y :: ys) :
    xs[i]? = some y ∧ xs.drop (i + 1) = ys := by
  constructor
  · rw [← Nat.add_zero i, ← List.getElem?_drop, h]
    rfl
  · rw [← drop_drop, h]
    rfl

theorem findItem_ok (h : Holds size l xs) (p : ι → Bool) (hdrop : xs.drop i = ys) :
    ∃ found, findItem l p ys.length i = .ok found ∧ found.map Prod.snd = ys.find? p ∧
      found.map Prod.fst = (ys.findIdx? p).map (i + ·) := by
  induction ys generalizing i with
  | nil => exact ⟨none, rfl, rfl, rfl⟩
  | cons y ys ih =>
    obtain ⟨hy, hrest⟩ := of_drop_eq_cons hdrop
    rw [length_cons, findItem, h.getItem_eq hy, ok_bind, List.find?_cons, List.findIdx?_cons]
    cases hp : p y with
    | true => exact ⟨some (i, y), rfl, rfl, rfl⟩
    | false =>
      obtain ⟨found, hfind, hsnd, hfst⟩ := ih hrest
      refine ⟨found, hfind, hsnd, ?_⟩
      rw [hfst, if_neg Bool.false_ne_true, Option.map_map]
      congr 1
      funext k
      simp only [Function.comp_apply]
      omega

theorem deleteLoop_ok {σ : Type} (p : ι → Bool) {take : σ → ι → Except Failure σ}
    {R : σ → List ι → Prop}
    (htake : ∀ acc ys x, R acc ys → ∃ acc', take acc x = .ok acc' ∧ R acc' (ys ++ [x]))
    {rest kept taken : List ι} {rounds : ℕ} {acc : σ} (h : Holds size l (kept ++ rest))
    (hacc : R acc taken) (hrounds : rest.length < rounds) :
    ∃ acc' l', deleteLoop p take rounds l kept.length acc = .ok (acc', l') ∧
      R acc' (taken ++ rest.filter p) ∧ Holds size l' (kept ++ rest.filter fun x => !p x) := by
  induction rest generalizing rounds l kept taken acc with
  | nil =>
    obtain ⟨rounds, rfl⟩ : ∃ r, rounds = r + 1 := ⟨rounds - 1, by omega⟩
    have hlen := h.len
    rw [append_nil] at hlen
    refine ⟨acc, l, ?_, by rwa [filter_nil, append_nil], by rwa [filter_nil]⟩
    rw [deleteLoop, if_neg (by omega), pure_eq_ok]
  | cons x rest ih =>
    obtain ⟨rounds, rfl⟩ : ∃ r, rounds = r + 1 := ⟨rounds - 1, by omega⟩
    have hlen := h.len
    rw [length_append, length_cons] at hlen
    have hx : (kept ++ x :: rest)[kept.length]? = some x := by
      rw [List.getElem?_append_right le_rfl, Nat.sub_self]
      rfl
    rw [deleteLoop, if_pos (by omega), h.getItem_eq hx, ok_bind]
    cases hp : p x with
    | true =>
      obtain ⟨acc₁, htook, hacc₁⟩ := htake acc taken x hacc
      obtain ⟨l₁, hdelete, h₁⟩ := deleteItem_ok h
      obtain ⟨acc', l', hloop, hR, hholds⟩ := ih h₁ hacc₁ (Nat.lt_of_succ_lt_succ hrounds)
      refine ⟨acc', l', ?_, ?_, ?_⟩
      · rw [if_pos rfl, htook, ok_bind, hdelete, ok_bind, hloop]
      · rw [filter_cons_of_pos hp]
        rwa [append_assoc] at hR
      · rwa [filter_cons_of_neg (by rw [hp]; exact Bool.false_ne_true)]
    | false =>
      have hnext : Holds size l ((kept ++ [x]) ++ rest) := by rwa [append_assoc]
      obtain ⟨acc', l', hloop, hR, hholds⟩ := ih hnext hacc (Nat.lt_of_succ_lt_succ hrounds)
      rw [length_append, length_singleton] at hloop
      refine ⟨acc', l', ?_, ?_, ?_⟩
      · rw [if_neg Bool.false_ne_true, hloop]
      · rwa [filter_cons_of_neg (by rw [hp]; exact Bool.false_ne_true)]
      · rw [filter_cons_of_pos (by rw [hp]; rfl)]
        rwa [append_assoc] at hholds

theorem deleteCounting_ok (h : Holds size l xs) (p : ι → Bool) :
    ∃ l', deleteLoop p (fun count _ => pure (count + 1)) (l.len + 1) l 0 (0 : ℤ) =
        .ok (((xs.filter p).length : ℤ), l') ∧ Holds size l' (xs.filter fun x => !p x) := by
  have hlen := h.len
  have htake : ∀ (n : ℤ) (ys : List ι) (x : ι), n = ys.length →
      ∃ n', (fun (count : ℤ) (_ : ι) => (pure (count + 1) : Except Failure ℤ)) n x = .ok n' ∧
        n' = ((ys ++ [x]).length : ℤ) := by
    intro n ys x hn
    exact ⟨n + 1, rfl, by rw [length_append, hn]; rfl⟩
  obtain ⟨n, l', hloop, rfl, h'⟩ := @deleteLoop_ok ι l size ℤ p _ (fun n ys => n = ys.length) htake
    xs [] [] (l.len + 1) 0 h rfl (by omega)
  exact ⟨l', hloop, h'⟩

variable {new : RingList ι}

theorem collect_ok (h : Holds size l xs) (p : ι → Bool) {ys taken : List ι}
    (hdrop : xs.drop i = ys) (hnew : Holds 0 new taken) :
    ∃ new', collect l p ys.length i new = .ok new' ∧ Holds 0 new' (taken ++ ys.filter p) := by
  induction ys generalizing i new taken with
  | nil => exact ⟨new, rfl, by rwa [filter_nil, append_nil]⟩
  | cons y ys ih =>
    obtain ⟨hy, hrest⟩ := of_drop_eq_cons hdrop
    rw [length_cons, collect, h.getItem_eq hy, ok_bind]
    cases hp : p y with
    | true =>
      obtain ⟨new₁, happend, hnew₁⟩ := gwlistAppend_ok hnew y
      obtain ⟨new', hloop, hnew'⟩ := ih hrest hnew₁
      refine ⟨new', ?_, ?_⟩
      · rw [if_pos rfl, happend, ok_bind, hloop]
      · rw [filter_cons_of_pos hp]
        rwa [append_assoc] at hnew'
    | false =>
      obtain ⟨new', hloop, hnew'⟩ := ih hrest hnew
      refine ⟨new', ?_, ?_⟩
      · rw [if_neg Bool.false_ne_true, hloop]
      · rwa [filter_cons_of_neg (by rw [hp]; exact Bool.false_ne_true)]

inductive ListOp (ι : Type)
  | append (item : ι)
  | appendUnique (item : ι) (cmp : ι → ι → Bool)
  | insert (pos : ℤ) (item : ι)
  | delete (pos count : ℤ)
  | deleteMatching (pat : ι) (mtch : ι → ι → Bool)
  | deleteEqual (item : ι)
  | extractFirst
  | extractMatching (pat : ι) (cmp : ι → ι → Bool)
  | produce (item : ι)
  | consume
  | get (pos : ℤ)
  | search (pattern : ι) (cmp : ι → ι → Bool)
  | searchAll (pattern : ι) (cmp : ι → ι → Bool)
  | searchEqual (item : ι)

/-- The bounds of a deletion add up to a `long`. -/
def ListOp.SumFits : ListOp ι → Prop
  | .delete pos count => pos + count < 2 ^ 63
  | _ => True

/-- The calls that add an item; `append_unique` does so unless it finds the item. -/
def ListOp.adds : ListOp ι → Bool
  | .append _ | .appendUnique _ _ | .insert _ _ | .produce _ => true
  | _ => false

inductive Returned (L ι : Type)
  | nothing
  | number (n : ℤ)
  | item (x : ι)
  | list (new : Option L)

def listStep [DecidableEq ι] (null : ι) (l : RingList ι) :
    ListOp ι → Except Failure (Returned (RingList ι) ι × RingList ι)
  | .append item => do
    let l ← gwlistAppend l item
    pure (.nothing, l)
  | .appendUnique item cmp => do
    let l ← gwlistAppendUnique l item cmp
    pure (.nothing, l)
  | .insert pos item => do
    let l ← gwlistInsert l pos item
    pure (.nothing, l)
  | .delete pos count => do
    let l ← gwlistDelete l pos count
    pure (.nothing, l)
  | .deleteMatching pat mtch => do
    let (count, l) ← gwlistDeleteMatching l pat mtch
    pure (.number count, l)
  | .deleteEqual item => do
    let (count, l) ← gwlistDeleteEqual l item
    pure (.number count, l)
  | .extractFirst => do
    let (item, l) ← gwlistExtractFirst null l
    pure (.item item, l)
  | .extractMatching pat cmp => do
    let (new, l) ← gwlistExtractMatching l pat cmp
    pure (.list new, l)
  | .produce item => do
    let l ← gwlistProduce l item
    pure (.nothing, l)
  | .consume => do
    let (item, l) ← gwlistConsume null l
    pure (.item item, l)
  | .get pos => do
    let item ← gwlistGet l pos
    pure (.item item, l)
  | .search pattern cmp => do
    let item ← gwlistSearch null l pattern cmp
    pure (.item item, l)
  | .searchAll pattern cmp => do
    let new ← gwlistSearchAll l pattern cmp
    pure (.list new, l)
  | .searchEqual item => do
    let i ← gwlistSearchEqual l item
    pure (.number i, l)

def someIfItems (xs : List ι) : Option (List ι) := if xs = [] then none else some xs

/-- **A call on a plain sequence.**  It fails where the list asserts its bounds. -/
def plainStep [DecidableEq ι] (null : ι) (xs : List ι) :
    ListOp ι → Except Failure (Returned (List ι) ι × List ι)
  | .append item => .ok (.nothing, xs ++ [item])
  | .appendUnique item cmp =>
    .ok (.nothing, if xs.any fun it => cmp it item then xs else xs ++ [item])
  | .insert pos item =>
    if 0 ≤ pos ∧ pos ≤ xs.length then .ok (.nothing, xs.insertIdx pos.toNat item)
    else .error .assertion
  | .delete pos count =>
    if 0 ≤ pos ∧ pos < xs.length ∧ 0 ≤ count ∧ pos + count ≤ xs.length then
      .ok (.nothing, xs.take pos.toNat ++ xs.drop (pos.toNat + count.toNat))
    else .error .assertion
  | .deleteMatching pat mtch =>
    .ok (.number (xs.filter fun x => mtch x pat).length, xs.filter fun x => !mtch x pat)
  | .deleteEqual item =>
    .ok (.number (xs.filter fun x => x = item).length, xs.filter fun x => !decide (x = item))
  | .extractFirst => .ok (.item (xs.head?.getD null), xs.tail)
  | .extractMatching pat cmp =>
    .ok (.list (someIfItems (xs.filter fun x => cmp x pat)), xs.filter fun x => !cmp x pat)
  | .produce item => .ok (.nothing, xs ++ [item])
  | .consume => .ok (.item (xs.head?.getD null), xs.tail)
  | .get pos =>
    if 0 ≤ pos ∧ pos < xs.length then .ok (.item (xs[pos.toNat]?.getD null), xs)
    else .error .assertion
  | .search pattern cmp => .ok (.item ((xs.find? fun x => cmp x pattern).getD null), xs)
  | .searchAll pattern cmp => .ok (.list (someIfItems (xs.filter fun x => cmp x pattern)), xs)
  | .searchEqual item =>
    .ok (.number (match xs.findIdx? fun x => x = item with
      | some i => i
      | none => -1), xs)

inductive Alike : Returned (RingList ι) ι → Returned (List ι) ι → Prop
  | nothing : Alike .nothing .nothing
  | number (n : ℤ) : Alike (.number n) (.number n)
  | item (x : ι) : Alike (.item x) (.item x)
  | null : Alike (.list none) (.list none)
  | list {new : RingList ι} {ys : List ι} (holds : Holds 0 new ys) :
      Alike (.list (some new)) (.list (some ys))

inductive Agrees (size : ℕ) : Except Failure (Returned (RingList ι) ι × RingList ι) →
    Except Failure (Returned (List ι) ι × List ι) → Prop
  | ok {r : Returned (RingList ι) ι} {r' : Returned (List ι) ι} {l : RingList ι} {xs : List ι}
      (alike : Alike r r') (holds : Holds size l xs) : Agrees size (.ok (r, l)) (.ok (r', xs))
  | assertion : Agrees size (.error .assertion) (.error .assertion)

theorem nullIfEmpty_alike (h : Holds 0 new ys) :
    Alike (.list (nullIfEmpty new)) (.list (someIfItems ys)) := by
  have hlen := h.len
  rw [nullIfEmpty, gwlistLen, someIfItems]
  by_cases hnil : ys = []
  · rw [if_pos hnil, if_pos (by rw [hlen, hnil]; rfl)]
    exact .null
  · have hpos := length_pos_iff.mpr hnil
    rw [if_neg hnil, if_neg (by omega)]
    exact .list h

theorem taken_agrees {null : ι} {taken : Except Failure (ι × RingList ι)} (h : Holds size l xs)
    (hempty : l.len = 0 → taken = .ok (null, l))
    (hfirst : 0 < l.len → taken = do
      let item ← getItem l 0
      let l ← deleteItemsFromList l 0 1
      pure (item, l)) :
    Agrees size (do let (item, l) ← taken; pure (.item item, l))
      (.ok (.item (xs.head?.getD null), xs.tail)) := by
  have hlen := h.len
  cases xs with
  | nil =>
    rw [hempty hlen]
    exact .ok (.item null) h
  | cons x xs =>
    obtain ⟨l', hdelete, h'⟩ := @deleteItem_ok ι l size [] xs x h
    rw [length_nil, Nat.cast_zero] at hdelete
    rw [hfirst (by rw [hlen]; exact Nat.succ_pos _), h.getItem_eq rfl, hdelete]
    exact .ok (.item x) h'

section step
variable [DecidableEq ι] (null : ι)

section Agrees
variable (h : Holds size l xs)
include h
omit [DecidableEq ι] in
theorem append_agrees (item : ι) :
    Agrees size (do let l ← gwlistAppend l item; pure (.nothing, l))
      (.ok (.nothing, xs ++ [item])) := by
  obtain ⟨l', happend, h'⟩ := gwlistAppend_ok h item
  rw [happend]
  exact .ok .nothing h'

theorem appendUnique_agrees (item : ι) (cmp : ι → ι → Bool) :
    Agrees size (listStep null l (.appendUnique item cmp))
      (plainStep null xs (.appendUnique item cmp)) := by
  obtain ⟨found, hfind, hsnd, -⟩ := findItem_ok h (fun it => cmp it item) (drop_zero)
  rw [← h.len] at hfind
  rw [listStep, gwlistAppendUnique, hfind, plainStep, ← List.isSome_find?, ← hsnd]
  cases found with
  | none => exact append_agrees h item
  | some found => exact .ok .nothing h

theorem insert_agrees (pos : ℤ) (item : ι) :
    Agrees size (listStep null l (.insert pos item)) (plainStep null xs (.insert pos item)) := by
  have hlen := h.len
  rw [listStep, plainStep]
  by_cases hin : 0 ≤ pos ∧ pos ≤ xs.length
  · obtain ⟨n, rfl⟩ := Int.eq_ofNat_of_zero_le hin.1
    obtain ⟨l', hinsert, h'⟩ := gwlistInsert_ok h (by omega : n ≤ xs.length) item
    rw [hinsert, if_pos hin]
    exact .ok .nothing h'
  · rw [gwlistInsert, if_pos (by rw [hlen]; exact hin), if_neg hin]
    exact .assertion

theorem delete_agrees (pos count : ℤ) (hsum : pos + count < 2 ^ 63) :
    Agrees size (listStep null l (.delete pos count)) (plainStep null xs (.delete pos count)) := by
  have hlen := h.len
  rw [listStep, plainStep, gwlistDelete]
  by_cases hin : 0 ≤ pos ∧ pos < xs.length ∧ 0 ≤ count ∧ pos + count ≤ xs.length
  · obtain ⟨n, rfl⟩ := Int.eq_ofNat_of_zero_le hin.1
    obtain ⟨c, rfl⟩ := Int.eq_ofNat_of_zero_le hin.2.2.1
    obtain ⟨l', hdelete, h'⟩ := deleteItems_ok h (by omega : n < xs.length)
      (by omega : n + c ≤ xs.length)
    rw [hdelete, if_pos hin]
    exact .ok .nothing h'
  · rw [deleteItemsFromList, if_neg hin, hlen]
    by_cases hbounds : 0 ≤ pos ∧ pos < xs.length ∧ 0 ≤ count
    · have hover : ¬ pos + count ≤ xs.length := fun hle =>
        hin ⟨hbounds.1, hbounds.2.1, hbounds.2.2, hle⟩
      rw [if_neg (not_not.mpr hbounds), if_pos hover, if_neg (not_le.mpr hsum)]
      exact .assertion
    · rw [if_pos hbounds]
      exact .assertion

theorem deleteMatching_agrees (pat : ι) (mtch : ι → ι → Bool) :
    Agrees size (listStep null l (.deleteMatching pat mtch))
      (plainStep null xs (.deleteMatching pat mtch)) := by
  obtain ⟨l', hloop, h'⟩ := deleteCounting_ok h fun x => mtch x pat
  rw [listStep, gwlistDeleteMatching, hloop]
  exact .ok (.number _) h'

theorem deleteEqual_agrees (item : ι) :
    Agrees size (listStep null l (.deleteEqual item)) (plainStep null xs (.deleteEqual item)) := by
  obtain ⟨l', hloop, h'⟩ := deleteCounting_ok h fun x => x = item
  rw [listStep, gwlistDeleteEqual, hloop]
  exact .ok (.number _) h'

theorem extractFirst_agrees :
    Agrees size (listStep null l .extractFirst) (plainStep null xs .extractFirst) :=
  taken_agrees h (fun hzero => if_pos hzero) fun hpos => if_neg (by omega)

theorem consume_agrees : Agrees size (listStep null l .consume) (plainStep null xs .consume) :=
  taken_agrees h (fun hzero => if_neg (by omega)) fun hpos => if_pos hpos

theorem extractMatching_agrees (pat : ι) (cmp : ι → ι → Bool) :
    Agrees size (listStep null l (.extractMatching pat cmp))
      (plainStep null xs (.extractMatching pat cmp)) := by
  have hlen := h.len
  obtain ⟨new, l', hloop, hnew, h'⟩ := @deleteLoop_ok ι l size (RingList ι) (fun x => cmp x pat) _
    (Holds 0) (fun _ _ x hnew => gwlistAppend_ok hnew x) xs [] [] (l.len + 1) gwlistCreate h
    gwlistCreate_holds (by omega)
  rw [length_nil] at hloop
  rw [listStep, gwlistExtractMatching, hloop]
  exact .ok (nullIfEmpty_alike hnew) h'

theorem get_agrees (pos : ℤ) :
    Agrees size (listStep null l (.get pos)) (plainStep null xs (.get pos)) := by
  have hlen := h.len
  rw [listStep, plainStep, gwlistGet]
  by_cases hin : 0 ≤ pos ∧ pos < xs.length
  · have hx : xs[pos.toNat]? = some xs[pos.toNat] := List.getElem?_eq_getElem (by omega)
    rw [if_neg (by rw [hlen]; exact not_not.mpr hin), if_pos hin, h.getItem_eq hx, hx]
    exact .ok (.item _) h
  · rw [if_pos (by rw [hlen]; exact hin), if_neg hin]
    exact .assertion

theorem search_agrees (pattern : ι) (cmp : ι → ι → Bool) :
    Agrees size (listStep null l (.search pattern cmp))
      (plainStep null xs (.search pattern cmp)) := by
  obtain ⟨found, hfind, hsnd, -⟩ := findItem_ok h (fun x => cmp x pattern) (drop_zero)
  rw [← h.len] at hfind
  rw [listStep, gwlistSearch, hfind, plainStep, ← hsnd]
  cases found with
  | none => exact .ok (.item null) h
  | some found => exact .ok (.item found.2) h

theorem searchAll_agrees (pattern : ι) (cmp : ι → ι → Bool) :
    Agrees size (listStep null l (.searchAll pattern cmp))
      (plainStep null xs (.searchAll pattern cmp)) := by
  obtain ⟨new, hloop, hnew⟩ := collect_ok h (fun x => cmp x pattern) (drop_zero) gwlistCreate_holds
  rw [← h.len] at hloop
  rw [listStep, gwlistSearchAll, hloop, ok_bind]
  exact .ok (nullIfEmpty_alike hnew) h

theorem searchEqual_agrees (item : ι) :
    Agrees size (listStep null l (.searchEqual item)) (plainStep null xs (.searchEqual item)) := by
  obtain ⟨found, hfind, -, hfst⟩ := findItem_ok h (fun x => x = item) (drop_zero)
  have hidx : (xs.findIdx? fun x => x = item) = found.map Prod.fst := by
    rw [hfst]
    cases xs.findIdx? fun x => x = item with
    | none => rfl
    | some i => rw [Option.map_some, Nat.zero_add]
  rw [← h.len] at hfind
  rw [listStep, gwlistSearchEqual, hfind, plainStep, hidx]
  cases found with
  | none => exact .ok (.number (-1)) h
  | some found => exact .ok (.number found.1) h

theorem listStep_agrees (op : ListOp ι) (hfits : op.SumFits) :
    Agrees size (listStep null l op) (plainStep null xs op) := by
  cases op with
  | append item => exact append_agrees h item
  | appendUnique item cmp => exact appendUnique_agrees null h item cmp
  | insert pos item => exact insert_agrees null h pos item
  | delete pos count => exact delete_agrees null h pos count hfits
  | deleteMatching pat mtch => exact deleteMatching_agrees null h pat mtch
  | deleteEqual item => exact deleteEqual_agrees null h item
  | extractFirst => exact extractFirst_agrees null h
  | extractMatching pat cmp => exact extractMatching_agrees null h pat cmp
  | produce item => exact append_agrees h item
  | consume => exact consume_agrees null h
  | get pos => exact get_agrees null h pos
  | search pattern cmp => exact search_agrees null h pattern cmp
  | searchAll pattern cmp => exact searchAll_agrees null h pattern cmp
  | searchEqual item => exact searchEqual_agrees null h item

end Agrees

def runCalls {L : Type} (step : L → ListOp ι → Except Failure (Returned L ι × L)) :
    L → List (ListOp ι) → Except Failure (List (Returned L ι) × L)
  | l, [] => pure ([], l)
  | l, op :: ops => do
    let (r, l) ← step l op
    let (rs, l) ← runCalls step l ops
    pure (r :: rs, l)

theorem plainStep_adds {op : ListOp ι} {r : Returned (List ι) ι} {xs' : List ι}
    (hadds : op.adds = true) (h : plainStep null xs op = .ok (r, xs')) : xs' ≠ [] := by
  cases op with
  | append item | produce item =>
    cases h
    simp
  | appendUnique item cmp =>
    cases h
    by_cases hany : xs.any fun it => cmp it item
    · obtain ⟨it, hit, -⟩ := List.any_eq_true.mp hany
      rw [if_pos hany]
      exact ne_nil_of_mem hit
    · rw [if_neg hany]
      simp
  | insert pos item =>
    rw [plainStep] at h
    split_ifs at h with hin
    cases h
    intro hnil
    have hlength := congrArg length hnil
    rw [length_insertIdx_of_le_length (by omega)] at hlength
    cases hlength
  | _ => cases hadds

theorem runCalls_agrees (ops : List (ListOp ι)) (hfits : ∀ op ∈ ops, op.SumFits)
    (h : Holds l.tab.length l xs) :
    (∃ rs l' rs' xs', runCalls (listStep null) l ops = .ok (rs, l') ∧
      runCalls (plainStep null) xs ops = .ok (rs', xs') ∧ Forall₂ Alike rs rs' ∧
      Holds l.tab.length l' xs' ∧ ((∃ op ∈ ops, op.adds = true) → 0 < l'.tab.length)) ∨
    runCalls (listStep null) l ops = .error .assertion ∧
      runCalls (plainStep null) xs ops = .error .assertion := by
  induction ops generalizing l xs with
  | nil => exact Or.inl ⟨[], l, [], xs, rfl, rfl, .nil, h, by simp⟩
  | cons op ops ih =>
    have hstep := listStep_agrees null h op (hfits op mem_cons_self)
    have hrest : ∀ op ∈ ops, op.SumFits := fun op' hop => hfits op' (mem_cons_of_mem op hop)
    rw [runCalls, runCalls]
    generalize hplain : plainStep null xs op = plain at hstep
    generalize listStep null l op = ring at hstep
    cases hstep with
    | assertion => exact Or.inr ⟨rfl, rfl⟩
    | ok alike holds =>
      rcases ih hrest { holds with size_le := le_rfl } with
        ⟨rs, l', rs', xs', hrun, hrun', hrs, h', hlater⟩ | ⟨hrun, hrun'⟩
      · refine Or.inl ⟨_ :: rs, l', _ :: rs', xs', ?_, ?_, .cons alike hrs,
          { h' with size_le := holds.size_le.trans h'.size_le }, ?_⟩
        · simp only [hrun, ok_bind, pure_eq_ok]
        · simp only [hrun', ok_bind, pure_eq_ok]
        · rintro ⟨op', hop, hadds⟩
          rcases mem_cons.mp hop with rfl | hop
          · -- an item that this call has added has made room in the array for good
            have hne := length_pos_iff.mpr (plainStep_adds null hadds hplain)
            exact hne.trans_le (holds.fits.trans h'.size_le)
          · exact hlater ⟨op', hop, hadds⟩
      · refine Or.inr ⟨?_, ?_⟩
        · rw [ok_bind]
          simp only [hrun]
          rfl
        · rw [ok_bind]
          simp only [hrun']
          rfl

end step

/-- **The list is a sequence.**  The ring returns what the plain sequence returns and then has
its items, each at its position; calls fail only where the bounds they assert do not hold.  The
start is below the size of the array, unless no call has added an item. -/
theorem gwlist_sequence [DecidableEq ι] (null : ι) (ops : List (ListOp ι))
    (hfits : ∀ op ∈ ops, op.SumFits) :
    (∃ rs l rs' xs, runCalls (listStep null) gwlistCreate ops = .ok (rs, l) ∧
      runCalls (plainStep null) [] ops = .ok (rs', xs) ∧ Forall₂ Alike rs rs' ∧
      gwlistLen l = xs.length ∧ (∀ i, i < xs.length → slot l i = xs[i]?) ∧
      (l.start < l.tab.length ∨
        l.start = 0 ∧ l.tab.length = 0 ∧ ∀ op ∈ ops, op.adds = false)) ∨
    runCalls (listStep null) gwlistCreate ops = .error .assertion ∧
      runCalls (plainStep null) [] ops = .error .assertion := by
  have hcreate : Holds (@gwlistCreate ι).tab.length (@gwlistCreate ι) [] := gwlistCreate_holds
  rcases runCalls_agrees null ops hfits hcreate with
    ⟨rs, l, rs', xs, hring, hplain, hrs, h, hused⟩ | hfail
  · refine Or.inl ⟨rs, l, rs', xs, hring, hplain, hrs, ?_, h.item, ?_⟩
    · rw [gwlistLen, h.len]
    · refine h.start.imp_right fun hzero => ⟨hzero.1, hzero.2, fun op hop => ?_⟩
      by_contra hadds
      have hpos := hused ⟨op, hop, Bool.eq_true_of_not_eq_false hadds⟩
      omega
  · exact Or.inr hfail

/-- Seven calls, after which the items wrap around and the array has grown in that state. -/
theorem wrappedList_sequence :
    ∃ rs l, runCalls (listStep 0) gwlistCreate
        [.append 1, .append 2, .consume, .append 3, .append 4, .insert 1 5, .delete 1 2] =
        .ok (rs, l) ∧
      gwlistLen l = 2 ∧ (∀ i, i < 2 → slot l i = [2, 4][i]?) ∧ l.start < l.tab.length := by
  have hfits : ∀ op ∈ [ListOp.append 1, .append 2, .consume, .append 3, .append 4, .insert 1 5,
      .delete 1 2], op.SumFits := by
    simp [ListOp.SumFits]
  rcases gwlist_sequence 0 _ hfits with
    ⟨rs, l, rs', xs, hring, hplain, -, hlen, hitems, hstart⟩ | ⟨-, hfail⟩
  · obtain ⟨-, rfl⟩ := Prod.mk.inj (Except.ok.inj hplain)
    refine ⟨rs, l, hring, hlen, hitems, hstart.resolve_right ?_⟩
    rintro ⟨-, -, hnone⟩
    exact absurd (hnone (.append 1) mem_cons_self) (by decide)
  · cases hfail

/-- A list that nothing was ever added to has no array, so the start is not below its size. -/
theorem unusedList_start :
    ∃ rs l, runCalls (listStep (0 : ℕ)) gwlistCreate [.extractFirst, .search 0 fun _ _ => true] =
      .ok (rs, l) ∧ ¬ l.start < l.tab.length :=
  ⟨_, _, rfl, by decide⟩

end GwList
end Kannel
