import Kannel.Gwlib.Octstr
import Kannel.Lib.RingBuffer

/-!
# Lists

A list is a ring in an array: item `i` stands in the slot `(start + i) % tab_size`.  `make_bigger`
moves the items that would no longer follow each other in a longer array, and
`delete_items_from_list` closes the gap that a deletion leaves, in four different ways according to
where the gap is and whether the items wrap around.

A slot that was never written is `none`, and reading it, or writing behind the end of the array, is
the failure `outside`.  The numbers of slots are natural numbers; only the bounds that a caller
passes are integers, since the assertions are about them.
-/

namespace Kannel

namespace GwList

variable {ι : Type}

/-- The fields of a `List` that its functions work on. -/
structure RingList (ι : Type) where
  tab : List (Option ι)
  start : ℕ
  len : ℕ
  deriving DecidableEq, Repr

def index (l : RingList ι) (i : ℕ) : ℕ := (l.start + i) % l.tab.length

def getItem (l : RingList ι) (i : ℕ) : Except Failure ι :=
  match l.tab[index l i]? with
  | some (some x) => .ok x
  | _ => .error .outside

def setItem (l : RingList ι) (i : ℕ) (x : ι) : Except Failure (RingList ι) :=
  if index l i < l.tab.length then .ok { l with tab := l.tab.set (index l i) (some x) }
  else .error .outside

def memmove (tab : List (Option ι)) (dst src n : ℕ) : Except Failure (List (Option ι)) :=
  if dst + n ≤ tab.length ∧ src + n ≤ tab.length then .ok (RingBuffer.moved tab dst src n)
  else .error .outside

def gwlistCreate : RingList ι := ⟨[], 0, 0⟩

def gwlistLen (l : RingList ι) : ℤ := l.len

/-- The items that have wrapped around are moved behind the others, and those that do not fit there
are moved to the front of the array. -/
def makeBigger (l : RingList ι) (items : ℕ) : Except Failure (RingList ι) :=
  if l.len + items ≤ l.tab.length then pure l
  else do
    let oldSize := l.tab.length
    let newSize := oldSize + items
    let tab := l.tab ++ List.replicate items none
    if ¬ (l.start < oldSize ∨ l.start = 0 ∧ oldSize = 0) then .error .assertion
    else if l.start + l.len > oldSize then do
      let lenAtEnd := oldSize - l.start
      let lenAtBeginning := l.len - lenAtEnd
      if lenAtBeginning ≤ newSize - oldSize then do
        let tab ← memmove tab oldSize 0 lenAtBeginning
        pure { l with tab := tab }
      else do
        let tab ← memmove tab oldSize 0 (newSize - oldSize)
        let tab ← memmove tab 0 (newSize - oldSize) (lenAtBeginning - (newSize - oldSize))
        pure { l with tab := tab }
    else pure { l with tab := tab }

def closeGap (pos count : ℕ) : ℕ → RingList ι → ℕ → Except Failure (RingList ι)
  | 0, l, _ => pure l
  | n + 1, l, i => do
    let x ← getItem l (pos + i + count)
    let l ← setItem l (pos + i) x
    closeGap pos count n l (i + 1)

def deleteItemsFromList (l : RingList ι) (pos count : ℤ) : Except Failure (RingList ι) :=
  if ¬ (0 ≤ pos ∧ pos < l.len ∧ 0 ≤ count) then .error .assertion
  else if ¬ pos + count ≤ l.len then
    -- the sum in the assertion is one of two `long`s
    .error (if 2 ^ 63 ≤ pos + count then .overflow else .assertion)
  else
    let pos := pos.toNat
    let count := count.toNat
    if pos = 0 then
      pure { l with start := (l.start + count) % l.tab.length, len := l.len - count }
    else if pos + count = l.len then pure { l with len := l.len - count }
    else if l.start + l.len < l.tab.length then do
      let tab ← memmove l.tab (l.start + pos) (l.start + pos + count) (l.len - pos - count)
      pure { l with tab := tab, len := l.len - count }
    else do
      let l ← closeGap pos count (l.len - count - pos) l 0
      pure { l with len := l.len - count }

def gwlistAppend (l : RingList ι) (item : ι) : Except Failure (RingList ι) := do
  let l ← makeBigger l 1
  let l ← setItem l l.len item
  pure { l with len := l.len + 1 }

def findItem (l : RingList ι) (p : ι → Bool) : ℕ → ℕ → Except Failure (Option (ℕ × ι))
  | 0, _ => pure none
  | n + 1, i => do
    let x ← getItem l i
    if p x then pure (some (i, x)) else findItem l p n (i + 1)

def gwlistAppendUnique (l : RingList ι) (item : ι) (cmp : ι → ι → Bool) :
    Except Failure (RingList ι) := do
  let found ← findItem l (fun it => cmp it item) l.len 0
  match found with
  | none => gwlistAppend l item
  | some _ => pure l

def shiftUp (pos : ℕ) : ℕ → RingList ι → Except Failure (RingList ι)
  | 0, l => pure l
  | i + 1, l =>
    if i + 1 > pos then do
      let x ← getItem l i
      let l ← setItem l (i + 1) x
      shiftUp pos i l
    else pure l

def gwlistInsert (l : RingList ι) (pos : ℤ) (item : ι) : Except Failure (RingList ι) :=
  if ¬ (0 ≤ pos ∧ pos ≤ l.len) then .error .assertion
  else do
    let l ← makeBigger l 1
    let l ← shiftUp pos.toNat l.len l
    let l ← setItem l pos.toNat item
    pure { l with len := l.len + 1 }

def gwlistDelete (l : RingList ι) (pos count : ℤ) : Except Failure (RingList ι) :=
  deleteItemsFromList l pos count

def deleteLoop {σ : Type} (p : ι → Bool) (take : σ → ι → Except Failure σ) :
    ℕ → RingList ι → ℕ → σ → Except Failure (σ × RingList ι)
  | 0, _, _, _ => .error .outside
  | rounds + 1, l, i, acc =>
    if i < l.len then do
      let x ← getItem l i
      if p x then do
        let acc ← take acc x
        let l ← deleteItemsFromList l i 1
        deleteLoop p take rounds l i acc
      else deleteLoop p take rounds l (i + 1) acc
    else pure (acc, l)

def gwlistDeleteMatching (l : RingList ι) (pat : ι) (mtch : ι → ι → Bool) :
    Except Failure (ℤ × RingList ι) :=
  deleteLoop (fun x => mtch x pat) (fun count _ => pure (count + 1)) (l.len + 1) l 0 0

def gwlistDeleteEqual [DecidableEq ι] (l : RingList ι) (item : ι) :
    Except Failure (ℤ × RingList ι) :=
  deleteLoop (fun x => x = item) (fun count _ => pure (count + 1)) (l.len + 1) l 0 0

def gwlistGet (l : RingList ι) (pos : ℤ) : Except Failure ι :=
  if ¬ (0 ≤ pos ∧ pos < l.len) then .error .assertion else getItem l pos.toNat

def gwlistExtractFirst (null : ι) (l : RingList ι) : Except Failure (ι × RingList ι) :=
  if l.len = 0 then pure (null, l)
  else do
    let item ← getItem l 0
    let l ← deleteItemsFromList l 0 1
    pure (item, l)

def nullIfEmpty (l : RingList ι) : Option (RingList ι) := if gwlistLen l = 0 then none else some l

def gwlistExtractMatching (l : RingList ι) (pat : ι) (cmp : ι → ι → Bool) :
    Except Failure (Option (RingList ι) × RingList ι) := do
  let (newList, l) ← deleteLoop (fun x => cmp x pat) gwlistAppend (l.len + 1) l 0 gwlistCreate
  pure (nullIfEmpty newList, l)

def gwlistProduce (l : RingList ι) (item : ι) : Except Failure (RingList ι) := gwlistAppend l item

def gwlistConsume (null : ι) (l : RingList ι) : Except Failure (ι × RingList ι) :=
  if l.len > 0 then do
    let item ← getItem l 0
    let l ← deleteItemsFromList l 0 1
    pure (item, l)
  else pure (null, l)

def gwlistSearch (null : ι) (l : RingList ι) (pattern : ι) (cmp : ι → ι → Bool) :
    Except Failure ι := do
  let found ← findItem l (fun item => cmp item pattern) l.len 0
  match found with
  | none => pure null
  | some (_, item) => pure item

def collect (l : RingList ι) (p : ι → Bool) : ℕ → ℕ → RingList ι → Except Failure (RingList ι)
  | 0, _, newList => pure newList
  | n + 1, i, newList => do
    let x ← getItem l i
    if p x then do
      let newList ← gwlistAppend newList x
      collect l p n (i + 1) newList
    else collect l p n (i + 1) newList

def gwlistSearchAll (l : RingList ι) (pattern : ι) (cmp : ι → ι → Bool) :
    Except Failure (Option (RingList ι)) := do
  let newList ← collect l (fun item => cmp item pattern) l.len 0 gwlistCreate
  pure (nullIfEmpty newList)

def gwlistSearchEqual [DecidableEq ι] (l : RingList ι) (item : ι) : Except Failure ℤ := do
  let found ← findItem l (fun x => x = item) l.len 0
  match found with
  | none => pure (-1)
  | some (i, _) => pure i

end GwList
end Kannel
