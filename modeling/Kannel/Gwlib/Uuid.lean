import Kannel.Lib.Hex
import Kannel.Gwlib.Octstr

/-!
# Message identifiers

A `uuid_t` is sixteen octets, written by `uuid_unparse` and read by the strict
`uuid_parse`. A generated identifier is never the null one.
-/

namespace Kannel
open List

@[ext] structure Uuid where
  octets : Octstr
  length_octets : octets.length = 16
  deriving DecidableEq

@[ext] structure UuidFields where
  timeLow : UInt32
  timeMid : UInt16
  timeHiAndVersion : UInt16
  clockSeq : UInt16
  node : Octstr
  length_node : node.length = 6

attribute [simp] Uuid.length_octets UuidFields.length_node

def uuidStrLen : Nat := 36

def uuidClear : Uuid := ⟨replicate 16 0, by simp⟩

def uuidIsNull (uu : Uuid) : Bool := uu.octets.all (· == 0)

def uuidUnpack (uu : Uuid) : UuidFields where
  timeLow := UInt32.ofNat (BigEndian.value (uu.octets.take 4))
  timeMid := UInt16.ofNat (BigEndian.value ((uu.octets.drop 4).take 2))
  timeHiAndVersion := UInt16.ofNat (BigEndian.value ((uu.octets.drop 6).take 2))
  clockSeq := UInt16.ofNat (BigEndian.value ((uu.octets.drop 8).take 2))
  node := uu.octets.drop 10
  length_node := by simp

def uuidPack (uu : UuidFields) : Uuid where
  octets := BigEndian.octets 4 uu.timeLow.toNat ++ BigEndian.octets 2 uu.timeMid.toNat ++
    BigEndian.octets 2 uu.timeHiAndVersion.toNat ++ BigEndian.octets 2 uu.clockSeq.toNat ++ uu.node
  length_octets := by simp

def dash : UInt8 := 45

def uuidUnparse (uu : Uuid) : Octstr :=
  let uuid := uuidUnpack uu
  Hex.digits 8 uuid.timeLow.toNat ++ dash :: (Hex.digits 4 uuid.timeMid.toNat ++ dash ::
    (Hex.digits 4 uuid.timeHiAndVersion.toNat ++ dash ::
      (Hex.digits 2 (uuid.clockSeq.toNat / 256) ++ Hex.digits 2 (uuid.clockSeq.toNat % 256) ++
        dash :: uuid.node.flatMap (fun b => Hex.digits 2 b.toNat))))

def strtoulHex (s : Octstr) : Nat := Hex.value (s.takeWhile Hex.isDigit)

def uuidChars : Nat → Octstr → Bool
  | _, [] => true
  | i, c :: cs =>
    (if i = 8 ∨ i = 13 ∨ i = 18 ∨ i = 23 then c == dash else Hex.isDigit c) && uuidChars (i + 1) cs

def uuidNode (s : Octstr) : Octstr :=
  (range 6).map fun i => UInt8.ofNat (strtoulHex ((s.drop (24 + 2 * i)).take 2))

def uuidParseFields (s : Octstr) : UuidFields where
  timeLow := UInt32.ofNat (strtoulHex s)
  timeMid := UInt16.ofNat (strtoulHex (s.drop 9))
  timeHiAndVersion := UInt16.ofNat (strtoulHex (s.drop 14))
  clockSeq := UInt16.ofNat (strtoulHex (s.drop 19))
  node := uuidNode s
  length_node := by simp [uuidNode]

def uuidParse (s : Octstr) : Option Uuid :=
  if s.length ≠ uuidStrLen then none
  else if uuidChars 0 s then some (uuidPack (uuidParseFields s))
  else none

variable (u : Uuid)

theorem uuidPack_uuidUnpack : uuidPack (uuidUnpack u) = u := by
  have slice : ∀ (bs : Octstr) (k : Nat), k ≤ bs.length →
      BigEndian.octets k (BigEndian.value (bs.take k)) = bs.take k := by
    intro bs k hk
    have h := BigEndian.octets_value (bs.take k)
    rwa [length_take_of_le hk] at h
  have hval : ∀ (bs : Octstr) (k : Nat), BigEndian.value (bs.take k) < 256 ^ k := by
    intro bs k
    exact lt_of_lt_of_le (BigEndian.value_lt _)
      (Nat.pow_le_pow_right (by decide) (length_take_le k bs))
  ext1
  simp only [uuidPack, uuidUnpack, UInt32.toNat_ofNat', UInt16.toNat_ofNat']
  rw [Nat.mod_eq_of_lt (show _ < 2 ^ 32 from hval _ 4),
    Nat.mod_eq_of_lt (show _ < 2 ^ 16 from hval _ 2),
    Nat.mod_eq_of_lt (show _ < 2 ^ 16 from hval _ 2),
    Nat.mod_eq_of_lt (show _ < 2 ^ 16 from hval _ 2), slice _ 4 (by simp), slice _ 2 (by simp),
    slice _ 2 (by simp), slice _ 2 (by simp)]
  simp only [append_assoc]
  have hstep : ∀ (a b : Nat), (u.octets.drop a).take b ++ u.octets.drop (a + b) =
      u.octets.drop a := by
    intro a b
    rw [← drop_drop, take_append_drop]
  rw [hstep 8 2, hstep 6 2, hstep 4 2, take_append_drop]

theorem length_uuidUnparse : (uuidUnparse u).length = uuidStrLen := by
  simp [uuidUnparse, uuidStrLen, length_flatMap]

private theorem uuidChars_append {i : Nat} {cs rest : Octstr} (hcs : ∀ c ∈ cs, Hex.isDigit c = true)
    (hpos : ∀ j, j < cs.length → ¬ (i + j = 8 ∨ i + j = 13 ∨ i + j = 18 ∨ i + j = 23)) :
    uuidChars i (cs ++ rest) = uuidChars (i + cs.length) rest := by
  induction cs generalizing i with
  | nil => simp
  | cons c cs ih =>
    have hi := hpos 0 (by simp)
    have htail := ih (i := i + 1) (fun d hd => hcs d (mem_cons_of_mem _ hd)) (by
      intro j hj
      have := hpos (j + 1) (by simpa using hj)
      omega)
    simp only [Nat.add_zero] at hi
    simp only [cons_append, uuidChars, hi, if_false, hcs c mem_cons_self,
      Bool.true_and, htail, length_cons]
    congr 1
    omega

private theorem node_pair {node : Octstr} {i : Nat} (hi : i < node.length) :
    ((node.flatMap (fun b => Hex.digits 2 b.toNat)).drop (2 * i)).take 2 =
      Hex.digits 2 node[i].toNat := by
  induction node generalizing i with
  | nil => simp at hi
  | cons b node ih =>
    rw [flatMap_cons]
    cases i with
    | zero => exact take_left' (Hex.length_digits _ _)
    | succ i =>
      have hdrop : 2 * (i + 1) = (Hex.digits 2 b.toNat).length + 2 * i := by
        rw [Hex.length_digits]
        omega
      rw [hdrop, drop_length_add_append, ih (by simpa using hi), getElem_cons_succ]

private theorem strtoulHex_octet (b : UInt8) :
    UInt8.ofNat (strtoulHex (Hex.digits 2 b.toNat)) = b := by
  have hend : ∀ c ∈ ([] : Octstr).head?, Hex.isDigit c = false := by simp
  have htake := Hex.takeWhile_digits_append 2 b.toNat hend
  rw [append_nil] at htake
  rw [strtoulHex, htake, Hex.value_digits_of_lt (UInt8.toNat_lt b), UInt8.ofNat_toNat]

private theorem strtoulHex_digits_dash {k n : Nat} (h : n < 16 ^ k) (rest : Octstr) :
    strtoulHex (Hex.digits k n ++ dash :: rest) = n := by
  rw [strtoulHex, Hex.takeWhile_digits_append k n (by simp; rfl), Hex.value_digits_of_lt h]

private theorem digits_two_two (n : Nat) :
    Hex.digits 2 (n / 256) ++ Hex.digits 2 (n % 256) = Hex.digits 4 n := by
  have h3 : n / 256 / 16 ^ 1 % 16 = n / 16 ^ 3 % 16 := by omega
  have h2 : n / 256 / 16 ^ 0 % 16 = n / 16 ^ 2 % 16 := by omega
  have h1 : n % 256 / 16 ^ 1 % 16 = n / 16 ^ 1 % 16 := by omega
  have h0 : n % 256 / 16 ^ 0 % 16 = n / 16 ^ 0 % 16 := by omega
  simp only [Hex.digits, cons_append, nil_append, h3, h2, h1, h0]

theorem uuidUnparse_groups :
    uuidUnparse u = Hex.digits 8 (uuidUnpack u).timeLow.toNat ++ dash ::
      (Hex.digits 4 (uuidUnpack u).timeMid.toNat ++ dash ::
        (Hex.digits 4 (uuidUnpack u).timeHiAndVersion.toNat ++ dash ::
          (Hex.digits 4 (uuidUnpack u).clockSeq.toNat ++ dash ::
            (uuidUnpack u).node.flatMap (fun b => Hex.digits 2 b.toNat)))) := by
  simp only [uuidUnparse, ← digits_two_two (uuidUnpack u).clockSeq.toNat]

private theorem uuidParseFields_uuidUnparse : uuidParseFields (uuidUnparse u) = uuidUnpack u := by
  have htext := uuidUnparse_groups u
  have hskip : ∀ (k n d : Nat) (rest : Octstr),
      (Hex.digits k n ++ dash :: rest).drop (k + 1 + d) = rest.drop d := by
    intro k n d rest
    have hk : k + 1 + d = (Hex.digits k n).length + (d + 1) := by
      rw [Hex.length_digits]
      omega
    rw [hk, drop_length_add_append, drop_succ_cons]
  have hfield : ∀ (field : UInt16) (rest : Octstr), UInt16.ofNat
      (strtoulHex ((Hex.digits 4 field.toNat ++ dash :: rest).drop 0)) = field := by
    intro field rest
    rw [drop_zero, strtoulHex_digits_dash (UInt16.toNat_lt _), UInt16.ofNat_toNat]
  have hnode : uuidNode (uuidUnparse u) = (uuidUnpack u).node := by
    apply ext_getElem (by simp [uuidNode])
    intro i h1 h2
    simp only [uuidNode, getElem_map, getElem_range, htext]
    rw [show 24 + 2 * i = 8 + 1 + (4 + 1 + (4 + 1 + (4 + 1 + 2 * i))) by omega,
      hskip, hskip, hskip, hskip, node_pair h2, strtoulHex_octet]
  ext1
  · change UInt32.ofNat (strtoulHex (uuidUnparse u)) = _
    rw [htext, strtoulHex_digits_dash (UInt32.toNat_lt _), UInt32.ofNat_toNat]
  · change UInt16.ofNat (strtoulHex ((uuidUnparse u).drop (8 + 1 + 0))) = _
    rw [htext, hskip, hfield]
  · change UInt16.ofNat (strtoulHex ((uuidUnparse u).drop (8 + 1 + (4 + 1 + 0)))) = _
    rw [htext, hskip, hskip, hfield]
  · change UInt16.ofNat (strtoulHex ((uuidUnparse u).drop (8 + 1 + (4 + 1 + (4 + 1 + 0))))) = _
    rw [htext, hskip, hskip, hskip, hfield]
  · exact hnode

theorem uuidChars_uuidUnparse : uuidChars 0 (uuidUnparse u) = true := by
  have hgroup : ∀ i k n rest, i + k = 8 ∨ i + k = 13 ∨ i + k = 18 ∨ i + k = 23 → k ≤ 4 ∨ i + k = 8 →
      uuidChars i (Hex.digits k n ++ dash :: rest) = uuidChars (i + k + 1) rest := by
    intro i k n rest hi hk
    have hfree := @uuidChars_append i _ (dash :: rest) (Hex.digits_isDigit k n)
    rw [Hex.length_digits] at hfree
    rw [hfree (by omega)]
    simp [uuidChars, hi]
  have hnode : ∀ c ∈ (uuidUnpack u).node.flatMap (fun b => Hex.digits 2 b.toNat),
      Hex.isDigit c = true := by
    intro c hc
    obtain ⟨b, _, hb⟩ := mem_flatMap.mp hc
    exact Hex.digits_isDigit 2 b.toNat c hb
  have hlen : ((uuidUnpack u).node.flatMap (fun b => Hex.digits 2 b.toNat)).length = 12 := by
    simp [length_flatMap]
  rw [uuidUnparse_groups, hgroup, hgroup, hgroup, hgroup, ← append_nil (List.flatMap _ _),
    uuidChars_append hnode (by rw [hlen]; omega)]
  · rfl
  all_goals omega

theorem uuidParse_uuidUnparse : uuidParse (uuidUnparse u) = some u := by
  rw [uuidParse, if_neg (not_not.mpr (length_uuidUnparse u)), if_pos (uuidChars_uuidUnparse u),
    uuidParseFields_uuidUnparse, uuidPack_uuidUnpack]

theorem uuidUnparse_injective : Function.Injective uuidUnparse := by
  intro u v h
  have hu := uuidParse_uuidUnparse u
  rw [h, uuidParse_uuidUnparse] at hu
  exact (Option.some.inj hu).symm

theorem mem_uuidUnparse {u : Uuid} {c : UInt8} (h : c ∈ uuidUnparse u) :
    Hex.isDigit c = true ∨ c = dash := by
  have hdigit : ∀ (k n : Nat), c ∈ Hex.digits k n → Hex.isDigit c = true :=
    fun k n hc => Hex.digits_isDigit k n c hc
  simp only [uuidUnparse, mem_append, mem_cons, mem_flatMap] at h
  rcases h with hc | hc | hc | hc | hc | hc | (hc | hc) | hc | ⟨b, _, hc⟩
  all_goals first | exact .inl (hdigit _ _ hc) | exact .inr hc

theorem uuidUnparse_ne_zero : ∀ c ∈ uuidUnparse u, c ≠ 0 := by
  rintro c hc rfl
  rcases mem_uuidUnparse hc with hdigit | hdash
  · exact absurd hdigit (by decide)
  · exact absurd hdash (by decide)

theorem uuidParse_short {s : Octstr} (h : s.length < uuidStrLen) : uuidParse s = none := by
  rw [uuidParse, if_pos (Nat.ne_of_lt h)]

inductive Entropy
  | random (buf : Uuid)
  | time (clockMid clockLow : UInt32) (clockSeq : UInt16) (nodeId : Octstr)
      (length_nodeId : nodeId.length = 6)

def uuidGenerateRandom (buf : Uuid) : Uuid :=
  let uu := uuidUnpack buf
  uuidPack { uu with
    clockSeq := (uu.clockSeq &&& 0x3FFF) ||| 0x8000
    timeHiAndVersion := (uu.timeHiAndVersion &&& 0x0FFF) ||| 0x4000 }

def uuidGenerateTime (clockMid clockLow : UInt32) (clockSeq : UInt16) (nodeId : Octstr)
    (length_nodeId : nodeId.length = 6) : Uuid :=
  uuidPack {
    timeLow := clockLow
    clockSeq := clockSeq ||| 0x8000
    timeMid := clockMid.toUInt16
    timeHiAndVersion := (clockMid >>> 16).toUInt16 ||| 0x1000
    node := nodeId
    length_node := length_nodeId }

def uuidGenerate : Entropy → Uuid
  | .random buf => uuidGenerateRandom buf
  | .time clockMid clockLow clockSeq nodeId h =>
    uuidGenerateTime clockMid clockLow clockSeq nodeId h

private theorem uuidPack_not_null {f : UuidFields} {x : UInt16}
    (h : f.clockSeq = x ||| 0x8000) : uuidIsNull (uuidPack f) = false := by
  rw [Bool.eq_false_iff]
  intro hnull
  have hzero : ∀ c ∈ BigEndian.octets 2 f.clockSeq.toNat, c = 0 := by
    intro c hc
    have hall := List.all_eq_true.mp hnull c (by simp [uuidPack, hc])
    simpa using hall
  have hrep := eq_replicate_of_mem hzero
  have hval := BigEndian.value_octets_of_lt (k := 2) (UInt16.toNat_lt f.clockSeq)
  rw [hrep] at hval
  have htop : 0x8000 ≤ f.clockSeq.toNat := by
    rw [h]
    exact Nat.right_le_or
  have h0 : f.clockSeq.toNat = 0 := hval.symm
  omega

theorem uuidIsNull_uuidGenerate (e : Entropy) : uuidIsNull (uuidGenerate e) = false := by
  cases e with
  | random buf => exact uuidPack_not_null rfl
  | time clockMid clockLow clockSeq nodeId h => exact uuidPack_not_null rfl

end Kannel
