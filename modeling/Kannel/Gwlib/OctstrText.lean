import Mathlib.Data.List.TakeWhile
import Kannel.Gwlib.Octstr

/-!
# Octet strings as text

White space, letter case, numbers and words in octet strings, as the C library's
`ctype.h` and `strtol` see them in the C locale.
-/

namespace Kannel
open List

def ascii (text : String) : Octstr := text.toList.map fun c => UInt8.ofNat c.toNat

def isspace (c : UInt8) : Bool := (9 ≤ c && c ≤ 13) || c = 32

def isdigit (c : UInt8) : Bool := 48 ≤ c && c ≤ 57

def tolower (c : UInt8) : UInt8 := if 65 ≤ c ∧ c ≤ 90 then c + 32 else c

def equalIgnoringCase (a b : Octstr) : Bool := a.map tolower = b.map tolower

def octstrStripBlanks (text : Octstr) : Octstr :=
  ((text.dropWhile isspace).reverse.dropWhile isspace).reverse

def octstrNcompareEq (ostr1 ostr2 : Octstr) (n : Nat) : Bool :=
  let len :=
    if ostr1.length < ostr2.length ∧ ostr1.length < n then ostr1.length
    else if ostr2.length < ostr1.length ∧ ostr2.length < n then ostr2.length
    else n
  ostr1.take len = ostr2.take len

def octstrSearch (haystack needle : Octstr) (pos : Nat) : Option Nat :=
  if needle = [] then some 0
  else (range' pos (haystack.length - pos)).find? fun p =>
    needle.isPrefixOf (haystack.drop p)

def octstrSplitWords (ostr : Octstr) : List Octstr :=
  (ostr.splitOnP isspace).filter (· ≠ [])

def octstrSplit (os : Octstr) (sep : UInt8) : List Octstr :=
  let parts := os.splitOnP (· = sep)
  if parts.getLast? = some [] then parts.dropLast else parts

theorem octstrGetCstr_eq_iff {ostr : Octstr} : octstrGetCstr (some ostr) = ostr ↔ 0 ∉ ostr := by
  rw [octstrGetCstr, takeWhile_eq_self_iff]
  grind

theorem octstrSearch_isSome_iff {haystack needle : Octstr} (hne : needle ≠ []) :
    (octstrSearch haystack needle 0).isSome = true ↔ needle <:+: haystack := by
  rw [octstrSearch, if_neg hne, List.find?_isSome]
  constructor
  · rintro ⟨p, -, hmatch⟩
    exact (List.isPrefixOf_iff_prefix.mp hmatch).isInfix.trans (drop_suffix p haystack).isInfix
  · rintro ⟨before, after, rfl⟩
    refine ⟨before.length, ?_, ?_⟩
    · have hpos := length_pos_iff.mpr hne
      rw [mem_range'_1]
      simp only [length_append]
      omega
    · rw [List.isPrefixOf_iff_prefix, append_assoc, drop_left]
      exact prefix_append _ _

theorem octstrStripBlanks_within (text : Octstr) : octstrStripBlanks text <:+: text := by
  have hfront : text.dropWhile isspace <:+ text := dropWhile_suffix _
  have hback : octstrStripBlanks text <+: text.dropWhile isspace := by
    rw [octstrStripBlanks, ← reverse_suffix, reverse_reverse]
    exact dropWhile_suffix _
  exact hback.isInfix.trans hfront.isInfix

theorem octstrStripBlanks_eq_self {text : Octstr}
    (hfirst : ∀ c, text.head? = some c → isspace c = false)
    (hlast : ∀ c, text.getLast? = some c → isspace c = false) : octstrStripBlanks text = text := by
  have hkeep : ∀ l : Octstr, (∀ c, l.head? = some c → isspace c = false) →
      l.dropWhile isspace = l := by
    intro l hl
    cases l with
    | nil => rfl
    | cons c l => rw [dropWhile_cons, if_neg (Bool.eq_false_iff.mp (hl c rfl))]
  rw [octstrStripBlanks, hkeep text hfirst, hkeep text.reverse, reverse_reverse]
  rwa [List.head?_reverse]

variable {c : UInt8}

theorem octstrStripBlanks_cons (h : isspace c = true) (text : Octstr) :
    octstrStripBlanks (c :: text) = octstrStripBlanks text := by
  rw [octstrStripBlanks, dropWhile_cons, if_pos h, octstrStripBlanks]

theorem octstrStripBlanks_concat {c d : UInt8} (hc : isspace c = true) (hd : isspace d = false)
    (text : Octstr) : octstrStripBlanks (d :: text ++ [c]) = octstrStripBlanks (d :: text) := by
  have hkeep : ∀ l : Octstr, (d :: l).dropWhile isspace = d :: l := by
    intro l
    rw [dropWhile_cons, if_neg (Bool.eq_false_iff.mp hd)]
  rw [octstrStripBlanks, octstrStripBlanks, cons_append, hkeep, hkeep, ← cons_append,
    reverse_append, reverse_singleton, singleton_append, dropWhile_cons,
    if_pos hc]

theorem octstrSplit_lines {sep : UInt8} {lines : List Octstr} (h : ∀ line ∈ lines, sep ∉ line) :
    octstrSplit (lines.flatMap (· ++ [sep])) sep = lines := by
  have hparts : (lines.flatMap (· ++ [sep])).splitOnP (· = sep) = lines ++ [[]] := by
    induction lines with
    | nil => rfl
    | cons line lines ih =>
      have hline : ∀ c ∈ line, decide (c = sep) = false := by
        intro c hc
        refine decide_eq_false fun heq => h line mem_cons_self ?_
        exact heq ▸ hc
      rw [flatMap_cons, append_assoc, singleton_append,
        splitOnP_append_cons_of_forall_mem hline sep (decide_eq_true rfl),
        ih fun l hl => h l (mem_cons_of_mem _ hl), cons_append]
  rw [octstrSplit, hparts]
  simp

def digitValue (c : UInt8) : Option Nat :=
  if 48 ≤ c ∧ c ≤ 57 then some (c.toNat - 48)
  else if 65 ≤ c ∧ c ≤ 90 then some (c.toNat - 55)
  else if 97 ≤ c ∧ c ≤ 122 then some (c.toNat - 87)
  else none

def isDigitOf (base : Nat) (c : UInt8) : Bool :=
  match digitValue c with
  | some d => d < base
  | none => false

def digitsValue (base : Nat) (digits : Octstr) : Nat :=
  digits.foldl (fun n c => n * base + (digitValue c).getD 0) 0

def stripHexMark (base : Nat) : Octstr → Octstr
  | 48 :: x :: c :: rest =>
    if base = 16 ∧ (x = 120 ∨ x = 88) ∧ isDigitOf 16 c then c :: rest
    else 48 :: x :: c :: rest
  | text => text

def splitSign : Octstr → Int × Octstr
  | 45 :: text => (-1, text)
  | 43 :: text => (1, text)
  | text => (1, text)

def strtol (text : Octstr) (base : Nat) : Option (Int × Octstr) :=
  let signed := splitSign (text.dropWhile isspace)
  let digits := stripHexMark base signed.2
  let number := signed.1 * digitsValue base (digits.takeWhile (isDigitOf base))
  if digits.takeWhile (isDigitOf base) = [] then none
  else if number < -2 ^ 63 ∨ 2 ^ 63 ≤ number then none
  else some (number, digits.dropWhile (isDigitOf base))

def octstrParseLong (ostr : Octstr) (pos base : Nat) : Option (Int × Nat) :=
  if ostr.length ≤ pos then none
  else
    let text := (ostr.drop pos).takeWhile (· ≠ 0)
    (strtol text base).map fun r => (r.1, pos + (text.length - r.2.length))

variable {base : Nat}

theorem isDigitOf_not_isspace (h : isDigitOf base c = true) : isspace c = false := by
  grind [isDigitOf, digitValue, isspace]

theorem isDigitOf_not_sign (h : isDigitOf base c = true) : c ≠ 45 ∧ c ≠ 43 ∧ c ≠ 0 := by
  grind [isDigitOf, digitValue]

theorem isDigitOf_not_mark (hbase : base ≤ 16) (h : isDigitOf base c = true) :
    c ≠ 120 ∧ c ≠ 88 := by
  refine ⟨?_, ?_⟩ <;> rintro rfl <;> simp [isDigitOf, digitValue] at h <;> omega

theorem splitSign_of_ne {text : Octstr} (hminus : c ≠ 45) (hplus : c ≠ 43) :
    splitSign (c :: text) = (1, c :: text) := by
  unfold splitSign
  split
  · rename_i heq
    cases heq
    exact absurd rfl hminus
  · rename_i heq
    cases heq
    exact absurd rfl hplus
  · rfl

section Digits
variable {base : Nat} {digits rest : Octstr}

theorem stripHexMark_digits (hbase : base ≤ 16) (hdigits : ∀ c ∈ digits, isDigitOf base c = true)
    (hrest : ∀ c, rest.head? = some c → c ≠ 120 ∧ c ≠ 88) (hne : digits ≠ []) :
    stripHexMark base (digits ++ rest) = digits ++ rest := by
  have hsecond : ∀ x, (digits ++ rest)[1]? = some x → x ≠ 120 ∧ x ≠ 88 := by
    intro x hx
    match digits, hne with
    | [_], _ => exact hrest x (by simpa [List.head?_eq_getElem?] using hx)
    | _ :: d :: _, _ =>
      obtain rfl : d = x := by simpa using hx
      exact isDigitOf_not_mark hbase (hdigits d (by simp))
  unfold stripHexMark
  split
  · rename_i x c more heq
    have hx := hsecond x (by rw [heq]; rfl)
    simp [hx, heq]
  · rfl

theorem takeWhile_digits (hdigits : ∀ c ∈ digits, isDigitOf base c = true)
    (hrest : ∀ c, rest.head? = some c → isDigitOf base c = false) :
    (digits ++ rest).takeWhile (isDigitOf base) = digits ∧
      (digits ++ rest).dropWhile (isDigitOf base) = rest := by
  rw [takeWhile_append_of_pos hdigits, dropWhile_append_of_pos hdigits]
  cases rest with
  | nil => simp
  | cons c rest => simp [hrest c rfl]

theorem splitSign_of_digits (hne : digits ≠ []) (hdigits : ∀ c ∈ digits, isDigitOf base c = true) :
    splitSign ((digits ++ rest).dropWhile isspace) = (1, digits ++ rest) := by
  match digits, hne with
  | d :: _, _ =>
    have hd := hdigits d mem_cons_self
    obtain ⟨hminus, hplus, -⟩ := isDigitOf_not_sign hd
    rw [cons_append, dropWhile_cons_of_neg (by simp [isDigitOf_not_isspace hd])]
    exact splitSign_of_ne hminus hplus

variable (hbase : base ≤ 16) (hne : digits ≠ []) (hdigits : ∀ c ∈ digits, isDigitOf base c = true)
  (hrest : ∀ c, rest.head? = some c → isDigitOf base c = false ∧ c ≠ 120 ∧ c ≠ 88)
  (hfits : digitsValue base digits < 2 ^ 63)
include hbase hne hdigits hrest hfits

theorem strtol_digits :
    strtol (digits ++ rest) base = some ((digitsValue base digits : Int), rest) := by
  obtain ⟨htake, hdrop⟩ := takeWhile_digits hdigits fun c hc => (hrest c hc).1
  have hmark := stripHexMark_digits hbase hdigits (fun c hc => (hrest c hc).2) hne
  have hsign : splitSign ((digits ++ rest).dropWhile isspace) = (1, digits ++ rest) :=
    splitSign_of_digits hne hdigits
  have hrange : ¬ ((digitsValue base digits : Int) < -2 ^ 63 ∨
    (2 : Int) ^ 63 ≤ digitsValue base digits) := by omega
  simp only [strtol, hsign, hmark, htake, hdrop, one_mul, hne, if_false, hrange]

theorem octstrParseLong_digits :
    octstrParseLong (digits ++ rest) 0 base
      = some ((digitsValue base digits : Int), digits.length) := by
  have hnul : (digits ++ rest).takeWhile (· ≠ 0) = digits ++ rest.takeWhile (· ≠ 0) := by
    apply takeWhile_append_of_pos
    intro c hc
    simpa using (isDigitOf_not_sign (hdigits c hc)).2.2
  have hhead : ∀ c, (rest.takeWhile (· ≠ 0)).head? = some c →
      isDigitOf base c = false ∧ c ≠ 120 ∧ c ≠ 88 := by
    intro c hc
    apply hrest c
    cases rest with
    | nil => exact hc
    | cons d rest =>
      rw [takeWhile_cons] at hc
      split at hc
      · exact hc
      · cases hc
  have hpos : ¬ (digits ++ rest).length ≤ 0 := by
    have := length_pos_of_ne_nil hne
    rw [length_append]
    omega
  simp only [octstrParseLong, hpos, if_false, drop_zero, hnul,
    strtol_digits hbase hne hdigits hhead hfits]
  simp

end Digits

theorem formatDecimal_digits (n : Int) : ∃ digits, digits ≠ [] ∧ (∀ c ∈ digits, isdigit c = true) ∧
    formatDecimal n = (if n < 0 then [45] else []) ++ digits := by
  refine ⟨_, ?_, ?_, rfl⟩
  · rw [Ne, map_eq_nil_iff]
    exact Nat.toDigits_ne_nil
  · intro c hc
    obtain ⟨d, hd, rfl⟩ := List.mem_map.mp hc
    have hdigit := Nat.isDigit_of_mem_toDigits (by decide) (by decide) hd
    simp only [Char.isDigit, Bool.and_eq_true, decide_eq_true_eq] at hdigit
    have hlo : 48 ≤ d.toNat := hdigit.1
    have hhi : d.toNat ≤ 57 := hdigit.2
    generalize d.toNat = n at hlo hhi
    interval_cases n <;> decide

theorem mem_formatDecimal {n : Int} (h : c ∈ formatDecimal n) : c = 45 ∨ isdigit c = true := by
  obtain ⟨digits, -, hdigits, htext⟩ := formatDecimal_digits n
  rw [htext] at h
  rcases mem_append.mp h with hsign | hdigit
  · split_ifs at hsign
    · exact .inl (mem_singleton.mp hsign)
    · cases hsign
  · exact .inr (hdigits c hdigit)

theorem formatDecimal_injective : Function.Injective formatDecimal := by
  have hsign : ∀ n : Nat, 45 ∉ formatDecimal n := by
    intro n h
    obtain ⟨digits, -, hdigits, htext⟩ := formatDecimal_digits n
    rw [htext, if_neg (by omega)] at h
    cases hdigits 45 h
  have hneg : ∀ n : Int, n < 0 → formatDecimal n = 45 :: formatDecimal n.natAbs := by
    intro n h
    rw [formatDecimal, formatDecimal, if_pos h]
    rfl
  intro n m h
  by_cases hn : n < 0 <;> by_cases hm : m < 0
  · rw [hneg n hn, hneg m hm] at h
    have := formatDecimal_inj.mp (tail_eq_of_cons_eq h)
    omega
  · obtain ⟨m, rfl⟩ := Int.eq_ofNat_of_zero_le (Int.not_lt.mp hm)
    rw [hneg n hn] at h
    exact absurd (h ▸ mem_cons_self) (hsign m)
  · obtain ⟨n, rfl⟩ := Int.eq_ofNat_of_zero_le (Int.not_lt.mp hn)
    rw [hneg m hm] at h
    exact absurd (h ▸ mem_cons_self) (hsign n)
  · obtain ⟨n, rfl⟩ := Int.eq_ofNat_of_zero_le (Int.not_lt.mp hn)
    obtain ⟨m, rfl⟩ := Int.eq_ofNat_of_zero_le (Int.not_lt.mp hm)
    rw [formatDecimal_inj.mp h]

end Kannel
