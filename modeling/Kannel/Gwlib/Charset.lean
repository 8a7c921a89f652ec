import Kannel.Gwlib.Octstr

/-!
# The GSM alphabet

UTF-8 and the GSM 03.38 alphabet, with `?` (63) in the tables for what cannot be represented and
a negative entry for what has to be escaped.
-/

namespace Kannel

def nrp : Nat := 63

def latin1ToGsm : List Int :=
  [63, 63, 63, 63, 63, 63, 63, 63, 63, 63, 10, 63, -10, 13, 63, 63,
   63, 63, 63, 63, 63, 63, 63, 63, 63, 63, 63, 63, 63, 63, 63, 63,
   32, 33, 34, 35, 2, 37, 38, 39, 40, 41, 42, 43, 44, 45, 46, 47,
   48, 49, 50, 51, 52, 53, 54, 55, 56, 57, 58, 59, 60, 61, 62, 63,
   0, 65, 66, 67, 68, 69, 70, 71, 72, 73, 74, 75, 76, 77, 78, 79,
   80, 81, 82, 83, 84, 85, 86, 87, 88, 89, 90, -60, -47, -62, -20, 17,
   63, 97, 98, 99, 100, 101, 102, 103, 104, 105, 106, 107, 108, 109, 110, 111,
   112, 113, 114, 115, 116, 117, 118, 119, 120, 121, 122, -40, -64, -41, -61, 63,
   63, 63, 63, 63, 63, 63, 63, 63, 63, 63, 63, 63, 63, 63, 63, 63,
   63, 63, 63, 63, 63, 63, 63, 63, 63, 63, 63, 63, 63, 63, 63, 63,
   63, 64, 63, 1, 36, 3, 63, 95, 63, 63, 63, 63, 63, 63, 63, 63,
   63, 63, 63, 63, 63, 63, 63, 63, 63, 63, 63, 63, 63, 63, 63, 96,
   63, 63, 63, 63, 91, 14, 28, 9, 63, 31, 63, 63, 63, 63, 63, 63,
   63, 93, 63, 63, 63, 63, 92, 63, 11, 63, 63, 63, 94, 63, 63, 30,
   127, 63, 63, 63, 123, 15, 29, 9, 4, 5, 63, 63, 7, 63, 63, 63,
   63, 125, 8, 63, 63, 63, 124, 63, 12, 6, 63, 63, 126, 63, 63, 63]

def gsmToUnicode : List Nat :=
  [64, 163, 36, 165, 232, 233, 249, 236, 242, 199, 10, 216, 248, 13, 197, 229,
   916, 95, 934, 915, 923, 937, 928, 936, 931, 920, 926, 63, 198, 230, 223, 201,
   32, 33, 34, 35, 164, 37, 38, 39, 40, 41, 42, 43, 44, 45, 46, 47,
   48, 49, 50, 51, 52, 53, 54, 55, 56, 57, 58, 59, 60, 61, 62, 63,
   161, 65, 66, 67, 68, 69, 70, 71, 72, 73, 74, 75, 76, 77, 78, 79,
   80, 81, 82, 83, 84, 85, 86, 87, 88, 89, 90, 196, 214, 209, 220, 167,
   191, 97, 98, 99, 100, 101, 102, 103, 104, 105, 106, 107, 108, 109, 110, 111,
   112, 113, 114, 115, 116, 117, 118, 119, 120, 121, 122, 228, 246, 241, 252, 224]

def gsmEsctouni : List (Nat × Nat) :=
  [(10, 12), (20, 94), (40, 123), (41, 125), (47, 92), (60, 91), (61, 126), (62, 93), (64, 124),
   (101, 0x20AC)]

def greekToGsm : Nat → Octstr
  | 0x394 => [0x10]
  | 0x3A6 => [0x12]
  | 0x393 => [0x13]
  | 0x39B => [0x14]
  | 0x3A9 => [0x15]
  | 0x3A0 => [0x16]
  | 0x3A8 => [0x17]
  | 0x3A3 => [0x18]
  | 0x398 => [0x19]
  | 0x39E => [0x1A]
  | 0x20AC => [27, 101]
  | _ => [UInt8.ofNat nrp]

def unicodeToGsm (val : Nat) : Octstr :=
  if val ≤ 255 then
    let gsm := latin1ToGsm.getD val 0
    if gsm < 0 then [27, UInt8.ofNat gsm.natAbs] else [UInt8.ofNat gsm.natAbs]
  else greekToGsm val

def charsetUtf8ToGsm : Octstr → Octstr
  | [] => []
  | a :: rest =>
    if a &&& 0xE0 = 0xC0 then
      match rest with
      | b :: rest => unicodeToGsm ((a &&& 0x3F).toNat * 64 + (b &&& 0x3F).toNat) ++
          charsetUtf8ToGsm rest
      | [] => []
    else if a &&& 0xF0 = 0xE0 then
      match rest with
      | b :: c :: rest =>
        unicodeToGsm (((a &&& 0x1F).toNat * 64 + (b &&& 0x3F).toNat) * 64 +
          (c &&& 0x3F).toNat) ++ charsetUtf8ToGsm rest
      | _ => []
    else unicodeToGsm a.toNat ++ charsetUtf8ToGsm rest

def unicodeToUtf8 (c : Nat) : Octstr :=
  if c < 128 then [UInt8.ofNat c]
  else if c < 0x800 then [UInt8.ofNat (c / 64 ||| 0xC0), UInt8.ofNat (c % 64 ||| 0x80)]
  else
    [UInt8.ofNat (c / 4096 ||| 0xE0), UInt8.ofNat (c / 64 % 64 ||| 0x80),
      UInt8.ofNat (c % 64 ||| 0x80)]

def charsetGsmToUtf8 : Octstr → Octstr
  | [] => []
  | a :: rest =>
    if 127 < a then charsetGsmToUtf8 rest
    else if a = 27 then
      match rest with
      | b :: rest' =>
        match gsmEsctouni.lookup b.toNat with
        | some c => unicodeToUtf8 c ++ charsetGsmToUtf8 rest'
        | none => unicodeToUtf8 (gsmToUnicode.getD 27 0) ++ charsetGsmToUtf8 (b :: rest')
      | [] => unicodeToUtf8 (gsmToUnicode.getD 27 0)
    else unicodeToUtf8 (gsmToUnicode.getD a.toNat 0) ++ charsetGsmToUtf8 rest

def charsetGsmTruncate (gsm : Octstr) (max : Int) : Except Failure Octstr :=
  if max < gsm.length then
    octstrTruncate gsm
      (if 0 < max ∧ octstrGetChar gsm (max - 1).toNat = some 27 then max - 1 else max)
  else .ok gsm

def gsmAlphabet : List Nat := gsmToUnicode ++ gsmEsctouni.map Prod.snd

def ReadsUtf8As (octets : Octstr) (c : Nat) : Prop :=
  match octets with
  | [a] => a &&& 0xE0 ≠ 0xC0 ∧ a &&& 0xF0 ≠ 0xE0 ∧ a.toNat = c
  | [a, b] => a &&& 0xE0 = 0xC0 ∧ (a &&& 0x3F).toNat * 64 + (b &&& 0x3F).toNat = c
  | [a, b, d] =>
    a &&& 0xE0 ≠ 0xC0 ∧ a &&& 0xF0 = 0xE0 ∧
      ((a &&& 0x1F).toNat * 64 + (b &&& 0x3F).toNat) * 64 + (d &&& 0x3F).toNat = c
  | _ => False

instance decidableReadsUtf8As (octets : Octstr) (c : Nat) : Decidable (ReadsUtf8As octets c) :=
  match octets with
  | [] => isFalse id
  | [_] => inferInstanceAs (Decidable (_ ∧ _ ∧ _))
  | [_, _] => inferInstanceAs (Decidable (_ ∧ _))
  | [_, _, _] => inferInstanceAs (Decidable (_ ∧ _ ∧ _))
  | _ :: _ :: _ :: _ :: _ => isFalse id

def ReadsGsmAs (octets : Octstr) (c : Nat) : Prop :=
  match octets with
  | [a] => ¬ 127 < a ∧ a ≠ 27 ∧ gsmToUnicode.getD a.toNat 0 = c
  | [a, b] => a = 27 ∧ gsmEsctouni.lookup b.toNat = some c
  | _ => False

instance decidableReadsGsmAs (octets : Octstr) (c : Nat) : Decidable (ReadsGsmAs octets c) :=
  match octets with
  | [] => isFalse id
  | [_] => inferInstanceAs (Decidable (_ ∧ _ ∧ _))
  | [_, _] => inferInstanceAs (Decidable (_ ∧ _))
  | _ :: _ :: _ :: _ => isFalse id

theorem charsetUtf8ToGsm_append {octets : Octstr} {c : Nat} (h : ReadsUtf8As octets c)
    (rest : Octstr) :
    charsetUtf8ToGsm (octets ++ rest) = unicodeToGsm c ++ charsetUtf8ToGsm rest := by
  unfold ReadsUtf8As at h
  split at h
  · obtain ⟨htwo, hthree, rfl⟩ := h
    rw [List.singleton_append, charsetUtf8ToGsm.eq_def]
    simp only [if_neg htwo, if_neg hthree]
  · obtain ⟨htwo, rfl⟩ := h
    simp [charsetUtf8ToGsm, htwo]
  · obtain ⟨htwo, hthree, rfl⟩ := h
    simp [charsetUtf8ToGsm, htwo, hthree]
  · exact h.elim

theorem charsetGsmToUtf8_append {octets : Octstr} {c : Nat} (h : ReadsGsmAs octets c)
    (rest : Octstr) :
    charsetGsmToUtf8 (octets ++ rest) = unicodeToUtf8 c ++ charsetGsmToUtf8 rest := by
  unfold ReadsGsmAs at h
  split at h
  · obtain ⟨hseptet, hescape, rfl⟩ := h
    rw [List.singleton_append, charsetGsmToUtf8.eq_def]
    simp only [if_neg hseptet, if_neg hescape]
  · obtain ⟨rfl, hlookup⟩ := h
    simp [charsetGsmToUtf8, hlookup]
  · exact h.elim

theorem gsmAlphabet_reads :
    ∀ c ∈ gsmAlphabet, ReadsUtf8As (unicodeToUtf8 c) c ∧ ReadsGsmAs (unicodeToGsm c) c := by
  decide +kernel

theorem charsetGsmToUtf8_charsetUtf8ToGsm (chars : List Nat) (h : ∀ c ∈ chars, c ∈ gsmAlphabet) :
    charsetGsmToUtf8 (charsetUtf8ToGsm (chars.flatMap unicodeToUtf8)) =
      chars.flatMap unicodeToUtf8 := by
  induction chars with
  | nil => rfl
  | cons c chars ih =>
    obtain ⟨hutf8, hgsm⟩ := gsmAlphabet_reads c (h c (by simp))
    rw [List.flatMap_cons, charsetUtf8ToGsm_append hutf8, charsetGsmToUtf8_append hgsm,
      ih fun d hd => h d (List.mem_cons_of_mem c hd)]

end Kannel
