import Kannel.Gw.SmsSplit

/-!
# The texts of the parts

Seven-bit texts are cut by their codes, never through a character, and a part has room for all
but one of its codes at least.
-/

namespace Kannel
open List

def utf8Text (chars : List Nat) : Octstr := chars.flatMap unicodeToUtf8

def gsmText (chars : List Nat) : Octstr := chars.flatMap unicodeToGsm

def InAlphabet (chars : List Nat) : Prop := ∀ c ∈ chars, c ∈ gsmAlphabet

instance decidableInAlphabet (chars : List Nat) : Decidable (InAlphabet chars) :=
  inferInstanceAs (Decidable (∀ c ∈ chars, c ∈ gsmAlphabet))

variable {back front : List Nat}

theorem InAlphabet.left (h : InAlphabet (front ++ back)) :
    InAlphabet front := fun c hc => h c (mem_append_left back hc)

theorem InAlphabet.right (h : InAlphabet (front ++ back)) :
    InAlphabet back := fun c hc => h c (mem_append_right front hc)

variable {chars : List Nat}

theorem InAlphabet.tail {c : Nat} (h : InAlphabet (c :: chars)) :
    InAlphabet chars := fun d hd => h d (mem_cons_of_mem c hd)

@[simp] theorem gsmText_append (front back : List Nat) :
    gsmText (front ++ back) = gsmText front ++ gsmText back := flatMap_append

@[simp] theorem utf8Text_append (front back : List Nat) :
    utf8Text (front ++ back) = utf8Text front ++ utf8Text back := flatMap_append

theorem charsetUtf8ToGsm_utf8Text (h : InAlphabet chars) :
    charsetUtf8ToGsm (utf8Text chars) = gsmText chars := by
  induction chars with
  | nil => rfl
  | cons c chars ih =>
    have hreads := (gsmAlphabet_reads c (h c (by simp))).1
    show charsetUtf8ToGsm (unicodeToUtf8 c ++ utf8Text chars) = unicodeToGsm c ++ gsmText chars
    rw [charsetUtf8ToGsm_append hreads, ih h.tail]

theorem charsetGsmToUtf8_gsmText (h : InAlphabet chars) :
    charsetGsmToUtf8 (gsmText chars) = utf8Text chars := by
  rw [← charsetUtf8ToGsm_utf8Text h]
  exact charsetGsmToUtf8_charsetUtf8ToGsm chars h

def gsmCut (gsm : Octstr) (max : Nat) : Nat :=
  if 0 < max ∧ gsm[max - 1]? = some 27 then max - 1 else max

theorem charsetGsmTruncate_nat (gsm : Octstr) (max : Nat) :
    charsetGsmTruncate gsm max =
      .ok (if max < gsm.length then gsm.take (gsmCut gsm max) else gsm) := by
  unfold charsetGsmTruncate gsmCut octstrTruncate octstrGetChar
  by_cases hlong : max < gsm.length
  · have hindex : ((max : Int) - 1).toNat = max - 1 := by omega
    rw [if_pos (by omega), if_pos hlong, hindex]
    by_cases hescape : 0 < max ∧ gsm[max - 1]? = some 27
    · have hescape' : 0 < (max : Int) ∧ gsm[max - 1]? = some 27 := ⟨by omega, hescape.2⟩
      have hcut : ¬ (max : Int) - 1 < 0 := by omega
      simp only [if_pos hescape, if_pos hescape', if_neg hcut, hindex]
    · have hescape' : ¬ (0 < (max : Int) ∧ gsm[max - 1]? = some 27) :=
        fun h => hescape ⟨by omega, h.2⟩
      have hcut : ¬ (max : Int) < 0 := by omega
      simp only [if_neg hescape, if_neg hescape', if_neg hcut, Int.toNat_natCast]
  · rw [if_neg (by omega), if_neg hlong]

variable {n : Nat}

theorem gsmCut_append (front gsm : Octstr) (hn : 0 < n) :
    gsmCut (front ++ gsm) (front.length + n) = front.length + gsmCut gsm n := by
  have hindex : (front ++ gsm)[front.length + n - 1]? = gsm[n - 1]? := by
    have hsub : front.length + n - 1 - front.length = n - 1 := by omega
    rw [List.getElem?_append_right (by omega), hsub]
  have hpos : 0 < front.length + n := by omega
  unfold gsmCut
  rw [hindex]
  by_cases hescape : gsm[n - 1]? = some 27
  · rw [if_pos ⟨hpos, hescape⟩, if_pos ⟨hn, hescape⟩]
    omega
  · rw [if_neg fun h => hescape h.2, if_neg fun h => hescape h.2]

theorem unicodeToGsm_shape {c : Nat} (h : c ∈ gsmAlphabet) :
    (∃ a, unicodeToGsm c = [a] ∧ a ≠ 27) ∨ ∃ a, unicodeToGsm c = [27, a] ∧ a ≠ 27 := by
  have hreads := (gsmAlphabet_reads c h).2
  unfold ReadsGsmAs at hreads
  split at hreads
  · next a hcode => exact .inl ⟨a, hcode, hreads.2.1⟩
  · next a b hcode =>
    obtain ⟨rfl, hlookup⟩ := hreads
    refine .inr ⟨b, hcode, ?_⟩
    rintro rfl
    cases hlookup
  · exact hreads.elim

theorem gsmCut_between (h : InAlphabet chars) (hn : n < (gsmText chars).length) :
    ∃ front c back, chars = front ++ c :: back ∧
      gsmCut (gsmText chars) n = (gsmText front).length ∧
      (gsmText front).length ≤ n ∧
      ((gsmText front).length = n ∨ (unicodeToGsm c).length = 2) := by
  induction chars generalizing n with
  | nil => cases hn
  | cons c chars ih =>
    have hcons : gsmText (c :: chars) = unicodeToGsm c ++ gsmText chars := rfl
    rw [hcons] at hn ⊢
    rw [length_append] at hn
    by_cases hafter : (unicodeToGsm c).length < n
    · -- the cut is behind this character
      obtain ⟨m, rfl⟩ := Nat.exists_eq_add_of_lt hafter
      obtain ⟨front, d, back, rfl, hcut, hle, hfull⟩ := ih h.tail (n := m + 1) (by omega)
      refine ⟨c :: front, d, back, rfl, ?_, ?_, ?_⟩
      · rw [Nat.add_assoc, gsmCut_append _ _ (by omega), hcut]
        exact length_append.symm
      · have : (gsmText (c :: front)).length =
          (unicodeToGsm c).length + (gsmText front).length := length_append
        omega
      · have : (gsmText (c :: front)).length =
          (unicodeToGsm c).length + (gsmText front).length := length_append
        rcases hfull with hfull | hfull
        · exact .inl (by omega)
        · exact .inr hfull
    · by_cases hwhole : n = (unicodeToGsm c).length
      · -- right behind this character, whose last octet is no escape
        subst hwhole
        obtain ⟨d, back, rfl⟩ : ∃ d back, chars = d :: back := by
          cases chars with
          | nil => simp [gsmText] at hn
          | cons d back => exact ⟨d, back, rfl⟩
        refine ⟨[c], d, back, rfl, ?_, by simp [gsmText], .inl (by simp [gsmText])⟩
        rcases unicodeToGsm_shape (h c (by simp)) with ⟨a, hcode, ha⟩ | ⟨a, hcode, ha⟩ <;>
          simp [gsmCut, gsmText, hcode, ha]
      · -- before it, or at the escape it begins with
        rcases unicodeToGsm_shape (h c (by simp)) with ⟨a, hcode, -⟩ | ⟨a, hcode, -⟩
        · have hzero : n = 0 := by
            rw [hcode, length_singleton] at hafter hwhole
            omega
          subst hzero
          exact ⟨[], c, chars, rfl, rfl, by simp [gsmText], .inl rfl⟩
        · refine ⟨[], c, chars, rfl, ?_, by simp [gsmText], .inr (by rw [hcode]; rfl)⟩
          have hn : n = 0 ∨ n = 1 := by
            rw [hcode] at hafter hwhole
            simp only [length_cons, length_nil] at hafter hwhole
            omega
          rcases hn with rfl | rfl <;> simp [gsmCut, gsmText, hcode]

private theorem utf8_le_gsm :
    ∀ c ∈ gsmAlphabet, (unicodeToUtf8 c).length ≤ 2 * (unicodeToGsm c).length := by
  decide +kernel

theorem utf8Text_length_le (h : InAlphabet chars) :
    (utf8Text chars).length ≤ 2 * (gsmText chars).length := by
  induction chars with
  | nil => exact Nat.zero_le _
  | cons c chars ih =>
    have hc := utf8_le_gsm c (h c (by simp))
    have hchars := ih h.tail
    have hutf8 : (utf8Text (c :: chars)).length =
      (unicodeToUtf8 c).length + (utf8Text chars).length := length_append
    have hgsm : (gsmText (c :: chars)).length =
      (unicodeToGsm c).length + (gsmText chars).length := length_append
    omega

structure Takes (room : Nat) (chars front back : List Nat) : Prop where
  split : chars = front ++ back
  fits : (gsmText front).length ≤ room
  full : back = [] ∨ (gsmText front).length = room ∨
    ∃ c rest, back = c :: rest ∧ (unicodeToGsm c).length = 2

theorem charsetGsmTruncate_text (h : InAlphabet chars) (room : Nat) :
    ∃ front back, Takes room chars front back ∧
      charsetGsmTruncate (gsmText chars) room = .ok (gsmText front) := by
  rw [charsetGsmTruncate_nat]
  by_cases hlong : room < (gsmText chars).length
  · obtain ⟨front, c, back, rfl, hcut, hfits, hfull⟩ := gsmCut_between h hlong
    refine ⟨front, c :: back, ⟨rfl, hfits, .inr ?_⟩, ?_⟩
    · rcases hfull with hfull | hfull
      · exact .inl hfull
      · exact .inr ⟨c, back, rfl, hfull⟩
    · rw [if_pos hlong, hcut, gsmText_append, take_left]
  · refine ⟨chars, [], ⟨(append_nil chars).symm, by omega, .inl rfl⟩, ?_⟩
    rw [if_neg hlong]

theorem toInt_natCast (h : n < 2 ^ 31) : toInt n = n :=
  toInt_of_fits (by omega) (by omega)

theorem extractMsgdataPart_append (front back : Octstr) :
    extractMsgdataPart (front ++ back) none front.length = .ok (front, back) := by
  have hcopy := octstrCopy_nat (front ++ back) 0 front.length
  rw [drop_zero, take_left, Nat.cast_zero] at hcopy
  have hrest : octstrDelete (front ++ back) 0 front.length = back := by
    rw [octstrDelete, take_zero, nil_append, Nat.zero_add, drop_left]
  simp only [extractMsgdataPart, hcopy, ok_bind, Int.toNat_natCast, hrest, pure_eq_ok]

theorem extractMsgdataPartByCoding_text (h : InAlphabet chars) {msg : Sms}
    (hdata : msg.msgdata = some (utf8Text chars)) (hcoding : cutByOctets msg = false) {room : Nat}
    (hroom : room < 2 ^ 29) :
    ∃ front back, Takes room chars front back ∧
      extractMsgdataPartByCoding msg none room = .ok (utf8Text front, utf8Text back) := by
  obtain ⟨front, back, htakes, hcut⟩ := charsetGsmTruncate_text h room
  refine ⟨front, back, htakes, ?_⟩
  obtain rfl := htakes.split
  have hshort := utf8Text_length_le h.left
  have hfits := htakes.fits
  have hint : toInt (utf8Text front).length = (utf8Text front).length := toInt_natCast (by omega)
  unfold extractMsgdataPartByCoding
  rw [hdata]
  show (if cutByOctets msg = true then _ else _) = _
  rw [hcoding, charsetUtf8ToGsm_utf8Text h, charsetGsmToUtf8_gsmText h]
  show (charsetGsmTruncate (charsetUtf8ToGsm (utf8Text (front ++ back))) room >>= _) = _
  rw [charsetUtf8ToGsm_utf8Text h, hcut, ok_bind, charsetGsmToUtf8_gsmText h.left, hint,
    utf8Text_append]
  exact extractMsgdataPart_append _ _

section Loop
variable {args : SplitArgs} {orig : Sms} {entropy : Nat → Entropy} {room : Nat}

def textsOf (parts : List Sms) : Octstr := parts.flatMap fun part => part.msgdata.getD []

structure SplitArgs.Plain (args : SplitArgs) : Prop where
  header : args.header = none
  footer : args.footer = none
  nonlastSuffix : args.nonlastSuffix = none
  splitChars : args.splitChars = none

def OneCode (chars : List Nat) : Prop := ∀ c ∈ chars, (unicodeToGsm c).length = 1

theorem OneCode.length_gsmText (h : OneCode chars) : (gsmText chars).length = chars.length := by
  induction chars with
  | nil => rfl
  | cons c chars ih =>
    have hc := h c (by simp)
    have hchars := ih fun d hd => h d (mem_cons_of_mem c hd)
    have hgsm : (gsmText (c :: chars)).length =
      (unicodeToGsm c).length + (gsmText chars).length := length_append
    rw [hgsm, hc, hchars, length_cons, Nat.add_comm]

theorem Takes.full_of_oneCode (h : Takes room chars front back) (hone : OneCode chars) :
    back = [] ∨ front.length = room := by
  obtain rfl := h.split
  have hfront : OneCode front := fun c hc => hone c (mem_append_left back hc)
  rcases h.full with hback | hfull | ⟨c, rest, rfl, htwo⟩
  · exact .inl hback
  · exact .inr (by rw [← hfront.length_gsmText, hfull])
  · have hc := hone c (by simp)
    omega

variable (hplain : args.Plain) (hroom : maxPartLen args orig = room) (hsmall : room < 2 ^ 29)
  {fuel msgno : Nat} {temp : Sms} {parts : List Sms} (h : InAlphabet chars)
include hplain hroom hsmall h

theorem splitLoop_text (hdata : temp.msgdata = some (utf8Text chars))
    (hcoding : cutByOctets temp = false)
    (hrun : splitLoop args orig entropy (fuel + 1) msgno temp = some (.ok parts)) :
    ∃ part front back, Takes room chars front back ∧ part.msgdata = some (utf8Text front) ∧
      ((parts = [part] ∧ (smsMsgdataLen temp ≤ room ∨ msgno + 1 = toUlong args.maxMessages)) ∨
        ∃ rest, parts = part :: rest ∧
          ¬ (smsMsgdataLen temp ≤ room ∨ msgno + 1 = toUlong args.maxMessages) ∧
          splitLoop args orig entropy fuel (msgno + 1)
            { temp with msgdata := some (utf8Text back) } = some (.ok rest)) := by
  obtain ⟨front, back, htakes, hfront⟩ := extractMsgdataPartByCoding_text h hdata hcoding hsmall
  obtain ⟨piece, rest, part, hextract, hmade, hcase⟩ := splitLoop_inv hrun
  have hlen : cutRoom args orig = room := by
    rw [cutRoom, hroom, hplain.nonlastSuffix, Option.getD_none, length_nil, Nat.cast_zero,
      Int.sub_zero]
    exact toInt_natCast (by omega)
  rw [hplain.splitChars, hlen, hfront] at hextract
  cases hextract
  refine ⟨part, front, back, htakes, ?_, ?_⟩
  · simp [hmade.msgdata, framed, hplain.header, hplain.footer, hplain.nonlastSuffix]
  · rw [← hroom]
    rcases hcase with ⟨hlast, rfl⟩ | ⟨hgoes, more, rfl, hmore⟩
    · exact .inl ⟨rfl, of_decide_eq_true hlast⟩
    · exact .inr ⟨more, rfl, of_decide_eq_false hgoes, hmore⟩

theorem splitLoop_texts (hdata : temp.msgdata = some (utf8Text chars))
    (hcoding : cutByOctets temp = false)
    (hrun : splitLoop args orig entropy fuel msgno temp = some (.ok parts)) :
    ∃ front back, chars = front ++ back ∧ textsOf parts = utf8Text front ∧
      (gsmText front).length ≤ room * parts.length ∧ parts.length ≤ fuel := by
  induction fuel generalizing msgno temp chars parts with
  | zero => cases hrun
  | succ fuel ih =>
    obtain ⟨part, front, back, htakes, htext, ⟨rfl, -⟩ | ⟨rest, rfl, -, hrest⟩⟩ :=
      splitLoop_text hplain hroom hsmall h hdata hcoding hrun
    · have hfits := htakes.fits
      refine ⟨front, back, htakes.split, ?_, ?_, by simp⟩
      · simp [textsOf, htext]
      · simpa using hfits
    · obtain rfl := htakes.split
      have hfits := htakes.fits
      have hcoding' : cutByOctets { temp with msgdata := some (utf8Text back) } = false := hcoding
      obtain ⟨front', back', rfl, htexts, hcodes, hcount⟩ := ih h.right rfl hcoding' hrest
      refine ⟨front ++ front', back', (append_assoc _ _ _).symm, ?_, ?_, ?_⟩
      · rw [utf8Text_append, ← htexts]
        simp [textsOf, htext]
      · rw [gsmText_append, length_append, length_cons, Nat.mul_succ]
        omega
      · rw [length_cons]
        omega

theorem splitLoop_whole (hone : OneCode chars) (hdata : temp.msgdata = some (utf8Text chars))
    (hcoding : temp.coding = dc7bit) (hmax : toUlong args.maxMessages = msgno + fuel)
    (hfits : chars.length ≤ room * fuel) (hint : chars.length < 2 ^ 31)
    (hrun : splitLoop args orig entropy fuel msgno temp = some (.ok parts)) :
    textsOf parts = utf8Text chars := by
  induction fuel generalizing msgno temp chars parts with
  | zero => cases hrun
  | succ fuel ih =>
    have hcut : cutByOctets temp = false := by
      rw [cutByOctets, hcoding]
      rfl
    have hlen : smsMsgdataLen temp = chars.length := by
      simp only [smsMsgdataLen, hdata, hcoding, if_true]
      rw [charsetUtf8ToGsm_utf8Text h, hone.length_gsmText]
      exact toInt_natCast hint
    obtain ⟨part, front, back, htakes, htext, hcase⟩ :=
      splitLoop_text hplain hroom hsmall h hdata hcut hrun
    have hfull := htakes.full_of_oneCode hone
    have hlengths : chars.length = front.length + back.length := by
      rw [htakes.split, length_append]
    rw [Nat.mul_succ] at hfits
    rcases hcase with ⟨rfl, hlast⟩ | ⟨rest, rfl, hgoes, hrest⟩
    · -- the last part has room for all that is left
      have hback : back = [] := by
        rcases hfull with hback | hfull
        · exact hback
        · refine length_eq_zero_iff.mp ?_
          rcases hlast with hlast | hlast
          · omega
          · have hfuel : fuel = 0 := by omega
            rw [hfuel] at hfits
            omega
      rw [htakes.split, hback]
      simp [textsOf, htext]
    · have hone' : OneCode back := by
        intro c hc
        exact hone c (htakes.split ▸ mem_append_right front hc)
      have halphabet : InAlphabet back := by
        intro c hc
        exact h c (htakes.split ▸ mem_append_right front hc)
      have hleft : back.length ≤ room * fuel := by
        rcases hfull with rfl | hfull
        · exact Nat.zero_le _
        · omega
      have hdata' : ({ temp with msgdata := some (utf8Text back) } : Sms).msgdata =
        some (utf8Text back) := rfl
      have hrec := ih halphabet hone' hdata' hcoding (by omega) hleft (by omega) hrest
      rw [htakes.split, utf8Text_append, ← hrec]
      simp [textsOf, htext]

end Loop
end Kannel
