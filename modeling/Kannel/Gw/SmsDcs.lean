import Kannel.Gw.SmsSplit

/-!
# The data coding octet

Coding, class and indicator in one octet, in one of three layouts.
-/

namespace Kannel
open List

def smsParamUndefined : Int := msgParamUndefined

def compressOn : Int := 1

def fieldBits (n : Int) : BitVec 32 := BitVec.ofInt 32 n

def defaultCoding (msg : Sms) : Int :=
  if msg.coding = smsParamUndefined then
    if (msg.udhdata.getD []).length ≠ 0 then dc8bit else dc7bit
  else msg.coding

def mwiDcs (msg : Sms) : BitVec 32 :=
  let dcs := fieldBits msg.mwi
  if dcs &&& 0x04 ≠ 0 then (dcs &&& 0x03) ||| 0xC0
  else
    let dcs := (dcs &&& 0x03) ||| 0x08
    if (msg.msgdata.getD []).length = 0 then dcs ||| 0xC0
    else if msg.coding = dc7bit then dcs ||| 0xD0
    else dcs ||| 0xE0

def generalDcs (msg : Sms) : BitVec 32 :=
  (if msg.compress = compressOn then 0x20 else 0) |||
    (if msg.mclass ≠ smsParamUndefined then 0x10 ||| fieldBits msg.mclass else 0) |||
    (if msg.coding ≠ smsParamUndefined then fieldBits msg.coding <<< 2 else 0)

def classDcs (msg : Sms) : BitVec 32 :=
  0xF0 ||| (if msg.coding ≠ smsParamUndefined then fieldBits msg.coding <<< 2 else 0) |||
    (if msg.mclass = smsParamUndefined then 1 else fieldBits msg.mclass)

def fieldsToDcs (msg : Sms) (mode : Int) : Sms × BitVec 32 :=
  let msg := { msg with coding := defaultCoding msg }
  if msg.mwi ≠ smsParamUndefined then (msg, mwiDcs msg)
  else if mode = 0 ∨ mode = smsParamUndefined ∨ msg.coding = dcUcs2 ∨ msg.compress = compressOn then
    (msg, generalDcs msg)
  else (msg, classDcs msg)

def dcsToFields (msg : Sms) (dcs : BitVec 32) : Bool × Sms :=
  if dcs &&& 0xF0 = 0xF0 then
    (true,
      { msg with
        coding := if dcs &&& 0x04 ≠ 0 then dc8bit else dc7bit
        mclass := (dcs &&& 0x03).toNat
        altDcs := 1 })
  else if dcs &&& 0xC0 = 0x00 then
    (true,
      { msg with
        altDcs := 0
        compress := if dcs &&& 0x20 = 0x20 then 1 else 0
        mclass := if dcs &&& 0x10 = 0x10 then (dcs &&& 0x03).toNat else smsParamUndefined
        coding := ((dcs &&& 0x0C) >>> 2).toNat })
  else if dcs &&& 0xC0 = 0xC0 then
    (true,
      { msg with
        altDcs := 0
        coding := if dcs &&& 0x30 = 0x30 then dcUcs2 else dc7bit
        mwi := ((if dcs &&& 0x08 = 0 then dcs ||| 0x04 else dcs) &&& 0x07).toNat })
  else (false, msg)

def decodedFields (dcs : BitVec 32) : Int × Int × Int :=
  let msg := (dcsToFields (smsCreate uuidClear) dcs).2
  (msg.coding, msg.mclass, msg.mwi)

def Describes (dcs : BitVec 32) (coding mclass mwi : Int) : Prop :=
  dcs.toNat < 256 ∧
    ((dcs.toNat : Int) = 4 * coding ∨ (dcs &&& 0xF0 ≠ 0 ∧ 16 ≤ dcs.toNat)) ∧
    decodedFields dcs = (coding, mclass, mwi)

instance decidableDescribes (dcs : BitVec 32) (coding mclass mwi : Int) :
    Decidable (Describes dcs coding mclass mwi) :=
  inferInstanceAs (Decidable (_ ∧ _ ∧ _))

variable (dcs : BitVec 32)

theorem dcsToFields_decodedFields {msg : Sms} (hcoding : msg.coding = smsParamUndefined)
    (hmclass : msg.mclass = smsParamUndefined) (hmwi : msg.mwi = smsParamUndefined) :
    ((dcsToFields msg dcs).2.coding, (dcsToFields msg dcs).2.mclass, (dcsToFields msg dcs).2.mwi) =
      decodedFields dcs := by
  unfold decodedFields dcsToFields
  split_ifs <;> simp [hcoding, hmclass, hmwi, smsCreate, smsParamUndefined]

variable (msg : Sms)

@[simp] theorem dcsToFields_msgdata : (dcsToFields msg dcs).2.msgdata = msg.msgdata := by
  unfold dcsToFields
  split_ifs <;> rfl

@[simp] theorem dcsToFields_udhdata : (dcsToFields msg dcs).2.udhdata = msg.udhdata := by
  unfold dcsToFields
  split_ifs <;> rfl

theorem mwi_on_or_off {mwi : Int} (hmwi : 0 ≤ mwi ∧ mwi ≤ 7) :
    (mwi ∈ ([0, 1, 2, 3] : List Int) ∧ fieldBits mwi &&& 0x04 = 0) ∨
      (mwi ∈ ([4, 5, 6, 7] : List Int) ∧ fieldBits mwi &&& 0x04 ≠ 0) := by
  have hon : ∀ mwi ∈ ([0, 1, 2, 3] : List Int), fieldBits mwi &&& 0x04 = 0 := by decide +kernel
  have hoff : ∀ mwi ∈ ([4, 5, 6, 7] : List Int), fieldBits mwi &&& 0x04 ≠ 0 := by decide +kernel
  rcases lt_or_ge mwi 4 with hlt | hge
  · have hmem : mwi ∈ ([0, 1, 2, 3] : List Int) := by
      simp only [mem_cons, not_mem_nil]
      omega
    exact .inl ⟨hmem, hon mwi hmem⟩
  · have hmem : mwi ∈ ([4, 5, 6, 7] : List Int) := by
      simp only [mem_cons, not_mem_nil]
      omega
    exact .inr ⟨hmem, hoff mwi hmem⟩

theorem mwiDcs_describes (hmwi : 0 ≤ msg.mwi ∧ msg.mwi ≤ 7) :
    Describes (mwiDcs msg) dc7bit smsParamUndefined msg.mwi := by
  have hoff : ∀ mwi ∈ ([4, 5, 6, 7] : List Int),
      Describes ((fieldBits mwi &&& 0x03) ||| 0xC0) dc7bit smsParamUndefined mwi := by
    decide +kernel
  have hon : ∀ top ∈ [0xC0, 0xD0, 0xE0], ∀ mwi ∈ ([0, 1, 2, 3] : List Int),
      Describes (((fieldBits mwi &&& 0x03) ||| 0x08) ||| BitVec.ofNat 32 top)
        dc7bit smsParamUndefined mwi := by
    decide +kernel
  unfold mwiDcs
  rcases mwi_on_or_off hmwi with ⟨hmem, hbit⟩ | ⟨hmem, hbit⟩
  · simp only [if_neg (not_not.mpr hbit)]
    split_ifs
    · exact hon 0xC0 (by simp) msg.mwi hmem
    · exact hon 0xD0 (by simp) msg.mwi hmem
    · exact hon 0xE0 (by simp) msg.mwi hmem
  · simp only [if_pos hbit]
    exact hoff msg.mwi hmem

theorem generalDcs_describes (hcoding : 0 ≤ msg.coding ∧ msg.coding ≤ 2)
    (hmclass : -1 ≤ msg.mclass ∧ msg.mclass ≤ 3) :
    Describes (generalDcs msg) msg.coding msg.mclass smsParamUndefined := by
  have hall : ∀ bit ∈ [0x20, 0], ∀ coding ∈ ([0, 1, 2] : List Int),
      ∀ mclass ∈ ([-1, 0, 1, 2, 3] : List Int),
      Describes
        (BitVec.ofNat 32 bit |||
          (if mclass ≠ smsParamUndefined then 0x10 ||| fieldBits mclass else 0) |||
          (if coding ≠ smsParamUndefined then fieldBits coding <<< 2 else 0))
        coding mclass smsParamUndefined := by
    decide +kernel
  have hcodings : msg.coding ∈ ([0, 1, 2] : List Int) := by
    simp only [mem_cons, not_mem_nil]
    omega
  have hclasses : msg.mclass ∈ ([-1, 0, 1, 2, 3] : List Int) := by
    simp only [mem_cons, not_mem_nil]
    omega
  unfold generalDcs
  by_cases hcompress : msg.compress = compressOn
  · rw [if_pos hcompress]
    exact hall 0x20 (by simp) msg.coding hcodings msg.mclass hclasses
  · rw [if_neg hcompress]
    exact hall 0 (by simp) msg.coding hcodings msg.mclass hclasses

theorem classDcs_describes (hcoding : 0 ≤ msg.coding ∧ msg.coding ≤ 1)
    (hmclass : -1 ≤ msg.mclass ∧ msg.mclass ≤ 3) :
    Describes (classDcs msg) msg.coding
      (if msg.mclass = smsParamUndefined then 1 else msg.mclass) smsParamUndefined := by
  have hall : ∀ coding ∈ ([0, 1] : List Int), ∀ mclass ∈ ([-1, 0, 1, 2, 3] : List Int),
      Describes
        (0xF0 ||| (if coding ≠ smsParamUndefined then fieldBits coding <<< 2 else 0) |||
          (if mclass = smsParamUndefined then 1 else fieldBits mclass))
        coding (if mclass = smsParamUndefined then 1 else mclass) smsParamUndefined := by
    decide +kernel
  refine hall msg.coding ?_ msg.mclass ?_
  · simp only [mem_cons, not_mem_nil]
    omega
  · simp only [mem_cons, not_mem_nil]
    omega

theorem defaultCoding_of_defined {msg : Sms} (h : msg.coding ≠ smsParamUndefined) :
    defaultCoding msg = msg.coding := by
  simp [defaultCoding, h]

theorem fieldsToDcs_msg {msg : Sms} (h : msg.coding ≠ smsParamUndefined) (mode : Int) :
    (fieldsToDcs msg mode).1 = msg := by
  unfold fieldsToDcs
  simp only [defaultCoding_of_defined h]
  split_ifs <;> rfl

end Kannel
