import Kannel.Gw.Smsc.SmppTlvFrame
import Kannel.Gw.Smsc.SmppTlvLoop

/-!
# Unpacking a packed PDU

Each kind of field has one lemma: the reader reads the value and stops behind it.
-/

namespace Kannel
open List
variable {size : Nat} [NeZero size] {p : SmppPdu size} {q : SmppPdu 2048}
  {tlvs : SmppTlvs} {smscId : Option Octstr} {data before after : Octstr}

def Mandatory.Fits (p : SmppPdu size) : Mandatory → Prop
  | .integer name width => p.int name < 256 ^ width
  | .nulterminated name maxOctets =>
    ∀ field ∈ p.str name, 0 ∉ field ∧ field.length < maxOctets
  | .octets _ _ => True

def Optional.Fits (p : SmppPdu size) : Optional → Prop
  | .integer name width =>
    p.tlvInt name = -1 ∨ (0 ≤ p.tlvInt name ∧ p.tlvInt name < 256 ^ width)
  | .nulterminated name maxLen =>
    ∀ field ∈ p.tlvStr name, field ≠ [] ∧ 0 ∉ field ∧ field.length < maxLen
  | .octets name minLen maxLen =>
    ∀ field ∈ p.tlvStr name, minLen ≤ field.length ∧ field.length ≤ maxLen ∧ field.length < 65536

instance Mandatory.decidableFits (p : SmppPdu size) : (m : Mandatory) → Decidable (m.Fits p)
  | .integer name width => inferInstanceAs (Decidable (p.int name < 256 ^ width))
  | .nulterminated name maxOctets =>
    inferInstanceAs (Decidable (∀ field ∈ p.str name, 0 ∉ field ∧ field.length < maxOctets))
  | .octets _ _ => inferInstanceAs (Decidable True)

instance Optional.decidableFits (p : SmppPdu size) : (o : Optional) → Decidable (o.Fits p)
  | .integer name width =>
    inferInstanceAs
      (Decidable (p.tlvInt name = -1 ∨ (0 ≤ p.tlvInt name ∧ p.tlvInt name < 256 ^ width)))
  | .nulterminated name maxLen =>
    inferInstanceAs
      (Decidable (∀ field ∈ p.tlvStr name, field ≠ [] ∧ 0 ∉ field ∧ field.length < maxLen))
  | .octets name minLen maxLen =>
    inferInstanceAs
      (Decidable (∀ field ∈ p.tlvStr name,
        minLen ≤ field.length ∧ field.length ≤ maxLen ∧ field.length < 65536))

/-- Packing sets the length fields of octet strings, so the mandatory integers are those it
writes. -/
structure SmppPdu.Fits (p : SmppPdu size) : Prop where
  commandId : p.int .commandId = p.type.id
  mandatory : ∀ m ∈ p.type.mandatory, m.Fits (fixLengths p)
  options : ∀ o ∈ p.type.options, o.Fits p
  tlv : ∀ dict, p.tlv = some dict → dictKeys dict = []

def asRead (field : Option Octstr) : Option Octstr :=
  if field.getD [] = [] then none else some (field.getD [])

def Mandatory.ReceivedAs (p : SmppPdu size) (q : SmppPdu 2048) : Mandatory → Prop
  | .integer name _ => q.int name = p.int name
  | .nulterminated name _ => q.str name = asRead (p.str name)
  | .octets name _ => q.str name = some ((p.str name).getD [])

def Optional.ReceivedAs (p : SmppPdu size) (q : SmppPdu 2048) : Optional → Prop
  | .integer name _ => q.tlvInt name = p.tlvInt name
  | .nulterminated name _ => q.tlvStr name = p.tlvStr name
  | .octets name _ _ => q.tlvStr name = p.tlvStr name

structure SmppPdu.ReceivedAs (p : SmppPdu size) (q : SmppPdu 2048) : Prop where
  type : q.type = p.type
  mandatory : ∀ m ∈ p.type.mandatory, m.ReceivedAs (fixLengths p) q
  options : ∀ o ∈ p.type.options, o.ReceivedAs p q
  tlv : q.tlv = p.type.optional.map fun _ => dictCreate Octstr 1024

theorem foldl_fixLength (ms : List Mandatory) (p : SmppPdu size) :
    (ms.foldl fixLength p).type = p.type ∧ (ms.foldl fixLength p).str = p.str := by
  refine foldlRecOn (motive := fun q : SmppPdu size => q.type = p.type ∧ q.str = p.str) ms fixLength
    ⟨rfl, rfl⟩ fun q hq m _ => ?_
  cases m <;> exact hq

variable {ms : List Mandatory}

theorem foldl_fixLength_other {name : IntField} (h : name ∉ ms.filterMap Mandatory.lengthField)
    (p : SmppPdu size) : (ms.foldl fixLength p).int name = p.int name := by
  induction ms generalizing p with
  | nil => rfl
  | cons m ms ih =>
    cases m with
    | octets str given =>
      simp only [filterMap_cons, Mandatory.lengthField, mem_cons, not_or] at h
      rw [foldl_cons, ih h.2]
      exact Function.update_of_ne h.1 _ _
    | integer _ _ => exact ih h _
    | nulterminated _ _ => exact ih h _

variable {given : IntField}

theorem foldl_fixLength_given (hnodup : (ms.filterMap Mandatory.lengthField).Nodup) {str : StrField}
    (h : .octets str given ∈ ms) (p : SmppPdu size) :
    (ms.foldl fixLength p).int given = ((p.str str).getD []).length := by
  induction ms generalizing p with
  | nil => cases h
  | cons m ms ih =>
    rw [foldl_cons]
    rcases mem_cons.mp h with rfl | h
    · simp only [filterMap_cons, Mandatory.lengthField, nodup_cons] at hnodup
      rw [foldl_fixLength_other hnodup.1]
      exact Function.update_self _ _ _
    · have hstr : (fixLength p m).str = p.str := by cases m <;> rfl
      rw [ih (hnodup.sublist ((sublist_cons_self m ms).filterMap _)) h, hstr]

theorem fixLengths_given {str : StrField} (h : .octets str given ∈ p.type.mandatory) :
    (fixLengths p).int given = (((fixLengths p).str str).getD []).length := by
  rw [fixLengths, foldl_fixLength_given p.type.wellLaidOut.lengthFields h, (foldl_fixLength _ p).2]

theorem fixLengths_commandId (p : SmppPdu size) :
    (fixLengths p).int .commandId = p.int .commandId := by
  refine foldl_fixLength_other (fun h => ?_) p
  exact (p.type.wellLaidOut.lengthOctet _ h).1 rfl

def SmppPdu.receive (p : SmppPdu size) (q : SmppPdu 2048) : Mandatory → SmppPdu 2048
  | .integer name _ => q.setInt name (p.int name)
  | .nulterminated name _ => q.setStr name (asRead (p.str name))
  | .octets name _ => q.setStr name (some ((p.str name).getD []))

theorem Mandatory.Fits.int_lt {name : IntField} {width : Nat}
    (hfits : (Mandatory.integer name width).Fits p)
    (hsized : (Mandatory.integer name width).Sized) : p.int name < 2 ^ 32 := by
  have hwidth : width ≤ 4 := hsized
  calc p.int name < 256 ^ width := hfits
    _ ≤ 256 ^ 4 := Nat.pow_le_pow_right (by decide) hwidth
    _ = 2 ^ 32 := by decide

theorem decodeInteger_encoded (before after : Octstr) {n width : Nat} (hn : n < 256 ^ width)
    (hwidth : width ≤ 7) :
    decodeInteger (before ++ (encodedInteger n width ++ after)) before.length width = n := by
  have hlen : (encodedInteger n width).length = width := by simp [encodedInteger]
  rw [decodeInteger_of_room (by simp [hlen]) hwidth, drop_left, take_left' hlen,
    encodedInteger, Int.toNat_natCast, BigEndian.value_octets_of_lt hn]

theorem octstrSearchChar_nul {field : Octstr} (h : 0 ∉ field) :
    octstrSearchChar (before ++ (field ++ 0 :: after)) 0 before.length =
      some (before.length + field.length) :=
  octstrSearchChar_some drop_left h

theorem copyUntilNul_nul (before after : Octstr) {field : Octstr} (h : 0 ∉ field) {maxOctets : Nat}
    (hmax : field.length ≤ maxOctets) :
    copyUntilNul (before ++ (field ++ 0 :: after)) before.length maxOctets =
      some (asRead (some field), before.length + field.length + 1) := by
  rw [copyUntilNul, octstrSearchChar_nul h]
  dsimp only
  rw [if_neg (by omega), Nat.add_sub_cancel_left, drop_left]
  cases field <;> simp [asRead]

theorem packNulterminated_eq {maxOctets : Nat} {field : Option Octstr}
    (h : (field.getD []).length < maxOctets) :
    packNulterminated maxOctets field = field.getD [] ++ [0] := by
  cases field with
  | none => rfl
  | some field =>
    rw [Option.getD_some] at h
    rw [packNulterminated]
    simp [Nat.not_le.mpr h]

variable {m : Mandatory}

theorem unpackMandatory_packed (hfits : m.Fits p) (hsized : m.Sized)
    (hlen : ∀ str given, m = .octets str given →
      q.int given = p.int given ∧ p.int given = ((p.str str).getD []).length ∧
        p.int given < 2 ^ 32) (hdata : data = before ++ (packMandatory p m ++ after)) :
    unpackMandatory data ⟨before.length, q⟩ m =
      .ok ⟨(before ++ packMandatory p m).length, p.receive q m⟩ := by
  cases m with
  | integer name width =>
    have hwidth : width ≤ 4 := hsized
    have hbig := hfits.int_lt hsized
    have hval := decodeInteger_encoded before after hfits (by omega)
    simp only [unpackMandatory, hdata, packMandatory, hval]
    have hulong : toUlong (p.int name) = p.int name := by unfold toUlong; omega
    simp [hulong, encodedInteger, SmppPdu.receive]
  | nulterminated name maxOctets =>
    have hgood : 0 ∉ (p.str name).getD [] ∧ ((p.str name).getD []).length < maxOctets := by
      cases hstr : p.str name with
      | none => exact ⟨by simp, hsized.1⟩
      | some field => exact hfits field hstr
    have hpack : packMandatory p (.nulterminated name maxOctets) = (p.str name).getD [] ++ [0] :=
      packNulterminated_eq hgood.2
    have hcopy := copyUntilNul_nul before after hgood.1 hgood.2.le
    rw [hpack, append_assoc, singleton_append] at hdata
    simp only [unpackMandatory, hdata, hcopy, hpack]
    have hread : asRead (some ((p.str name).getD [])) = asRead (p.str name) := rfl
    simp [SmppPdu.receive, hread, Nat.add_assoc]
  | octets str given =>
    obtain ⟨hq, hp, hbig⟩ := hlen str given rfl
    have hlong : toLong (p.int given) = p.int given :=
      Int.bmod_eq_of_le (by omega) (by omega)
    simp only [unpackMandatory, hq, hlong, octstrCopy_nat, ok_bind]
    rw [hdata, packMandatory, drop_left, take_left' hp.symm]
    simp [hp, SmppPdu.receive, pure_eq_ok]

theorem unpackMandatory_foldlM {known : List IntField} (hknown : lengthsKnown known ms = true)
    (hq : ∀ name ∈ known, q.int name = p.int name ∧ p.int name < 2 ^ 32)
    (hfits : ∀ m ∈ ms, m.Fits p) (hsized : ∀ m ∈ ms, m.Sized)
    (hlen : ∀ str given, .octets str given ∈ ms → p.int given = ((p.str str).getD []).length)
    (hdata : data = before ++ (ms.flatMap (packMandatory p) ++ after)) :
    ms.foldlM (unpackMandatory data) ⟨before.length, q⟩ =
      .ok ⟨(before ++ ms.flatMap (packMandatory p)).length, ms.foldl p.receive q⟩ := by
  induction ms generalizing before q known with
  | nil => simp [pure_eq_ok]
  | cons m ms ih =>
    rw [flatMap_cons, append_assoc] at hdata
    have hm := hfits m mem_cons_self
    have hms := hsized m mem_cons_self
    have hgiven : ∀ str given, m = .octets str given →
        q.int given = p.int given ∧ p.int given = ((p.str str).getD []).length ∧
          p.int given < 2 ^ 32 := by
      rintro str given rfl
      simp only [lengthsKnown, Bool.and_eq_true, contains_iff_mem] at hknown
      obtain ⟨hint, hbig⟩ := hq given hknown.1
      exact ⟨hint, hlen str given mem_cons_self, hbig⟩
    obtain ⟨known', hknown', hq'⟩ : ∃ known', lengthsKnown known' ms = true ∧
        ∀ name ∈ known', (p.receive q m).int name = p.int name ∧ p.int name < 2 ^ 32 := by
      cases m with
      | integer name width =>
        refine ⟨name :: known, hknown, fun other hother => ?_⟩
        by_cases heq : other = name
        · subst heq
          exact ⟨Function.update_self _ _ _, hm.int_lt hms⟩
        · obtain ⟨hint, hother⟩ := hq other ((mem_cons.mp hother).resolve_left heq)
          exact ⟨(Function.update_of_ne heq _ _).trans hint, hother⟩
      | nulterminated name maxOctets => exact ⟨known, hknown, hq⟩
      | octets str given =>
        simp only [lengthsKnown, Bool.and_eq_true] at hknown
        exact ⟨known, hknown.2, hq⟩
    rw [foldlM_cons, unpackMandatory_packed hm hms hgiven hdata, ok_bind,
      ih hknown' hq' (fun m hm => hfits m (mem_cons_of_mem _ hm))
        (fun m hm => hsized m (mem_cons_of_mem _ hm))
        (fun str given h => hlen str given (mem_cons_of_mem _ h))
        (by rw [hdata, append_assoc])]
    simp

theorem Mandatory.ReceivedAs.receive {m' : Mandatory} (h : m.ReceivedAs p q)
    (hne : m.name ≠ m'.name) : m.ReceivedAs p (p.receive q m') := by
  cases m <;> cases m' <;>
    simp only [Mandatory.ReceivedAs, Mandatory.name, SmppPdu.receive, SmppPdu.setInt,
      SmppPdu.setStr, ne_eq, Sum.inl.injEq, Sum.inr.injEq] at h hne ⊢ <;>
    first
      | exact h
      | exact (Function.update_of_ne hne _ _).trans h

theorem Mandatory.receivedAs_receive (p : SmppPdu size) (q : SmppPdu 2048) (m : Mandatory) :
    m.ReceivedAs p (p.receive q m) := by
  cases m <;> exact Function.update_self _ _ _

theorem Mandatory.ReceivedAs.foldl (h : m.ReceivedAs p q) (hnot : m.name ∉ ms.map Mandatory.name) :
    m.ReceivedAs p (ms.foldl p.receive q) := by
  induction ms generalizing q with
  | nil => exact h
  | cons m' ms ih =>
    rw [map_cons, mem_cons, not_or] at hnot
    exact ih (h.receive hnot.1) hnot.2

theorem receivedAs_foldl (hnodup : (ms.map Mandatory.name).Nodup) (q : SmppPdu 2048) :
    ∀ m ∈ ms, m.ReceivedAs p (ms.foldl p.receive q) := by
  induction ms generalizing q with
  | nil => simp
  | cons m ms ih =>
    rw [map_cons, nodup_cons] at hnodup
    intro m' hm'
    rcases mem_cons.mp hm' with rfl | hm'
    · exact (Mandatory.receivedAs_receive p q m').foldl hnodup.1
    · exact ih hnodup.2 _ m' hm'

theorem foldl_receive_frame (ms : List Mandatory) (p : SmppPdu size) (q : SmppPdu 2048) :
    (ms.foldl p.receive q).type = q.type ∧ (ms.foldl p.receive q).tlvInt = q.tlvInt ∧
      (ms.foldl p.receive q).tlvStr = q.tlvStr ∧ (ms.foldl p.receive q).tlv = q.tlv := by
  refine foldlRecOn (motive := fun q' => q'.type = q.type ∧ q'.tlvInt = q.tlvInt ∧
    q'.tlvStr = q.tlvStr ∧ q'.tlv = q.tlv) ms p.receive ⟨rfl, rfl, rfl, rfl⟩ fun q' hq m _ => ?_
  cases m <;> exact hq

def SmppPdu.receiveOption (p : SmppPdu size) (q : SmppPdu 2048) : Optional → SmppPdu 2048
  | .integer name _ => if p.tlvInt name ≥ 0 then q.setTlvInt name (p.tlvInt name) else q
  | .nulterminated name _ => (p.tlvStr name).elim q fun field => q.setTlvStr name (some field)
  | .octets name _ _ => (p.tlvStr name).elim q fun field => q.setTlvStr name (some field)

variable {o : Optional}

theorem receiveOption_of_none (hfits : o.Fits p) (h : packOptional p o = none) :
    p.receiveOption q o = q := by
  cases o with
  | integer name width =>
    simp only [packOptional, ite_eq_right_iff, reduceCtorEq, imp_false] at h
    exact if_neg h
  | nulterminated name maxLen =>
    simp only [packOptional, Option.map_eq_none_iff] at h
    simp [SmppPdu.receiveOption, h]
  | octets name minLen maxLen =>
    cases hstr : p.tlvStr name with
    | none => simp [SmppPdu.receiveOption, hstr]
    | some field =>
      have hlen := hfits field hstr
      simp only [packOptional, hstr, Option.bind_some, ite_eq_left_iff, reduceCtorEq,
        imp_false, not_not] at h
      omega

variable {f : Tlv.Frame}

theorem packOptional_some (hfits : o.Fits p) (hsized : o.Sized) (h : packOptional p o = some f) :
    f.tag = o.tag ∧ f.Honest := by
  refine ⟨?_, (packOptional_honest hsized).mpr ?_ f h⟩
  · cases o with
    | integer name width =>
      simp only [packOptional] at h
      split at h
      · cases h; rfl
      · cases h
    | nulterminated name maxLen =>
      obtain ⟨field, -, rfl⟩ := Option.map_eq_some_iff.mp h
      rfl
    | octets name minLen maxLen =>
      obtain ⟨field, -, h⟩ := Option.bind_eq_some_iff.mp h
      split at h
      · cases h
      · cases h; rfl
  · cases o with
    | integer name width => trivial
    | nulterminated name maxLen => exact fun field hstr => (hfits field hstr).2.2.ne
    | octets name minLen maxLen => exact fun field hstr _ _ => (hfits field hstr).2.2

theorem readOptional_packed (hfits : o.Fits p) (hsized : o.Sized) (hf : packOptional p o = some f)
    (hdata : data = before ++ (f.value ++ after)) :
    readOptional data ⟨before.length, q⟩ f.value.length none o =
      .ok ⟨(before ++ f.value).length, p.receiveOption q o⟩ := by
  cases o with
  | integer name width =>
    simp only [packOptional] at hf
    split at hf
    · next hpos =>
      cases hf
      have hwidth : width ≤ 5 := hsized
      have hlt : p.tlvInt name < 256 ^ width := by
        rcases hfits with h | h
        · omega
        · exact h.2
      have hnat : (toUlong (p.tlvInt name) : Int) = p.tlvInt name := by
        have hbig : (256 : Int) ^ width ≤ 256 ^ 5 :=
          pow_le_pow_right₀ (by decide) hwidth
        unfold toUlong
        omega
      have hval := decodeInteger_encoded before after
        (n := toUlong (p.tlvInt name)) (by exact_mod_cast hnat ▸ hlt)
        (by omega : width ≤ 7)
      rw [hnat] at hval
      have hlen : (encodedInteger (toUlong (p.tlvInt name)) width).length = width := by
        simp [encodedInteger]
      simp only [readOptional, hdata, hlen, hval]
      rw [if_neg (by omega), if_neg (by omega)]
      simp [SmppPdu.receiveOption, hpos, putTlv, hlen]
    · cases hf
  | nulterminated name maxLen =>
    obtain ⟨field, hstr, rfl⟩ := Option.map_eq_some_iff.mp hf
    obtain ⟨hne, hnul, hlen⟩ := hfits field hstr
    have hval : packNulterminated maxLen (some field) = field ++ [0] := packNulterminated_eq hlen
    simp only [hval, append_assoc, singleton_append] at hdata ⊢
    have hcopy := copyUntilNul_nul before after hnul
      (by simp : field.length ≤ (field ++ [0]).length)
    have hread : asRead (some field) = some field := by simp [asRead, hne]
    simp only [readOptional, hdata, hcopy, hread]
    rw [if_neg (by simp; omega)]
    simp [SmppPdu.receiveOption, hstr, putTlv, Nat.add_assoc]
  | octets name minLen maxLen =>
    obtain ⟨field, hstr, hf⟩ := Option.bind_eq_some_iff.mp hf
    obtain ⟨hlo, hhi, -⟩ := hfits field hstr
    rw [if_neg (by omega)] at hf
    cases hf
    have hroom : before.length + field.length ≤ data.length := by simp [hdata]
    simp only [readOptional]
    rw [if_neg (by omega), octstrCopy_nat, hdata, drop_left]
    simp [SmppPdu.receiveOption, hstr, putTlv, pure_eq_ok]

theorem find_tag {options : List Optional} (hnodup : (options.map Optional.tag).Nodup)
    {o : Optional} (ho : o ∈ options) : options.find? (·.tag = o.tag) = some o := by
  induction options with
  | nil => cases ho
  | cons o' options ih =>
    rw [map_cons, nodup_cons] at hnodup
    rcases mem_cons.mp ho with rfl | ho
    · simp
    · have hne : o'.tag ≠ o.tag := by
        intro heq
        exact hnodup.1 (heq ▸ List.mem_map_of_mem ho)
      simp [hne, ih hnodup.2 ho]

theorem optionalRound_packed {t : PduType} (hconf : ∀ tag, smppTlvGetByTag tlvs smscId tag = none)
    {o : Optional} (ho : o ∈ t.options) (hfits : o.Fits p) (hf : packOptional p o = some f)
    (hdata : data = before ++ (f.octets ++ after)) :
    optionalRound tlvs smscId t.options data ⟨before.length, q⟩ =
      .ok ⟨(before ++ f.octets).length, p.receiveOption q o⟩ := by
  have hsized := t.wellLaidOut.options.2 o ho
  obtain ⟨htag, hhonest⟩ := packOptional_some hfits hsized hf
  have hroom : before.length + 4 ≤ data.length := by simp [hdata]; omega
  have hopt : Tlv.tagAt data before.length = o.tag := by
    rw [Tlv.tagAt_frame hdata, htag, Nat.mod_eq_of_lt (t.wellLaidOut.tag_lt o ho)]
  have hlen : Tlv.lengthAt data before.length = f.value.length :=
    (Tlv.lengthAt_frame hdata).trans hhonest
  have hvalue : data = (before ++ (BigEndian.octets 2 f.tag ++ BigEndian.octets 2 f.length)) ++
      (f.value ++ after) := by
    rw [hdata, Tlv.Frame.octets]
    simp
  have hread := readOptional_packed (q := q) hfits hsized hf hvalue
  have hstart : (before ++ (BigEndian.octets 2 f.tag ++ BigEndian.octets 2 f.length)).length =
    before.length + 4 := by simp
  rw [hstart] at hread
  unfold optionalRound
  simp only [optTag_eq (s := ⟨before.length, q⟩) hroom, optLen_eq (s := ⟨before.length, q⟩) hroom,
    hopt, hlen, hconf, find_tag t.wellLaidOut.tags ho, hread]
  simp [Tlv.Frame.octets]

variable {rest : List Optional}

theorem optionalLoop_packed {t : PduType} (hconf : ∀ tag, smppTlvGetByTag tlvs smscId tag = none)
    (hrest : ∀ o ∈ rest, o ∈ t.options ∧ o.Fits p) {fuel : Nat}
    (hdata : data = before ++ (rest.filterMap (packOptional p)).flatMap Tlv.Frame.octets)
    (hfuel : (rest.filterMap (packOptional p)).length ≤ fuel) :
    optionalLoop tlvs smscId t.options data fuel ⟨before.length, q⟩ =
      .ok ⟨data.length, rest.foldl p.receiveOption q⟩ := by
  induction rest generalizing before q fuel with
  | nil =>
    have hend : before.length = data.length := by simp [hdata]
    cases fuel with
    | zero => rw [hend]; rfl
    | succ fuel =>
      rw [optionalLoop, if_neg (by simp [hend]), hend]
      rfl
  | cons o rest ih =>
    obtain ⟨ho, hfits⟩ := hrest o mem_cons_self
    have hrest' := fun o' h => hrest o' (mem_cons_of_mem o h)
    cases hf : packOptional p o with
    | none =>
      rw [filterMap_cons_none hf] at hdata hfuel
      rw [ih hrest' hdata hfuel, foldl_cons, receiveOption_of_none hfits hf]
    | some f =>
      rw [filterMap_cons_some hf, flatMap_cons] at hdata
      rw [filterMap_cons_some hf, length_cons] at hfuel
      obtain ⟨fuel, rfl⟩ : ∃ k, fuel = k + 1 := ⟨fuel - 1, by omega⟩
      have hroom : before.length + 4 ≤ data.length := by simp [hdata]; omega
      rw [optionalLoop, if_pos hroom, optionalRound_packed hconf ho hfits hf hdata, ok_bind,
        ih hrest' (by rw [hdata, append_assoc]) (by omega), foldl_cons]

structure Entered (p : SmppPdu size) (q : SmppPdu 2048) : Prop where
  int : ∀ name, q.tlvInt name = -1 ∨ q.tlvInt name = p.tlvInt name
  str : ∀ name, q.tlvStr name = none ∨ q.tlvStr name = p.tlvStr name

theorem setTlvInt_eq (q : SmppPdu 2048) (name name' : TlvInt) (val : Int) :
    (q.setTlvInt name val).tlvInt name' = if name' = name then val else q.tlvInt name' :=
  Function.update_apply _ _ _ _

theorem setTlvStr_eq (q : SmppPdu 2048) (name name' : TlvStr) (val : Option Octstr) :
    (q.setTlvStr name val).tlvStr name' = if name' = name then val else q.tlvStr name' :=
  Function.update_apply _ _ _ _

theorem receiveOption_tlvInt (p : SmppPdu size) (q : SmppPdu 2048) (o : Optional) (name : TlvInt) :
    (p.receiveOption q o).tlvInt name = q.tlvInt name ∨
      (p.receiveOption q o).tlvInt name = p.tlvInt name := by
  cases o with
  | integer name' width =>
    simp only [SmppPdu.receiveOption]
    split
    · rw [setTlvInt_eq]
      split
      · next heq => exact .inr (heq ▸ rfl)
      · exact .inl rfl
    · exact .inl rfl
  | nulterminated name' | octets name' =>
    simp only [SmppPdu.receiveOption]
    cases p.tlvStr name' <;> exact .inl rfl

theorem receiveOption_tlvStr (p : SmppPdu size) (q : SmppPdu 2048) (o : Optional) (name : TlvStr) :
    (p.receiveOption q o).tlvStr name = q.tlvStr name ∨
      (p.receiveOption q o).tlvStr name = p.tlvStr name := by
  have hset (name' : TlvStr) :
      ((p.tlvStr name').elim q fun field => q.setTlvStr name' (some field)).tlvStr name =
        q.tlvStr name ∨
      ((p.tlvStr name').elim q fun field => q.setTlvStr name' (some field)).tlvStr name =
        p.tlvStr name := by
    cases hstr : p.tlvStr name' with
    | none => exact .inl rfl
    | some field =>
      rw [Option.elim_some, setTlvStr_eq]
      split
      · next heq => exact .inr (by rw [heq, hstr])
      · exact .inl rfl
  cases o with
  | integer name' width =>
    simp only [SmppPdu.receiveOption]
    split <;> exact .inl rfl
  | nulterminated name' maxLen => exact hset name'
  | octets name' minLen maxLen => exact hset name'

theorem Entered.receiveOption (h : Entered p q) (o : Optional) :
    Entered p (p.receiveOption q o) where
  int name := by
    rcases receiveOption_tlvInt p q o name with heq | heq
    · rw [heq]
      exact h.int name
    · exact .inr heq
  str name := by
    rcases receiveOption_tlvStr p q o name with heq | heq
    · rw [heq]
      exact h.str name
    · exact .inr heq

theorem Optional.ReceivedAs.receiveOption (h : o.ReceivedAs p q) (o' : Optional) :
    o.ReceivedAs p (p.receiveOption q o') := by
  cases o with
  | integer name width => exact (receiveOption_tlvInt p q o' name).elim (·.trans h) id
  | nulterminated name maxLen => exact (receiveOption_tlvStr p q o' name).elim (·.trans h) id
  | octets name minLen maxLen => exact (receiveOption_tlvStr p q o' name).elim (·.trans h) id

theorem Entered.receivedAs (h : Entered p q) (hfits : o.Fits p) :
    o.ReceivedAs p (p.receiveOption q o) := by
  have hstr (name : TlvStr) :
      ((p.tlvStr name).elim q fun field => q.setTlvStr name (some field)).tlvStr name =
        p.tlvStr name := by
    cases hs : p.tlvStr name with
    | none => exact (h.str name).elim id (·.trans hs)
    | some field => exact Function.update_self _ _ _
  cases o with
  | integer name width =>
    simp only [Optional.ReceivedAs, SmppPdu.receiveOption]
    split
    · exact Function.update_self _ _ _
    · next hneg =>
      have habsent : p.tlvInt name = -1 := hfits.resolve_right fun hr => hneg hr.1
      exact (h.int name).elim (·.trans habsent.symm) id
  | nulterminated name maxLen => exact hstr name
  | octets name minLen maxLen => exact hstr name

theorem Optional.ReceivedAs.foldl (h : o.ReceivedAs p q) :
    o.ReceivedAs p (rest.foldl p.receiveOption q) := by
  induction rest generalizing q with
  | nil => exact h
  | cons o' rest ih => exact ih (h.receiveOption o')

theorem Entered.foldl (h : Entered p q) (hfits : ∀ o ∈ rest, o.Fits p) :
    ∀ o ∈ rest, o.ReceivedAs p (rest.foldl p.receiveOption q) := by
  induction rest generalizing q with
  | nil => simp
  | cons o rest ih =>
    intro o' ho'
    rcases mem_cons.mp ho' with rfl | ho'
    · exact (h.receivedAs (hfits o' mem_cons_self)).foldl
    · exact ih (h.receiveOption o) (fun o ho => hfits o (mem_cons_of_mem _ ho)) o' ho'

theorem foldl_receiveOption_frame (rest : List Optional) (p : SmppPdu size) (q : SmppPdu 2048) :
    (rest.foldl p.receiveOption q).type = q.type ∧
      (rest.foldl p.receiveOption q).int = q.int ∧
      (rest.foldl p.receiveOption q).str = q.str ∧
      (rest.foldl p.receiveOption q).tlv = q.tlv := by
  refine foldlRecOn (motive := fun q' => q'.type = q.type ∧ q'.int = q.int ∧ q'.str = q.str ∧
    q'.tlv = q.tlv) rest p.receiveOption ⟨rfl, rfl, rfl, rfl⟩ fun q' hq o _ => ?_
  cases o with
  | integer name width =>
    simp only [SmppPdu.receiveOption]
    split <;> exact hq
  | nulterminated name maxLen =>
    simp only [SmppPdu.receiveOption]
    cases p.tlvStr name <;> exact hq
  | octets name minLen maxLen =>
    simp only [SmppPdu.receiveOption]
    cases p.tlvStr name <;> exact hq

def optionOctets (p : SmppPdu size) : Octstr :=
  (p.type.options.filterMap (packOptional p)).flatMap Tlv.Frame.octets

theorem length_flatMap_le {α : Type} {g : α → Octstr} {as : List α} {c : Nat}
    (h : ∀ a ∈ as, (g a).length ≤ c) : (as.flatMap g).length ≤ as.length * c := by
  induction as with
  | nil => simp
  | cons a as ih =>
    have ha := h a mem_cons_self
    have hrest := ih fun b hb => h b (mem_cons_of_mem _ hb)
    rw [flatMap_cons, length_append, length_cons, Nat.add_mul]
    omega

theorem length_le_flatMap_octets (fs : List Tlv.Frame) :
    fs.length ≤ (fs.flatMap Tlv.Frame.octets).length := by
  induction fs with
  | nil => simp
  | cons f fs ih =>
    rw [flatMap_cons, length_append, length_cons, Tlv.Frame.length_octets]
    omega

section Fitting
variable (h : p.Fits)
include h

theorem SmppPdu.Fits.length_packMandatory :
    ∀ m ∈ p.type.mandatory, (packMandatory (fixLengths p) m).length ≤ 65536 := by
  intro m hm
  have hlayout := p.type.wellLaidOut
  have hsized := hlayout.mandatory.2 m hm
  cases m with
  | integer name width =>
    have hwidth : width ≤ 4 := hsized
    simp [packMandatory, encodedInteger]
    omega
  | nulterminated name maxOctets =>
    obtain ⟨hpos, hmax⟩ : 1 ≤ maxOctets ∧ maxOctets < 65536 := hsized
    rw [packMandatory]
    cases (fixLengths p).str name with
    | none => simp [packNulterminated]
    | some field =>
      rw [length_packNulterminated hpos]
      omega
  | octets str given =>
    have hmem : given ∈ p.type.mandatory.filterMap Mandatory.lengthField :=
      mem_filterMap.mpr ⟨_, hm, rfl⟩
    have hlt : (fixLengths p).int given < 256 ^ 1 :=
      h.mandatory _ (hlayout.lengthOctet given hmem).2
    rw [packMandatory, ← fixLengths_given hm]
    omega

theorem SmppPdu.Fits.length_lt :
    (packMandatories p).length + (optionOctets p).length + 4 < 256 ^ 4 := by
  have hlayout := p.type.wellLaidOut
  have hmand := length_flatMap_le h.length_packMandatory
  have hopts : ∀ f ∈ p.type.options.filterMap (packOptional p), f.octets.length ≤ 65540 := by
    intro f hf
    obtain ⟨o, ho, hf⟩ := mem_filterMap.mp hf
    have hhonest := (packOptional_some (h.options o ho) (hlayout.options.2 o ho) hf).2
    rw [Tlv.Frame.length_octets, ← hhonest]
    omega
  have hframes := length_flatMap_le hopts
  have hcount := length_filterMap_le (packOptional p) p.type.options
  have h₁ := hlayout.mandatory.1
  have h₂ := hlayout.options.1
  unfold packMandatories optionOctets
  omega

theorem SmppPdu.Fits.packOptionals_eq (tlvs : SmppTlvs) (smscId : Option Octstr) :
    (packOptionals tlvs smscId p).flatMap Tlv.Frame.octets = optionOctets p := by
  have hdict : packDict tlvs smscId p.tlv = [] := by
    cases htlv : p.tlv with
    | none => rfl
    | some dict => simp [packDict, configuredValues, h.tlv dict htlv]
  unfold optionOctets packOptionals PduType.options
  cases p.type.optional with
  | none => rfl
  | some options => simp [hdict]

theorem SmppPdu.Fits.type_read (rest : Octstr) :
    4 ≤ (packMandatories p ++ rest).length ∧
      PduType.ofId (toUlong (decodeInteger (packMandatories p ++ rest) 0 4)) = some p.type := by
  have hid : (fixLengths p).int .commandId = p.type.id :=
    (fixLengths_commandId p).trans h.commandId
  have hlt : p.type.id < 256 ^ 4 := hid ▸ h.mandatory (.integer .commandId 4) mem_cons_self
  obtain ⟨after, hafter⟩ : ∃ after, packMandatories p ++ rest =
      [] ++ (encodedInteger p.type.id 4 ++ after) := by
    refine ⟨((p.type.mandatory.drop 1).flatMap (packMandatory (fixLengths p))) ++ rest, ?_⟩
    rw [← hid]
    rfl
  have hval := decodeInteger_encoded [] after hlt (by decide)
  rw [hafter]
  refine ⟨by simp [encodedInteger], ?_⟩
  have hulong : toUlong p.type.id = p.type.id := by unfold toUlong; omega
  have hread : decodeInteger ([] ++ (encodedInteger p.type.id 4 ++ after)) 0 4 = p.type.id := hval
  rw [hread, hulong, PduType.ofId_id]

theorem SmppPdu.Fits.mandatories_read (rest : Octstr) :
    unpackMandatories (packMandatories p ++ rest) p.type =
      .ok ⟨(packMandatories p).length,
        p.type.mandatory.foldl (fixLengths p).receive (smppPduCreate p.type 0)⟩ := by
  have hlayout := p.type.wellLaidOut
  have hdata : packMandatories p ++ rest =
      [] ++ (p.type.mandatory.flatMap (packMandatory (fixLengths p)) ++ rest) := by
    rw [packMandatories, nil_append]
  have hread := unpackMandatory_foldlM (q := smppPduCreate p.type 0) hlayout.lengthsKnown
    (by simp) h.mandatory hlayout.mandatory.2 (fun str given hm => fixLengths_given hm) hdata
  rw [nil_append, length_nil] at hread
  rw [unpackMandatories, hread, packMandatories]

theorem SmppPdu.Fits.options_read (hconf : ∀ tag, smppTlvGetByTag tlvs smscId tag = none)
    (q : SmppPdu 2048) :
    optionalLoop tlvs smscId p.type.options (packMandatories p ++ optionOctets p)
        (packMandatories p ++ optionOctets p).length ⟨(packMandatories p).length, q⟩ =
      .ok ⟨(packMandatories p ++ optionOctets p).length,
        p.type.options.foldl p.receiveOption q⟩ := by
  apply optionalLoop_packed hconf (fun o ho => ⟨ho, h.options o ho⟩) rfl
  have hcount : _ ≤ (optionOctets p).length := length_le_flatMap_octets _
  rw [length_append]
  omega

theorem SmppPdu.Fits.unpack_pack (hconf : ∀ tag, smppTlvGetByTag tlvs smscId tag = none) :
    ∃ q, smppPduUnpack tlvs smscId ((smppPduPack tlvs smscId p).drop 4) = .ok q ∧
      p.ReceivedAs q := by
  have hlayout := p.type.wellLaidOut
  have hbody : (smppPduPack tlvs smscId p).drop 4 = packMandatories p ++ optionOctets p := by
    rw [smppPduPack, h.packOptionals_eq]
    exact drop_left' (by simp [encodedInteger])
  obtain ⟨hfour, htype⟩ := h.type_read (optionOctets p)
  rw [hbody]
  let q₀ := p.type.mandatory.foldl (fixLengths p).receive (smppPduCreate p.type 0)
  obtain ⟨hkeep, hint, hstr, htlv⟩ :=
    foldl_receive_frame p.type.mandatory (fixLengths p) (smppPduCreate p.type 0)
  obtain ⟨hkeep', hint', hstr', htlv'⟩ := foldl_receiveOption_frame p.type.options p q₀
  refine ⟨p.type.options.foldl p.receiveOption q₀, ?_, ?_, ?_, ?_, ?_⟩
  · have hloop := h.options_read hconf q₀
    rw [smppPduUnpack, htype]
    simp only [h.mandatories_read, ok_bind]
    unfold PduType.options at hloop ⊢
    cases hopt : p.type.optional with
    | none => rfl
    | some options =>
      simp only [hopt, Option.getD_some] at hloop ⊢
      rw [hloop]
      rfl
  · exact hkeep'.trans hkeep
  · intro m hm
    have hrec := receivedAs_foldl (p := fixLengths p) hlayout.names (smppPduCreate p.type 0) m hm
    cases m with
    | integer name width => exact (congrFun hint' name).trans hrec
    | nulterminated name maxOctets => exact (congrFun hstr' name).trans hrec
    | octets name given => exact (congrFun hstr' name).trans hrec
  · refine Entered.foldl ⟨fun name => .inl ?_, fun name => .inl ?_⟩ h.options
    · exact congrFun hint name
    · exact congrFun hstr name
  · exact htlv'.trans htlv

theorem SmppPdu.Fits.length_field (tlvs : SmppTlvs) (smscId : Option Octstr) :
    BigEndian.value ((smppPduPack tlvs smscId p).take 4) = (smppPduPack tlvs smscId p).length := by
  have hlt := h.length_lt
  rw [smppPduPack, h.packOptionals_eq, take_left' (by simp [encodedInteger]), encodedInteger]
  rw [← length_append] at hlt
  rw [show ((4 : Int).toNat) = 4 from rfl, BigEndian.value_octets_of_lt hlt]
  simp
  omega

/-- **The round trip.**  The PDU read has the type, the mandatory fields (an empty
NUL-terminated one becomes `NULL`, a missing octet string empty, the length of an octet string
is set) and the optional parameters of the one packed. -/
theorem pdu_round_trip (hconf : ∀ tag, smppTlvGetByTag tlvs smscId tag = none) :
    (∃ q, smppPduUnpack tlvs smscId ((smppPduPack tlvs smscId p).drop 4) = .ok q ∧ p.ReceivedAs q) ∧
    BigEndian.value ((smppPduPack tlvs smscId p).take 4) = (smppPduPack tlvs smscId p).length :=
  ⟨h.unpack_pack hconf, h.length_field tlvs smscId⟩

end Fitting

def shortReceipt : SmppPdu 2048 :=
  ((receipt 10).setStr .sourceAddr (some [49, 50])).setStr .shortMessage (some [105, 100])

theorem shortReceipt_round_trip :
    (∃ q, smppPduUnpack ⟨none, none⟩ none ((smppPduPack ⟨none, none⟩ none shortReceipt).drop 4) =
      .ok q ∧ shortReceipt.ReceivedAs q) ∧
    BigEndian.value ((smppPduPack ⟨none, none⟩ none shortReceipt).take 4) =
      (smppPduPack ⟨none, none⟩ none shortReceipt).length := by
  refine pdu_round_trip ⟨rfl, by decide +kernel, by decide +kernel, ?_⟩ fun _ => rfl
  intro dict hdict
  have hnew : dictCreate Octstr 1024 = dict := Option.some.inj hdict
  rw [← hnew]
  exact dictKeys_dictCreate 1024

def emptySystemId : SmppPdu 2048 := (smppPduCreate .outbind 1).setStr .systemId (some [])

theorem emptySystemId_lost :
    emptySystemId.Fits ∧ emptySystemId.str .systemId = some [] ∧
    (smppPduUnpack ⟨none, none⟩ none ((smppPduPack ⟨none, none⟩ none emptySystemId).drop 4)).map
      (·.str .systemId) = .ok none := by
  refine ⟨⟨rfl, by decide +kernel, by decide +kernel, ?_⟩, rfl, by decide +kernel⟩
  rintro dict ⟨⟩

end Kannel
