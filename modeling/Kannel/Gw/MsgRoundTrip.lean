import Mathlib.Data.List.TakeWhile
import Kannel.Gw.MsgParse

/-!
# Unpacking what was packed

Reading follows the fields; `Tracks` relates the `int` position to the octets consumed.
-/

namespace Kannel
open List
attribute [simp] appendInteger packField

theorem packField_append (os : Octstr) (k : FieldKind) (v : k.Val) :
    packField os k v = os ++ packField [] k v := by
  cases k with
  | integer => simp
  | octstr => cases v <;> simp [appendString]
  | uuid => simp [appendUuid]
  | void => simp

variable (ks : List FieldKind) (vs : Fields ks)

theorem packFields_append (os : Octstr) : packFields ks vs os = os ++ packFields ks vs [] := by
  induction ks generalizing os with
  | nil => simp [packFields]
  | cons k ks ih =>
    obtain ⟨v, vs⟩ := vs
    rw [packFields, packFields, ih vs (packField os k v), ih vs (packField [] k v),
      packField_append os, append_assoc]

theorem packFields_cons (k : FieldKind) (ks : List FieldKind) (v : k.Val) (vs : Fields ks) :
    packFields (k :: ks) (v, vs) [] = packField [] k v ++ packFields ks vs [] := by
  rw [packFields, packFields_append]

theorem length_packField (k : FieldKind) (v : k.Val) :
    (packField [] k v).length =
      match k, v with
      | .integer, _ => 4
      | .octstr, none => 4
      | .octstr, some s => 4 + s.length
      | .uuid, _ => 40
      | .void, _ => 0 := by
  cases k with
  | integer => simp [length_encodeNetworkLong]
  | octstr =>
    cases v <;> simp [appendString, length_encodeNetworkLong]
  | uuid =>
    simp [appendUuid, length_encodeNetworkLong, length_uuidUnparse, uuidStrLen]
  | void => rfl

theorem four_le_packField (k : FieldKind) (v : k.Val) (hk : k ≠ .void) :
    4 ≤ (packField [] k v).length := by
  rw [length_packField]
  cases k with
  | integer => exact Nat.le_refl 4
  | octstr => cases v <;> dsimp only <;> omega
  | uuid => exact (by decide : 4 ≤ 40)
  | void => exact absurd rfl hk

section Read
variable (pre tail : Octstr)

theorem announced_packed (n : Int) :
    announced (pre ++ (appendInteger [] n ++ tail)) pre.length = toInt n := by
  unfold announced appendInteger
  rw [nil_append, drop_left, take_left' (length_encodeNetworkLong _), decode_encodeNetworkLong]

theorem stringAt_packed {n : Int} {s : Octstr} (hn : toInt n = s.length) :
    stringAt (pre ++ (appendInteger [] n ++ (s ++ tail))) pre.length = s := by
  have hdrop : (pre ++ (appendInteger [] n ++ (s ++ tail))).drop (pre.length + 4) = s ++ tail := by
    have h4 : (appendInteger [] n).length = 4 := length_encodeNetworkLong _
    rw [drop_length_add_append, drop_left' h4]
  unfold stringAt
  rw [announced_packed, hdrop, hn, Int.toNat_natCast, take_left]

end Read

def clearField : (k : FieldKind) → k.Val → k.Val
  | .void, _ => none
  | .integer, i => i
  | .octstr, s => s
  | .uuid, id => id

def clearFields : (ks : List FieldKind) → Fields ks → Fields ks
  | [], _ => ()
  | k :: ks, (v, vs) => (clearField k v, clearFields ks vs)

def Sms.clearVoid (m : Sms) : Sms := { m with splitParts := none }

def Msg.clearVoid : Msg → Msg
  | .sms m => .sms m.clearVoid
  | m => m

variable (m : Msg)

theorem Msg.ofFields_clearFields :
    Msg.ofFields m.type (clearFields m.type.decl m.fields) = m.clearVoid := by
  cases m <;> rfl

def FieldInRange : (k : FieldKind) → k.Val → Prop
  | .integer, i => -2 ^ 31 ≤ i ∧ i < 2 ^ 31
  | .octstr, some s => s.length < 2 ^ 31
  | .octstr, none | .uuid, _ | .void, _ => True

instance : (k : FieldKind) → (v : k.Val) → Decidable (FieldInRange k v)
  | .integer, i => inferInstanceAs (Decidable (-2 ^ 31 ≤ i ∧ i < 2 ^ 31))
  | .octstr, some s => inferInstanceAs (Decidable (s.length < 2 ^ 31))
  | .octstr, none | .uuid, _ | .void, _ => isTrue trivial

def FieldsInRange : (ks : List FieldKind) → Fields ks → Prop
  | [], _ => True
  | k :: ks, (v, vs) => FieldInRange k v ∧ FieldsInRange ks vs

instance : (ks : List FieldKind) → (vs : Fields ks) → Decidable (FieldsInRange ks vs)
  | [], _ => isTrue trivial
  | k :: ks, (v, vs) =>
    have : Decidable (FieldsInRange ks vs) := instDecidableFieldsInRange ks vs
    inferInstanceAs (Decidable (FieldInRange k v ∧ FieldsInRange ks vs))

def Msg.InRange (m : Msg) : Prop := FieldsInRange m.type.decl m.fields

instance (m : Msg) : Decidable m.InRange :=
  inferInstanceAs (Decidable (FieldsInRange m.type.decl m.fields))

def FieldsStartFit : (ks : List FieldKind) → Fields ks → Nat → Prop
  | [], _, _ => True
  | k :: ks, (v, vs), off =>
    (k ≠ .void → off + 4 ≤ intMax) ∧ FieldsStartFit ks vs (off + (packField [] k v).length)

instance : (ks : List FieldKind) → (vs : Fields ks) → (off : Nat) →
    Decidable (FieldsStartFit ks vs off)
  | [], _, _ => isTrue trivial
  | k :: ks, (v, vs), off =>
    have : Decidable (FieldsStartFit ks vs (off + (packField [] k v).length)) :=
      instDecidableFieldsStartFit ks vs _
    inferInstanceAs (Decidable ((k ≠ .void → off + 4 ≤ intMax) ∧ _))

def Msg.StartsFit (m : Msg) : Prop := FieldsStartFit m.type.decl m.fields 4

instance (m : Msg) : Decidable m.StartsFit :=
  inferInstanceAs (Decidable (FieldsStartFit m.type.decl m.fields 4))

def Tracks (pos : Int) (consumed : Nat) : Prop :=
  pos = consumed ∨ (pos < 0 ∧ intMax < consumed)

theorem tracks_advance {off len : Nat} (hoff : off + 4 ≤ intMax) (hlen : len < 2 ^ 31) :
    Tracks (toInt ((off + 4 : Nat) + (len : Int))) (off + 4 + len) := by
  by_cases hfit : off + 4 + len ≤ intMax
  · exact Or.inl (advance_fits (Int.natCast_nonneg _) hfit)
  · exact Or.inr ⟨advance_wraps (by omega) hoff (Nat.not_le.mp hfit), Nat.not_le.mp hfit⟩

section Field
variable (pre rest : Octstr)

theorem parseString_packed {s : Octstr} (hs : s.length < 2 ^ 31) (hoff : pre.length + 4 ≤ intMax) :
    parseString (pre ++ (appendInteger [] s.length ++ (s ++ rest))) pre.length =
      .ok (some s, toInt ((pre.length + 4 : Nat) + (s.length : Int))) := by
  have hlen : toInt s.length = s.length := toInt_of_fits (by omega) (by omega)
  have hsome := @parseString_some (pre ++ (appendInteger [] s.length ++ (s ++ rest))) pre.length
    hoff (by simp)
  rw [announced_packed, stringAt_packed _ _ hlen, hlen] at hsome
  exact hsome (Int.natCast_nonneg _)

theorem uuidParse_cstr (id : Uuid) :
    uuidParse (octstrGetCstr (some (uuidUnparse id))) = some id := by
  have hcstr : octstrGetCstr (some (uuidUnparse id)) = uuidUnparse id :=
    takeWhile_eq_self_iff.mpr fun c hc => decide_eq_true (uuidUnparse_ne_zero id c hc)
  rw [hcstr, uuidParse_uuidUnparse]

theorem parseField_packed (k : FieldKind) (v : k.Val) {pos : Int} (hv : FieldInRange k v)
    (hpos : Tracks pos pre.length) (hfit : k ≠ .void → pre.length + 4 ≤ intMax) :
    ∃ next, parseField (pre ++ (packField [] k v ++ rest)) pos k = .ok (clearField k v, next) ∧
      Tracks next (pre.length + (packField [] k v).length) := by
  by_cases hk : k = .void
  · subst hk
    exact ⟨pos, rfl, hpos⟩
  have hoff := hfit hk
  have hat : pos = pre.length := by
    rcases hpos with h | h <;> omega
  rw [hat, length_packField]
  cases k with
  | integer =>
    have hlen : pre.length + 4 ≤ (pre ++ (appendInteger [] v ++ rest)).length := by
      simp
    have hok := parseInteger_ok hoff hlen
    rw [announced_packed, toInt_of_fits hv.1 hv.2] at hok
    exact ⟨_, hok, Or.inl rfl⟩
  | octstr =>
    cases v with
    | none =>
      have hlen : pre.length + 4 ≤ (pre ++ (appendInteger [] (-1) ++ rest)).length := by
        simp
      have hnull := parseString_null hoff hlen (announced_packed pre rest (-1))
      exact ⟨_, hnull, Or.inl rfl⟩
    | some s =>
      have hok := parseString_packed pre rest hv hoff
      have htrack := tracks_advance hoff hv
      exact ⟨_, hok, by simpa only [Nat.add_assoc] using htrack⟩
  | uuid =>
    have hv : (uuidUnparse v).length < 2 ^ 31 := by
      rw [length_uuidUnparse]
      decide
    have hok := parseString_packed pre rest hv hoff
    have htrack := tracks_advance hoff hv
    rw [length_uuidUnparse] at hok
    rw [length_uuidUnparse] at htrack
    exact ⟨_, parseUuid_of_good hok (uuidParse_cstr v), htrack⟩
  | void => exact absurd rfl hk

end Field

theorem parseField_lost {packed : Octstr} {k : FieldKind} {pos : Int} {consumed : Nat}
    (hpos : Tracks pos consumed) (hk : k ≠ .void) (hlost : intMax < consumed + 4) :
    ∃ f, parseField packed pos k = .error f ∧ f ≠ .invalid := by
  rcases hpos with rfl | ⟨hneg, -⟩
  · have hover := @parseInteger_overflow packed consumed hlost
    refine ⟨.overflow, ?_, Failure.noConfusion⟩
    cases k with
    | integer => exact hover
    | octstr => exact parseString_of_error hover
    | uuid => exact parseUuid_of_error (parseString_of_error hover)
    | void => exact absurd rfl hk
  · exact ⟨.assertion, parseField_neg hneg hk, Failure.noConfusion⟩

theorem parseFields_packed (pre : Octstr) {pos : Int} (hvs : FieldsInRange ks vs)
    (hpos : Tracks pos pre.length) :
    (FieldsStartFit ks vs pre.length →
      ∃ next, parseFields (pre ++ packFields ks vs []) ks pos = .ok (clearFields ks vs, next)) ∧
    (¬ FieldsStartFit ks vs pre.length →
      ∃ f, parseFields (pre ++ packFields ks vs []) ks pos = .error f) := by
  induction ks generalizing pre pos with
  | nil => exact ⟨fun _ => ⟨pos, rfl⟩, fun h => absurd trivial h⟩
  | cons k ks ih =>
    obtain ⟨v, vs⟩ := vs
    obtain ⟨hv, hvs⟩ := hvs
    rw [packFields_cons, parseFields]
    by_cases hfit : k ≠ .void → pre.length + 4 ≤ intMax
    · obtain ⟨next, hok, htrack⟩ := parseField_packed pre (packFields ks vs []) k v hv hpos hfit
      have hrest := ih vs (pre ++ packField [] k v) hvs (by rwa [length_append])
      rw [length_append, append_assoc] at hrest
      rw [hok, ok_bind]
      refine ⟨fun h => ?_, fun h => ?_⟩
      · obtain ⟨last, hlast⟩ := hrest.1 h.2
        refine ⟨last, ?_⟩
        dsimp only
        rw [hlast]
        rfl
      · obtain ⟨f, hf⟩ := hrest.2 fun h' => h ⟨hfit, h'⟩
        refine ⟨f, ?_⟩
        dsimp only
        rw [hf, error_bind]
    · obtain ⟨hk, hlost⟩ := Classical.not_imp.mp hfit
      obtain ⟨f, hf, -⟩ := parseField_lost hpos hk (Nat.not_le.mp hlost)
      refine ⟨fun h => absurd h.1 hfit, fun _ => ⟨f, ?_⟩⟩
      rw [hf, error_bind]

theorem MsgType.ofCode_code (t : MsgType) : MsgType.ofCode t.code = some t := by
  cases t <;> rfl

theorem MsgType.toInt_code (t : MsgType) : toInt t.code = t.code := by
  cases t <;> exact toInt_of_fits (by decide) (by decide)

theorem msgPack_eq :
    msgPack m = appendInteger [] m.type.code ++ packFields m.type.decl m.fields [] :=
  packFields_append _ _ _

theorem four_le_length_msgPack : 4 ≤ (msgPack m).length := by
  simp [msgPack_eq]

theorem announced_msgPack : announced (msgPack m) 0 = m.type.code := by
  have hcode := announced_packed [] (packFields m.type.decl m.fields []) m.type.code
  rwa [nil_append, ← msgPack_eq, MsgType.toInt_code] at hcode

theorem parseCode_msgPack : parseInteger (msgPack m) 0 = .ok (m.type.code, ((4 : Nat) : Int)) := by
  rw [parseCode_ok (four_le_length_msgPack m), announced_msgPack]

def RoundTrips (m : Msg) : Prop := msgUnpack (msgPack m) = .ok m.clearVoid

variable {m : Msg}

private theorem parseFields_msgPack (hm : m.InRange) :
    (m.StartsFit → ∃ next, parseFields (msgPack m) m.type.decl ((4 : Nat) : Int) =
      .ok (clearFields m.type.decl m.fields, next)) ∧
    (¬ m.StartsFit → ∃ f, parseFields (msgPack m) m.type.decl ((4 : Nat) : Int) = .error f) := by
  have h := parseFields_packed m.type.decl m.fields (appendInteger [] m.type.code) hm (Or.inl rfl)
  rw [← msgPack_eq] at h
  exact h

theorem msgUnpack_msgPack (hm : m.InRange) (hfit : m.StartsFit) : RoundTrips m := by
  obtain ⟨next, hok⟩ := (parseFields_msgPack hm).1 hfit
  rw [RoundTrips, msgUnpack_of_type (parseCode_msgPack m) m.type.ofCode_code, hok,
    ← m.ofFields_clearFields]
  rfl

theorem msgUnpack_msgPack_lost (hm : m.InRange) (hlost : ¬ m.StartsFit) :
    ∃ f, msgUnpack (msgPack m) = .error f := by
  obtain ⟨f, hf⟩ := (parseFields_msgPack hm).2 hlost
  exact ⟨f, by
    rw [msgUnpack_of_type (parseCode_msgPack m) m.type.ofCode_code, hf, error_bind]⟩

/-- Every number of the packet, its own length included, is a signed 32-bit
number. -/
def Msg.Fits (m : Msg) : Prop := m.InRange ∧ (msgPack m).length ≤ intMax

instance (m : Msg) : Decidable m.Fits :=
  inferInstanceAs (Decidable (m.InRange ∧ (msgPack m).length ≤ intMax))

theorem fieldsStartFit_of_length (off : Nat) (h : off + (packFields ks vs []).length ≤ intMax) :
    FieldsStartFit ks vs off := by
  induction ks generalizing off with
  | nil => trivial
  | cons k ks ih =>
    obtain ⟨v, vs⟩ := vs
    rw [packFields_cons, length_append] at h
    refine ⟨fun hk => ?_, ih vs _ (by omega)⟩
    have hwidth := four_le_packField k v hk
    omega

theorem Msg.Fits.roundTrips (hm : m.Fits) : RoundTrips m := by
  have hlen := hm.2
  rw [msgPack_eq, length_append] at hlen
  exact msgUnpack_msgPack hm.1 (fieldsStartFit_of_length _ _ _ hlen)

theorem packFields_clearFields (os : Octstr) :
    packFields ks (clearFields ks vs) os = packFields ks vs os := by
  induction ks generalizing os with
  | nil => rfl
  | cons k ks ih =>
    obtain ⟨v, vs⟩ := vs
    have hfield : packField os k (clearField k v) = packField os k v := by
      cases k <;> rfl
    rw [clearFields, packFields, packFields, hfield, ih]

theorem fieldsInRange_clearFields (h : FieldsInRange ks vs) :
    FieldsInRange ks (clearFields ks vs) := by
  induction ks with
  | nil => trivial
  | cons k ks ih =>
    obtain ⟨v, vs⟩ := vs
    refine ⟨?_, ih vs h.2⟩
    cases k with
    | void => trivial
    | integer => exact h.1
    | octstr => exact h.1
    | uuid => trivial

theorem Msg.Fits.clearVoid (hm : m.Fits) : m.clearVoid.Fits := by
  cases m with
  | sms m =>
    have hfields : (Msg.sms m.clearVoid).fields =
      clearFields MsgType.sms.decl (Msg.sms m).fields := rfl
    refine ⟨?_, ?_⟩
    · change FieldsInRange MsgType.sms.decl (Msg.sms m.clearVoid).fields
      exact fieldsInRange_clearFields _ _ hm.1
    · change (packFields MsgType.sms.decl (Msg.sms m.clearVoid).fields
        (appendInteger [] MsgType.sms.code)).length ≤ intMax
      rw [hfields, packFields_clearFields]
      exact hm.2
  | heartbeat m => exact hm
  | admin m => exact hm
  | ack m => exact hm
  | wdpDatagram m => exact hm

/-- **Packing and unpacking.**  Exactly the messages come back whose packed fields all start in
the range of the position. -/
theorem roundTrips_iff (m : Msg) (hm : m.InRange) : RoundTrips m ↔ m.StartsFit := by
  refine ⟨fun h => ?_, msgUnpack_msgPack hm⟩
  by_contra hlost
  obtain ⟨f, hf⟩ := msgUnpack_msgPack_lost hm hlost
  rw [RoundTrips, hf] at h
  cases h

theorem roundTrips_admin : RoundTrips (.admin ⟨0, some [97], 13000⟩) :=
  (roundTrips_iff (.admin ⟨0, some [97], 13000⟩) (by decide)).mpr (by decide)

private theorem long_address_lost {address : Octstr} (hlen : address.length = 2 ^ 31 - 1) :
    (Msg.wdpDatagram ⟨some address, 0, none, 0, none⟩).InRange ∧
    ¬ RoundTrips (.wdpDatagram ⟨some address, 0, none, 0, none⟩) := by
  have hport : (-2 : Int) ^ 31 ≤ 0 ∧ (0 : Int) < 2 ^ 31 := by decide
  have haddress : address.length < 2 ^ 31 := by omega
  have hm : (Msg.wdpDatagram ⟨some address, 0, none, 0, none⟩).InRange :=
    ⟨haddress, hport, trivial, hport, trivial, trivial⟩
  refine ⟨hm, fun hround => ?_⟩
  have hlost : ¬ (Msg.wdpDatagram ⟨some address, 0, none, 0, none⟩).StartsFit := by
    rintro ⟨-, hstart, -⟩
    have hport := hstart FieldKind.noConfusion
    rw [length_packField] at hport
    unfold intMax at hport
    dsimp only at hport
    omega
  obtain ⟨f, hf⟩ := msgUnpack_msgPack_lost hm hlost
  rw [RoundTrips, hf] at hround
  cases hround

/-- A datagram whose source address has `2^31 - 1` octets is within the bounds
and does not come back. -/
theorem not_roundTrips_long_address :
    (Msg.wdpDatagram ⟨some (replicate (2 ^ 31 - 1) 0), 0, none, 0, none⟩).InRange ∧
    ¬ RoundTrips (.wdpDatagram ⟨some (replicate (2 ^ 31 - 1) 0), 0, none, 0, none⟩) :=
  long_address_lost length_replicate

end Kannel
