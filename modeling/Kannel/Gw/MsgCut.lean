import Kannel.Gw.MsgRoundTrip

/-!
# Packets that were cut short

`parse_integer` notices the end of the packet, `parse_string` does not, so a cut is noticed only
by a later number or identifier.
-/

namespace Kannel
open List

def Refused (packed : Octstr) : List FieldKind → Nat → Prop
  | [], _ => False
  | .void :: ks, off => Refused packed ks off
  | .integer :: ks, off =>
    off + 4 ≤ intMax ∧ (packed.length < off + 4 ∨ Refused packed ks (off + 4))
  | .octstr :: ks, off =>
    off + 4 ≤ intMax ∧ (packed.length < off + 4 ∨
      (announced packed off = -1 ∧ Refused packed ks (off + 4)) ∨
      (0 ≤ announced packed off ∧ Refused packed ks (off + 4 + (announced packed off).toNat)))
  | .uuid :: ks, off =>
    off + 4 ≤ intMax ∧ (packed.length < off + 4 ∨
      announced packed off = -1 ∨
      (0 ≤ announced packed off ∧
        (uuidParse (octstrGetCstr (some (stringAt packed off))) = none ∨
          Refused packed ks (off + 4 + (announced packed off).toNat))))

section Step
variable {packed : Octstr} {k : FieldKind} {ks : List FieldKind} {pos next : Int}

theorem parseFields_of_error {f : Failure} (h : parseField packed pos k = .error f) :
    parseFields packed (k :: ks) pos = .error f := by
  rw [parseFields, h, error_bind]

theorem parseFields_invalid_of_ok {v : k.Val} (h : parseField packed pos k = .ok (v, next)) :
    parseFields packed (k :: ks) pos = .error .invalid ↔
      parseFields packed ks next = .error .invalid := by
  rw [parseFields, h, ok_bind]
  dsimp only
  cases parseFields packed ks next with
  | error f => rw [error_bind]; simp
  | ok r =>
    constructor <;> intro h <;> cases h

end Step

theorem parseString_tracks {packed : Octstr} {off : Nat} (hoff : off + 4 ≤ intMax)
    (h : off + 4 ≤ packed.length) (h0 : 0 ≤ announced packed off) :
    ∃ next, parseString packed off = .ok (some (stringAt packed off), next) ∧
      Tracks next (off + 4 + (announced packed off).toNat) := by
  have hsome := parseString_some hoff h h0
  have hrange := (announced_range packed off).2
  have htrack := @tracks_advance off (announced packed off).toNat hoff (by omega)
  rw [Int.toNat_of_nonneg h0] at htrack
  exact ⟨_, hsome, htrack⟩

section Strings
variable {packed : Octstr} {ks : List FieldKind} {off : Nat}

private theorem parseFields_invalid_octstr (hoff : off + 4 ≤ intMax)
    (hlen : off + 4 ≤ packed.length)
    (ih : ∀ {pos : Int} {n : Nat}, Tracks pos n →
      (parseFields packed ks pos = .error .invalid ↔ Refused packed ks n)) :
    parseFields packed (.octstr :: ks) off = .error .invalid ↔
      (announced packed off = -1 ∧ Refused packed ks (off + 4)) ∨
      (0 ≤ announced packed off ∧ Refused packed ks (off + 4 + (announced packed off).toNat)) := by
  by_cases hnull : announced packed off = -1
  · have hneg : ¬ (0 : Int) ≤ -1 := by decide
    rw [parseFields_invalid_of_ok (k := .octstr) (parseString_null hoff hlen hnull),
      ih (Or.inl rfl)]
    simp only [hnull, hneg, true_and, false_and, or_false]
  by_cases h0 : 0 ≤ announced packed off
  · obtain ⟨next, hok, htrack⟩ := parseString_tracks hoff hlen h0
    rw [parseFields_invalid_of_ok (k := .octstr) hok, ih htrack]
    simp only [hnull, h0, true_and, false_and, false_or]
  · have hbad := parseString_negative hoff hlen hnull (Int.not_le.mp h0)
    rw [parseFields_of_error (k := .octstr) hbad]
    simp [hnull, h0]

private theorem parseFields_invalid_uuid (hoff : off + 4 ≤ intMax)
    (hlen : off + 4 ≤ packed.length)
    (ih : ∀ {pos : Int} {n : Nat}, Tracks pos n →
      (parseFields packed ks pos = .error .invalid ↔ Refused packed ks n)) :
    parseFields packed (.uuid :: ks) off = .error .invalid ↔
      announced packed off = -1 ∨
      (0 ≤ announced packed off ∧
        (uuidParse (octstrGetCstr (some (stringAt packed off))) = none ∨
          Refused packed ks (off + 4 + (announced packed off).toNat))) := by
  by_cases hnull : announced packed off = -1
  · have hbad := parseUuid_of_bad (parseString_null hoff hlen hnull) uuidParse_null
    rw [parseFields_of_error (k := .uuid) hbad]
    simp only [hnull, true_or]
  by_cases h0 : 0 ≤ announced packed off
  · obtain ⟨next, hok, htrack⟩ := parseString_tracks hoff hlen h0
    cases hid : uuidParse (octstrGetCstr (some (stringAt packed off))) with
    | none =>
      rw [parseFields_of_error (k := .uuid) (parseUuid_of_bad hok hid)]
      simp only [hnull, h0, true_and, true_or, or_true]
    | some id =>
      rw [parseFields_invalid_of_ok (k := .uuid) (parseUuid_of_good hok hid), ih htrack]
      simp only [hnull, h0, true_and, false_or, reduceCtorEq]
  · have hbad := parseUuid_of_error (parseString_negative hoff hlen hnull (Int.not_le.mp h0))
    rw [parseFields_of_error (k := .uuid) hbad]
    simp [hnull, h0]

end Strings

theorem parseFields_invalid_iff (packed : Octstr) (ks : List FieldKind) {pos : Int} {off : Nat}
    (hpos : Tracks pos off) :
    parseFields packed ks pos = .error .invalid ↔ Refused packed ks off := by
  induction ks generalizing pos off with
  | nil => exact ⟨fun h => (by cases h), False.elim⟩
  | cons k ks ih =>
    by_cases hk : k = .void
    · subst hk
      rw [parseFields_invalid_of_ok (k := .void) rfl, Refused, ih hpos]
    by_cases hoff : off + 4 ≤ intMax
    swap
    · obtain ⟨f, hf, hne⟩ := @parseField_lost packed k pos off hpos hk (Nat.not_le.mp hoff)
      rw [parseFields_of_error hf]
      cases k <;> simp_all [Refused]
    have hat : pos = off := by
      rcases hpos with h | h <;> omega
    subst hat
    by_cases hlen : off + 4 ≤ packed.length
    swap
    · have hshort := parseInteger_short hoff (Nat.not_le.mp hlen)
      have hfield : parseField packed off k = .error .invalid := by
        cases k with
        | integer => exact hshort
        | octstr => exact parseString_of_error hshort
        | uuid => exact parseUuid_of_error (parseString_of_error hshort)
        | void => exact absurd rfl hk
      rw [parseFields_of_error hfield]
      cases k <;> simp_all [Refused]
    have hread : ¬ packed.length < off + 4 := Nat.not_lt.mpr hlen
    cases k with
    | void => exact absurd rfl hk
    | integer =>
      rw [parseFields_invalid_of_ok (k := .integer) (parseInteger_ok hoff hlen), Refused,
        ih (Or.inl rfl)]
      simp only [hoff, hread, true_and, false_or]
    | octstr =>
      rw [Refused, parseFields_invalid_octstr hoff hlen fun hpos => ih hpos]
      simp only [hoff, hread, true_and, false_or]
    | uuid =>
      rw [Refused, parseFields_invalid_uuid hoff hlen fun hpos => ih hpos]
      simp only [hoff, hread, true_and, false_or]

def StrayRefused (packed : Octstr) (len : Nat) (ks : List FieldKind) (off : Nat) : Prop :=
  (toInt len = -1 ∧ Refused packed ks off) ∨
    (0 ≤ toInt len ∧ Refused packed ks (off + (toInt len).toNat))

def FieldsCutRefused (packed : Octstr) (cut : Nat) : (ks : List FieldKind) → Fields ks → Nat → Prop
  | [], _, _ => False
  | .void :: ks, (_, vs), off => FieldsCutRefused packed cut ks vs off
  | .integer :: ks, (_, vs), off =>
    off + 4 ≤ intMax ∧ (cut < off + 4 ∨ FieldsCutRefused packed cut ks vs (off + 4))
  | .octstr :: ks, (none, vs), off =>
    off + 4 ≤ intMax ∧ (cut < off + 4 ∨ FieldsCutRefused packed cut ks vs (off + 4))
  | .octstr :: ks, (some s, vs), off =>
    off + 4 ≤ intMax ∧ (cut < off + 4 ∨
      (s.length < 2 ^ 31 ∧ FieldsCutRefused packed cut ks vs (off + 4 + s.length)) ∨
      (2 ^ 31 ≤ s.length ∧ StrayRefused packed s.length ks (off + 4)))
  | .uuid :: ks, (_, vs), off =>
    off + 4 ≤ intMax ∧ (cut < off + 40 ∨ FieldsCutRefused packed cut ks vs (off + 40))

def Msg.CutRefused (m : Msg) (cut : Nat) : Prop :=
  cut < 4 ∨ FieldsCutRefused ((msgPack m).take cut) cut m.type.decl m.fields 4

section Cut
variable {packed : Octstr} {off cut : Nat}

theorem announced_take (h : off + 4 ≤ cut) :
    announced (packed.take cut) off = announced packed off := by
  unfold announced
  rw [drop_take, take_take, Nat.min_eq_left (by omega)]

theorem stringAt_take (h : off + 4 ≤ cut) :
    stringAt (packed.take cut) off = (stringAt packed off).take (cut - (off + 4)) := by
  unfold stringAt
  rw [announced_take h, drop_take, take_take, take_take, Nat.min_comm]

theorem length_take_lt (h : off + 4 ≤ packed.length) :
    (packed.take cut).length < off + 4 ↔ cut < off + 4 := by
  rw [length_take]
  omega

end Cut

theorem uuidParse_cut (id : Uuid) (n : Nat) :
    uuidParse (octstrGetCstr (some ((uuidUnparse id).take n))) = none ↔ n < 36 := by
  by_cases hn : n < 36
  · have hshort : (octstrGetCstr (some ((uuidUnparse id).take n))).length < uuidStrLen := by
      calc (octstrGetCstr (some ((uuidUnparse id).take n))).length
          ≤ ((uuidUnparse id).take n).length := (takeWhile_sublist _).length_le
        _ ≤ n := length_take_le _ _
        _ < uuidStrLen := hn
    simp only [uuidParse_short hshort, hn]
  · have hwhole : (uuidUnparse id).take n = uuidUnparse id :=
      take_of_length_le (by rw [length_uuidUnparse]; exact Nat.not_lt.mp hn)
    simp only [hwhole, uuidParse_cstr, hn, reduceCtorEq]

theorem uuid_at_cut (pre rest : Octstr) (id : Uuid) {cut : Nat} (hcut : pre.length + 4 ≤ cut) :
    announced ((pre ++ (packField [] .uuid id ++ rest)).take cut) pre.length = 36 ∧
      stringAt ((pre ++ (packField [] .uuid id ++ rest)).take cut) pre.length =
        (uuidUnparse id).take (cut - (pre.length + 4)) := by
  have hlen : toInt uuidStrLen = (uuidUnparse id).length := by
    rw [length_uuidUnparse]
    exact toInt_of_fits (by decide) (by decide)
  rw [announced_take hcut, stringAt_take hcut]
  simp only [packField, appendUuid, append_assoc]
  rw [announced_packed, stringAt_packed _ _ hlen, hlen, length_uuidUnparse]
  exact ⟨rfl, rfl⟩

theorem refused_cut_iff (cut : Nat) (ks : List FieldKind) (vs : Fields ks) (pre : Octstr)
    {packed : Octstr} (hpacked : packed = (pre ++ packFields ks vs []).take cut) :
    Refused packed ks pre.length ↔ FieldsCutRefused packed cut ks vs pre.length := by
  induction ks generalizing pre with
  | nil => exact Iff.rfl
  | cons k ks ih =>
    obtain ⟨v, vs⟩ := vs
    rw [packFields_cons] at hpacked
    have hrest := ih vs (pre ++ packField [] k v) (by rw [hpacked, append_assoc])
    rw [length_append, length_packField] at hrest
    -- the four octets every packed field starts with are in the uncut packet
    have hshort : k ≠ .void → (packed.length < pre.length + 4 ↔ cut < pre.length + 4) := by
      intro hk
      have hwidth := four_le_packField k v hk
      rw [hpacked, length_take_lt]
      rw [length_append, length_append]
      omega
    cases k with
    | void => exact hrest
    | integer => rw [Refused, FieldsCutRefused, hshort FieldKind.noConfusion, hrest]
    | octstr =>
      cases v with
      | none =>
        rw [Refused, hshort FieldKind.noConfusion]
        refine and_congr_right fun _ => or_congr_right' fun hcut => ?_
        have hann : announced packed pre.length = -1 := by
          rw [hpacked, announced_take (Nat.not_lt.mp hcut)]
          exact announced_packed pre _ (-1)
        have hneg : ¬ (0 : Int) ≤ -1 := by decide
        simp only [hann, hneg, hrest, true_and, false_and, or_false]
      | some s =>
        rw [Refused, hshort FieldKind.noConfusion]
        refine and_congr_right fun _ => or_congr_right' fun hcut => ?_
        have hann : announced packed pre.length = toInt s.length := by
          rw [hpacked, announced_take (Nat.not_lt.mp hcut)]
          exact announced_packed pre _ s.length
        rw [hann]
        by_cases hs : s.length < 2 ^ 31
        · have hlen : toInt s.length = s.length := toInt_of_fits (by omega) (by omega)
          have hnull : ¬ (s.length : Int) = -1 := by omega
          simp only [← Nat.add_assoc] at hrest
          simp only [hlen, hnull, hs, Nat.not_le.mpr hs, Int.natCast_nonneg,
            Int.toNat_natCast, hrest, true_and, false_and, false_or, or_false]
        · simp only [hs, Nat.not_lt.mp hs, StrayRefused, true_and, false_and, false_or]
    | uuid =>
      rw [Refused, hshort FieldKind.noConfusion]
      refine and_congr_right fun _ => ?_
      by_cases hcut : cut < pre.length + 4
      · have h40 : cut < pre.length + 40 := by omega
        simp only [hcut, h40, true_or]
      obtain ⟨hann, htext⟩ := uuid_at_cut pre (packFields ks vs []) v (Nat.not_lt.mp hcut)
      rw [← hpacked] at hann htext
      have hnull : ¬ (36 : Int) = -1 := by decide
      have h40 : cut - (pre.length + 4) < 36 ↔ cut < pre.length + 40 := by omega
      rw [hann, htext, uuidParse_cut, h40]
      simp only [hcut, hnull, false_or]
      rw [← hrest]
      exact and_iff_right (by decide)

/-- **Cut packets.**  Of the packet of a message, exactly the cuts described by
`CutRefused` make `msg_unpack` return `NULL`. -/
theorem cut_refused_iff (m : Msg) (cut : Nat) :
    msgUnpack ((msgPack m).take cut) = .error .invalid ↔ m.CutRefused cut := by
  have hlen := four_le_length_msgPack m
  by_cases h4 : cut < 4
  · have hshort : ((msgPack m).take cut).length < 4 := by
      rw [length_take]
      omega
    simp only [msgUnpack_of_error (parseCode_short hshort), Msg.CutRefused, h4, true_or]
  have hcut : 4 ≤ ((msgPack m).take cut).length := by
    rw [length_take]
    omega
  have hcode : announced ((msgPack m).take cut) 0 = m.type.code := by
    rw [announced_take (Nat.not_lt.mp h4), announced_msgPack]
  have hparse := parseCode_ok hcut
  rw [hcode] at hparse
  have hfields := refused_cut_iff cut m.type.decl m.fields (appendInteger [] m.type.code)
    (by rw [← msgPack_eq])
  have hpre : (appendInteger [] m.type.code).length = 4 := length_encodeNetworkLong _
  rw [hpre] at hfields
  rw [msgUnpack_of_type hparse m.type.ofCode_code, Msg.CutRefused, ← hfields,
    ← parseFields_invalid_iff _ _ (Or.inl rfl)]
  simp only [h4, false_or]
  cases parseFields ((msgPack m).take cut) m.type.decl ((4 : Nat) : Int) with
  | error f => rw [error_bind]; simp
  | ok r =>
    constructor <;> intro h <;> cases h

theorem cut_datagram_accepted :
    (msgPack (.wdpDatagram ⟨none, 0, none, 0, some [7]⟩)).length = 25 ∧
    msgUnpack ((msgPack (.wdpDatagram ⟨none, 0, none, 0, some [7]⟩)).take 24) =
      .ok (.wdpDatagram ⟨none, 0, none, 0, some []⟩) := by
  decide +kernel

end Kannel
