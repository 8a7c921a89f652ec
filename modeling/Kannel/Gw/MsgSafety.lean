import Kannel.Gw.MsgParse

/-!
# When unpacking a message cannot panic

`parse_string` adds the announced length to an `int` position unseen; `LengthsOk` says that a
packet announces neither a negative length nor one past `2^31 - 1`.
-/

namespace Kannel

def fieldOffsets (packed : Octstr) (off : Int) : FieldKind → List Int
  | .integer => ((parseInteger packed off).toOption.map Prod.snd).toList
  | .octstr | .uuid =>
    ((parseInteger packed off).toOption.map Prod.snd).toList ++
      ((parseString packed off).toOption.map Prod.snd).toList
  | .void => []

def offsets (packed : Octstr) : List FieldKind → Int → List Int
  | [], _ => []
  | k :: ks, off =>
    fieldOffsets packed off k ++
      match parseField packed off k with
      | .ok (_, next) => offsets packed ks next
      | .error _ => []

def msgOffsets (os : Octstr) : List Int :=
  0 :: match parseInteger os 0 with
    | .ok (i, off) => off :: match MsgType.ofCode i with
      | some t => offsets os t.decl off
      | none => []
    | .error _ => []

def UnpackSafe (os : Octstr) : Prop :=
  ¬ Faults (msgUnpack os) ∧ ∀ o ∈ msgOffsets os, 0 ≤ o

def LengthsOk (packed : Octstr) : List FieldKind → Nat → Prop
  | [], _ => True
  | .void :: ks, off => LengthsOk packed ks off
  | .integer :: ks, off =>
    off + 4 ≤ intMax ∧ (off + 4 ≤ packed.length → LengthsOk packed ks (off + 4))
  | .octstr :: ks, off =>
    off + 4 ≤ intMax ∧ (off + 4 ≤ packed.length →
      (announced packed off = -1 ∧ LengthsOk packed ks (off + 4)) ∨
      (0 ≤ announced packed off ∧ off + 4 + (announced packed off).toNat ≤ intMax ∧
        LengthsOk packed ks (off + 4 + (announced packed off).toNat)))
  | .uuid :: ks, off =>
    off + 4 ≤ intMax ∧ (off + 4 ≤ packed.length →
      announced packed off = -1 ∨
      (0 ≤ announced packed off ∧ off + 4 + (announced packed off).toNat ≤ intMax ∧
        ((uuidParse (octstrGetCstr (some (stringAt packed off)))).isSome →
          LengthsOk packed ks (off + 4 + (announced packed off).toNat))))

def AnnouncedOk (os : Octstr) : Prop :=
  ∀ t, 4 ≤ os.length → MsgType.ofCode (announced os 0) = some t → LengthsOk os t.decl 4

def FieldsSafe (packed : Octstr) (ks : List FieldKind) (off : Int) : Prop :=
  ¬ Faults (parseFields packed ks off) ∧ ∀ o ∈ offsets packed ks off, 0 ≤ o

section Step
variable {packed : Octstr} {k : FieldKind} {ks : List FieldKind} {off next : Int}

theorem fieldsSafe_of_ok {v : k.Val} (h : parseField packed off k = .ok (v, next)) :
    FieldsSafe packed (k :: ks) off ↔
      (∀ o ∈ fieldOffsets packed off k, 0 ≤ o) ∧ FieldsSafe packed ks next := by
  unfold FieldsSafe
  rw [parseFields, offsets, h, ok_bind, faults_bind]
  simp only [List.mem_append, or_imp, forall_and]
  have hret : ∀ r : Fields ks × Int, ¬ Faults (pure ((v, r.1), r.2) : Except Failure _) :=
    fun r => not_faults_ok _
  tauto

theorem fieldsSafe_of_invalid (h : parseField packed off k = .error .invalid) :
    FieldsSafe packed (k :: ks) off ↔ ∀ o ∈ fieldOffsets packed off k, 0 ≤ o := by
  unfold FieldsSafe
  rw [parseFields, offsets, h]
  simp [faults_error]

theorem not_fieldsSafe_of_fault {f : Failure} (h : parseField packed off k = .error f)
    (hf : f ≠ .invalid) : ¬ FieldsSafe packed (k :: ks) off := by
  unfold FieldsSafe
  rw [parseFields, h]
  simp [faults_error, hf]

end Step

section Kinds
variable {packed : Octstr} {ks : List FieldKind} {off : Nat}

private theorem starts_with_number {P : Prop} {k : FieldKind}
    (hover : parseInteger packed off = .error .overflow →
      parseField packed off k = .error .overflow)
    (hshort : parseInteger packed off = .error .invalid →
      parseField packed off k = .error .invalid ∧ fieldOffsets packed off k = [])
    (hread : off + 4 ≤ intMax → off + 4 ≤ packed.length → (FieldsSafe packed (k :: ks) off ↔ P)) :
    FieldsSafe packed (k :: ks) off ↔ off + 4 ≤ intMax ∧ (off + 4 ≤ packed.length → P) := by
  by_cases h1 : off + 4 ≤ intMax
  · by_cases h2 : off + 4 ≤ packed.length
    · simp only [hread h1 h2, h1, h2, true_and, forall_const]
    · obtain ⟨hfield, hoff⟩ := hshort (parseInteger_short h1 (Nat.not_le.mp h2))
      rw [fieldsSafe_of_invalid hfield, hoff]
      simp [h1, h2]
  · have hfield := hover (parseInteger_overflow (Nat.not_le.mp h1))
    simp [not_fieldsSafe_of_fault hfield, h1]

theorem fieldsSafe_integer :
    FieldsSafe packed (.integer :: ks) off ↔
      off + 4 ≤ intMax ∧
        (off + 4 ≤ packed.length → FieldsSafe packed ks ((off + 4 : Nat) : Int)) := by
  refine starts_with_number id (fun h => ⟨h, ?_⟩) fun h1 h2 => ?_
  · rw [fieldOffsets, h]
    rfl
  · have hok := parseInteger_ok h1 h2
    have hoffs : fieldOffsets packed off .integer = [((off + 4 : Nat) : Int)] := by
      rw [fieldOffsets, hok]
      rfl
    rw [fieldsSafe_of_ok (k := .integer) hok, hoffs, List.forall_mem_singleton]
    exact and_iff_right (Int.natCast_nonneg _)

private theorem stringOffsets {pos len n₁ n₂ : Int} {v : Option Octstr}
    (hlen : parseInteger packed pos = .ok (len, n₁)) (hok : parseString packed pos = .ok (v, n₂)) :
    fieldOffsets packed pos .octstr = [n₁, n₂] ∧ fieldOffsets packed pos .uuid = [n₁, n₂] := by
  simp only [fieldOffsets, hlen, hok]
  exact ⟨rfl, rfl⟩

private theorem stringOffsets_short {pos : Int} (h : parseInteger packed pos = .error .invalid) :
    fieldOffsets packed pos .octstr = [] ∧ fieldOffsets packed pos .uuid = [] := by
  simp only [fieldOffsets, h, parseString_of_error h]
  exact ⟨rfl, rfl⟩

private theorem forall_mem_pair {a : Nat} {b : Int} : (∀ o ∈ [(a : Int), b], 0 ≤ o) ↔ 0 ≤ b := by
  simp

private theorem parseString_moves (h1 : off + 4 ≤ intMax) (h2 : off + 4 ≤ packed.length)
    (h0 : 0 ≤ announced packed off) :
    ∃ pos : Int, parseString packed off = .ok (some (stringAt packed off), pos) ∧
      (0 ≤ pos ↔ off + 4 + (announced packed off).toNat ≤ intMax) ∧
      (0 ≤ pos → pos = ((off + 4 + (announced packed off).toNat : Nat) : Int)) := by
  by_cases hfit : off + 4 + (announced packed off).toNat ≤ intMax
  · exact ⟨_, parseString_fits h1 h2 h0 hfit, iff_of_true (Int.natCast_nonneg _) hfit, fun _ => rfl⟩
  · obtain ⟨pos, hpos, hok⟩ := parseString_wraps h1 h2 h0 (Nat.not_le.mp hfit)
    have hnot := Int.not_le.mpr hpos
    exact ⟨pos, hok, iff_of_false hnot hfit, fun h => absurd h hnot⟩

theorem fieldsSafe_octstr :
    FieldsSafe packed (.octstr :: ks) off ↔
      off + 4 ≤ intMax ∧ (off + 4 ≤ packed.length →
        (announced packed off = -1 ∧ FieldsSafe packed ks ((off + 4 : Nat) : Int)) ∨
        (0 ≤ announced packed off ∧ off + 4 + (announced packed off).toNat ≤ intMax ∧
          FieldsSafe packed ks ((off + 4 + (announced packed off).toNat : Nat) : Int))) := by
  refine starts_with_number parseString_of_error
    (fun h => ⟨parseString_of_error h, (stringOffsets_short h).1⟩) fun h1 h2 => ?_
  have hlen := parseInteger_ok h1 h2
  by_cases hnull : announced packed off = -1
  · have hok := parseString_null h1 h2 hnull
    have hneg : ¬ (0 : Int) ≤ -1 := by decide
    rw [fieldsSafe_of_ok (k := .octstr) hok, (stringOffsets hlen hok).1, forall_mem_pair]
    simp only [hnull, hneg, Int.natCast_nonneg, true_and, false_and, or_false]
  by_cases h0 : 0 ≤ announced packed off
  · obtain ⟨pos, hok, hpos, hnext⟩ := parseString_moves h1 h2 h0
    rw [fieldsSafe_of_ok (k := .octstr) hok, (stringOffsets hlen hok).1, forall_mem_pair]
    simp only [hnull, h0, true_and, false_and, false_or, ← hpos]
    exact and_congr_right fun h => by rw [hnext h]
  · have hbad := parseString_negative h1 h2 hnull (Int.not_le.mp h0)
    simp only [not_fieldsSafe_of_fault (k := .octstr) hbad Failure.noConfusion, hnull, h0,
      false_and, or_false]

theorem fieldsSafe_uuid :
    FieldsSafe packed (.uuid :: ks) off ↔
      off + 4 ≤ intMax ∧ (off + 4 ≤ packed.length →
        announced packed off = -1 ∨
        (0 ≤ announced packed off ∧ off + 4 + (announced packed off).toNat ≤ intMax ∧
          ((uuidParse (octstrGetCstr (some (stringAt packed off)))).isSome →
            FieldsSafe packed ks ((off + 4 + (announced packed off).toNat : Nat) : Int)))) := by
  refine starts_with_number (parseUuid_of_error ∘ parseString_of_error)
    (fun h => ⟨parseUuid_of_error (parseString_of_error h), (stringOffsets_short h).2⟩)
    fun h1 h2 => ?_
  have hlen := parseInteger_ok h1 h2
  by_cases hnull : announced packed off = -1
  · have hok := parseString_null h1 h2 hnull
    rw [fieldsSafe_of_invalid (k := .uuid) (parseUuid_of_bad hok uuidParse_null),
      (stringOffsets hlen hok).2, forall_mem_pair]
    simp only [hnull, Int.natCast_nonneg, true_or]
  by_cases h0 : 0 ≤ announced packed off
  · obtain ⟨pos, hok, hpos, hnext⟩ := parseString_moves h1 h2 h0
    -- the text decides whether anything is read after the identifier
    cases hid : uuidParse (octstrGetCstr (some (stringAt packed off))) with
    | none =>
      rw [fieldsSafe_of_invalid (k := .uuid) (parseUuid_of_bad hok hid),
        (stringOffsets hlen hok).2, forall_mem_pair, hpos]
      simp only [hnull, h0, Option.isSome_none, Bool.false_eq_true, false_imp_iff, and_true,
        true_and, false_or]
    | some id =>
      rw [fieldsSafe_of_ok (k := .uuid) (parseUuid_of_good hok hid),
        (stringOffsets hlen hok).2, forall_mem_pair]
      simp only [hnull, h0, Option.isSome_some, forall_const, true_and, false_or, ← hpos]
      exact and_congr_right fun h => by rw [hnext h]
  · have hbad := parseString_negative h1 h2 hnull (Int.not_le.mp h0)
    simp only [not_fieldsSafe_of_fault (k := .uuid) (parseUuid_of_error hbad) Failure.noConfusion,
      hnull, h0, false_and, or_false]

theorem fieldsSafe_void : FieldsSafe packed (.void :: ks) off ↔ FieldsSafe packed ks off := by
  rw [fieldsSafe_of_ok (k := .void) rfl, fieldOffsets]
  simp only [List.not_mem_nil, false_imp_iff, implies_true, true_and]

end Kinds

theorem fieldsSafe_iff (packed : Octstr) (ks : List FieldKind) (off : Nat) :
    FieldsSafe packed ks off ↔ LengthsOk packed ks off := by
  induction ks generalizing off with
  | nil => simp [FieldsSafe, LengthsOk, parseFields, offsets]
  | cons k ks ih =>
    cases k with
    | integer => rw [fieldsSafe_integer, LengthsOk, ih]
    | octstr => rw [fieldsSafe_octstr, LengthsOk, ih, ih]
    | uuid => rw [fieldsSafe_uuid, LengthsOk, ih]
    | void => rw [fieldsSafe_void, LengthsOk, ih]

theorem unpackSafe_of_type {os : Octstr} {i : Int} {next : Nat} {t : MsgType}
    (h : parseInteger os 0 = .ok (i, next)) (ht : MsgType.ofCode i = some t) :
    UnpackSafe os ↔ FieldsSafe os t.decl next := by
  unfold UnpackSafe FieldsSafe
  rw [msgUnpack_of_type h ht, msgOffsets, h]
  simp only [ht, faults_bind, List.forall_mem_cons, Int.natCast_nonneg, le_refl, true_and]
  have hret : ∀ r : Fields t.decl × Int,
      ¬ Faults (pure (Msg.ofFields t r.1) : Except Failure Msg) := fun r => not_faults_ok _
  simp only [hret, and_false, exists_false, or_false]

theorem unpackSafe_of_unknown {os : Octstr} {i : Int} {next : Nat}
    (h : parseInteger os 0 = .ok (i, next)) (ht : MsgType.ofCode i = none) : UnpackSafe os := by
  unfold UnpackSafe
  rw [msgUnpack_of_unknown h ht, msgOffsets, h]
  simp [ht]

/-- **Unpacking is safe** exactly on the packets whose announced lengths are in range. -/
theorem unpackSafe_iff (os : Octstr) : UnpackSafe os ↔ AnnouncedOk os := by
  unfold AnnouncedOk
  by_cases h4 : 4 ≤ os.length
  · have hcode := parseCode_ok h4
    cases ht : MsgType.ofCode (announced os 0) with
    | none =>
      have hsafe := unpackSafe_of_unknown hcode ht
      simp [hsafe]
    | some t =>
      rw [unpackSafe_of_type hcode ht, fieldsSafe_iff]
      simp [h4]
  · have hshort := parseCode_short (Nat.not_le.mp h4)
    have hsafe : UnpackSafe os := by
      unfold UnpackSafe
      rw [msgUnpack_of_error hshort, msgOffsets, hshort]
      simp
    simp [hsafe, h4]

theorem unpack_admin_negative_length :
    ¬ UnpackSafe [0, 0, 0, 1, 0, 0, 0, 0, 0xff, 0xff, 0xff, 0xfe] :=
  fun h => h.1 (by decide +kernel)

end Kannel
