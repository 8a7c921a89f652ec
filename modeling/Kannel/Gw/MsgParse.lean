import Kannel.Gw.Msg

/-!
# What the message parser reads

One equation for each parsing function; later modules never unfold the parser.
-/

namespace Kannel

def announced (packed : Octstr) (off : Nat) : Int :=
  decodeNetworkLong ((packed.drop off).take 4)

theorem announced_range (packed : Octstr) (off : Nat) :
    -2 ^ 31 ≤ announced packed off ∧ announced packed off < 2 ^ 31 := by
  unfold announced decodeNetworkLong
  exact toInt_range _

theorem advance_fits {off : Nat} {len : Int} (h0 : 0 ≤ len) (hfit : off + 4 + len.toNat ≤ intMax) :
    toInt ((off + 4 : Nat) + len) = ((off + 4 + len.toNat : Nat) : Int) := by
  have hsum : (((off + 4 : Nat) : Int) + len) = ((off + 4 + len.toNat : Nat) : Int) := by omega
  unfold intMax at hfit
  rw [hsum]
  exact toInt_of_fits (by omega) (by omega)

theorem advance_wraps {off : Nat} {len : Int} (hlen : len < 2 ^ 31) (hoff : off + 4 ≤ intMax)
    (hover : intMax < off + 4 + len.toNat) : toInt ((off + 4 : Nat) + len) < 0 := by
  unfold intMax at hoff hover
  exact toInt_neg_of_wrap (by omega) (by omega)

def Faults {α : Type} (r : Except Failure α) : Prop :=
  ∃ f, r = .error f ∧ f ≠ .invalid

instance {α : Type} : (r : Except Failure α) → Decidable (Faults r)
  | .ok _ => isFalse fun ⟨_, h, _⟩ => nomatch h
  | .error f =>
    if hf : f = .invalid then isFalse fun ⟨_, h, h'⟩ => h' (by cases h; exact hf)
    else isTrue ⟨f, rfl, hf⟩

@[simp] theorem not_faults_ok {α : Type} (a : α) : ¬ Faults (.ok a : Except Failure α) := by
  simp [Faults]

@[simp] theorem faults_error {α : Type} (f : Failure) :
    Faults (.error f : Except Failure α) ↔ f ≠ .invalid := by
  simp [Faults]

theorem faults_bind {α β : Type} {r : Except Failure α} {g : α → Except Failure β} :
    Faults (r >>= g) ↔ Faults r ∨ ∃ a, r = .ok a ∧ Faults (g a) := by
  cases r <;> simp

def stringAt (packed : Octstr) (off : Nat) : Octstr :=
  (packed.drop (off + 4)).take (announced packed off).toNat

variable {packed : Octstr} {off : Nat}
variable {pos : Int}

theorem parseInteger_neg (h : pos < 0) : parseInteger packed pos = .error .assertion := by
  simp [parseInteger, h]

theorem parseInteger_overflow (h : intMax < off + 4) :
    parseInteger packed off = .error .overflow := by
  have h0 : ¬ (off : Int) < 0 := by omega
  have h1 : (off : Int) + 4 > intMax := by omega
  simp only [parseInteger, h0, h1, if_false, if_true]

theorem parseInteger_short (hoff : off + 4 ≤ intMax) (h : packed.length < off + 4) :
    parseInteger packed off = .error .invalid := by
  have h0 : ¬ (off : Int) < 0 := by omega
  have h1 : ¬ (off : Int) + 4 > intMax := by omega
  have h2 : (off : Int) + 4 > packed.length := by omega
  simp only [parseInteger, h0, h1, h2, if_false, if_true]

theorem parseInteger_ok (hoff : off + 4 ≤ intMax) (h : off + 4 ≤ packed.length) :
    parseInteger packed off = .ok (announced packed off, ((off + 4 : Nat) : Int)) := by
  have h0 : ¬ (off : Int) < 0 := by omega
  have h1 : ¬ (off : Int) + 4 > intMax := by omega
  have h2 : ¬ (off : Int) + 4 > packed.length := by omega
  simp only [parseInteger, h0, h1, h2, if_false, octstrGetManyChars, announced,
    Int.toNat_natCast, Nat.cast_add, Nat.cast_ofNat]

variable {f : Failure}

theorem parseString_of_error (h : parseInteger packed pos = .error f) :
    parseString packed pos = .error f := by
  rw [parseString, h, error_bind]

section Offset
variable (hoff : off + 4 ≤ intMax)
include hoff

section
variable (h : off + 4 ≤ packed.length)
include h

theorem parseString_null (hnull : announced packed off = -1) :
    parseString packed off = .ok (none, ((off + 4 : Nat) : Int)) := by
  rw [parseString, parseInteger_ok hoff h, hnull]
  rfl

theorem parseString_negative (hnull : announced packed off ≠ -1) (hneg : announced packed off < 0) :
    parseString packed off = .error .assertion := by
  rw [parseString, parseInteger_ok hoff h, ok_bind]
  dsimp only
  rw [if_neg hnull, octstrCopy_neg _ _ hneg, error_bind]

theorem parseString_some (h0 : 0 ≤ announced packed off) :
    parseString packed off =
      .ok (some (stringAt packed off), toInt ((off + 4 : Nat) + announced packed off)) := by
  rw [parseString, parseInteger_ok hoff h, ok_bind]
  dsimp only
  rw [stringAt]
  obtain ⟨len, hlen⟩ := Int.eq_ofNat_of_zero_le h0
  rw [hlen, octstrCopy_nat]
  rfl

theorem parseString_fits (h0 : 0 ≤ announced packed off)
    (hfit : off + 4 + (announced packed off).toNat ≤ intMax) :
    parseString packed off =
      .ok (some (stringAt packed off), ((off + 4 + (announced packed off).toNat : Nat) : Int)) := by
  rw [parseString_some hoff h h0, advance_fits h0 hfit]

theorem parseString_wraps (h0 : 0 ≤ announced packed off)
    (hover : intMax < off + 4 + (announced packed off).toNat) :
    ∃ pos < 0, parseString packed off = .ok (some (stringAt packed off), pos) :=
  ⟨_, advance_wraps (announced_range packed off).2 hoff hover, parseString_some hoff h h0⟩

end
end Offset

theorem uuidParse_null : uuidParse (octstrGetCstr none) = none :=
  uuidParse_short (by decide)

theorem parseUuid_of_error (h : parseString packed pos = .error f) :
    parseUuid packed pos = .error f := by
  rw [parseUuid, h, error_bind]

variable {next : Int} {s : Option Octstr}

theorem parseUuid_of_bad (h : parseString packed pos = .ok (s, next))
    (hbad : uuidParse (octstrGetCstr s) = none) : parseUuid packed pos = .error .invalid := by
  rw [parseUuid, h, ok_bind]
  dsimp only
  rw [hbad]

theorem parseUuid_of_good {id : Uuid} (h : parseString packed pos = .ok (s, next))
    (hgood : uuidParse (octstrGetCstr s) = some id) :
    parseUuid packed pos = .ok (id, next) := by
  rw [parseUuid, h, ok_bind]
  dsimp only
  rw [hgood]
  rfl

theorem parseField_neg (h : pos < 0) {k : FieldKind} (hk : k ≠ .void) :
    parseField packed pos k = .error .assertion := by
  cases k with
  | integer => exact parseInteger_neg h
  | octstr => exact parseString_of_error (parseInteger_neg h)
  | uuid => exact parseUuid_of_error (parseString_of_error (parseInteger_neg h))
  | void => exact absurd rfl hk

theorem parseCode_ok (h : 4 ≤ packed.length) :
    parseInteger packed 0 = .ok (announced packed 0, ((4 : Nat) : Int)) :=
  @parseInteger_ok packed 0 (by decide) h

theorem parseCode_short (h : packed.length < 4) : parseInteger packed 0 = .error .invalid :=
  @parseInteger_short packed 0 (by decide) h

theorem msgUnpack_of_error (h : parseInteger packed 0 = .error f) :
    msgUnpack packed = .error f := by
  rw [msgUnpack, h, error_bind]

theorem msgUnpack_of_unknown {i : Int} (h : parseInteger packed 0 = .ok (i, next))
    (ht : MsgType.ofCode i = none) : msgUnpack packed = .error .invalid := by
  rw [msgUnpack, h, ok_bind]
  simp only [ht]

theorem msgUnpack_of_type {i : Int} {t : MsgType} (h : parseInteger packed 0 = .ok (i, next))
    (ht : MsgType.ofCode i = some t) :
    msgUnpack packed = parseFields packed t.decl next >>= fun r => pure (Msg.ofFields t r.1) := by
  rw [msgUnpack, h, ok_bind]
  simp only [ht]

end Kannel
