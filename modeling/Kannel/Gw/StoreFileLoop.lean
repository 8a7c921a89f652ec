import Kannel.Gw.MsgParse
import Kannel.Gw.StoreFile

/-!
# When the store file is read to its end

The loop goes on after every error of `read_msg`; a tail of one to three octets is read again
and again.
-/

namespace Kannel

variable {os : Octstr} {pos : Nat} {smsDict : Dict Sms 2048} {env : Surroundings}

theorem readMsg_short (h : os.length < pos + 4) : readMsg os pos = .ok (none, pos) :=
  if_pos h

private theorem readMsg_full (h : pos + 4 ≤ os.length) :
    readMsg os pos =
      octstrCopy os (pos + 4 : Nat) (announced os pos) >>= fun pack =>
        storeMsgUnpack pack >>= fun msg => pure (msg, pos + 4 + pack.length) :=
  if_neg (Nat.not_lt.mpr h)

theorem readMsg_negative (h : pos + 4 ≤ os.length) (hneg : announced os pos < 0) :
    readMsg os pos = .error .assertion := by
  rw [readMsg_full h, octstrCopy_neg _ _ hneg, error_bind]

theorem readMsg_record (h : pos + 4 ≤ os.length) (h0 : 0 ≤ announced os pos) :
    readMsg os pos =
      storeMsgUnpack (stringAt os pos) >>= fun msg =>
        pure (msg, pos + 4 + (stringAt os pos).length) := by
  rw [readMsg_full h]
  unfold stringAt
  obtain ⟨len, hlen⟩ := Int.eq_ofNat_of_zero_le h0
  rw [hlen, octstrCopy_nat, ok_bind, Int.toNat_natCast]

theorem storeMsgUnpack_faults {pack : Octstr} :
    (∃ f, storeMsgUnpack pack = .error f) ↔ Faults (msgUnpack pack) := by
  unfold storeMsgUnpack
  cases msgUnpack pack with
  | ok msg => simp
  | error f => cases f <;> simp

theorem loadStep_of_ok {msg : Option Msg} {next : Nat} (h : readMsg os pos = .ok (msg, next)) :
    loadStep env os pos smsDict = .ok (next, loadMsg env smsDict msg) := by
  rw [loadStep, h]
  rfl

theorem loadStep_of_error {f : Failure} (h : readMsg os pos = .error f) :
    loadStep env os pos smsDict = .error f := by
  rw [loadStep, h, error_bind]

inductive RecordStart (os : Octstr) : Nat → Prop
  | start : RecordStart os 0
  | next {pos : Nat} : RecordStart os pos → pos + 4 ≤ os.length → 0 ≤ announced os pos →
      ¬ Faults (msgUnpack (stringAt os pos)) →
      RecordStart os (pos + 4 + (stringAt os pos).length)

def NoStub (os : Octstr) : Prop :=
  ∀ pos, RecordStart os pos → pos < os.length → pos + 4 ≤ os.length

inductive Reached (os : Octstr) (smsDict : Dict Sms 2048) : Nat → Dict Sms 2048 → Prop
  | start : Reached os smsDict 0 smsDict
  | step {env : Surroundings} {pos next : Nat} {d d' : Dict Sms 2048} :
      Reached os smsDict pos d → pos < os.length → loadStep env os pos d = .ok (next, d') →
      Reached os smsDict next d'

def EveryIterationMoves (os : Octstr) (smsDict : Dict Sms 2048) : Prop :=
  ∀ pos d, Reached os smsDict pos d → pos < os.length → ∀ env,
    (∃ f, loadStep env os pos d = .error f) ∨
      ∃ next d', loadStep env os pos d = .ok (next, d') ∧ pos < next

def LoadTerminates (env : Nat → Surroundings) (os : Octstr) (smsDict : Dict Sms 2048) : Prop :=
  ∃ fuel, (loadLoop env os fuel 0 smsDict).isSome

theorem loadStep_cases (env : Surroundings) (smsDict : Dict Sms 2048) (h : pos + 4 ≤ os.length) :
    (∃ f, loadStep env os pos smsDict = .error f) ∨
      (0 ≤ announced os pos ∧ ¬ Faults (msgUnpack (stringAt os pos)) ∧
        ∃ d', loadStep env os pos smsDict = .ok (pos + 4 + (stringAt os pos).length, d')) := by
  by_cases h0 : 0 ≤ announced os pos
  · have hread := readMsg_record h h0
    cases hpack : storeMsgUnpack (stringAt os pos) with
    | error f =>
      rw [hpack] at hread
      exact Or.inl ⟨f, loadStep_of_error hread⟩
    | ok msg =>
      rw [hpack] at hread
      have hsafe : ¬ Faults (msgUnpack (stringAt os pos)) := by
        rw [← storeMsgUnpack_faults, hpack]
        rintro ⟨f, hf⟩
        cases hf
      exact Or.inr ⟨h0, hsafe, _, loadStep_of_ok hread⟩
  · exact Or.inl ⟨_, loadStep_of_error (readMsg_negative h (Int.not_le.mp h0))⟩

theorem recordStart_of_reached (hstub : NoStub os) {d : Dict Sms 2048}
    (h : Reached os smsDict pos d) : RecordStart os pos := by
  induction h with
  | start => exact .start
  | @step env pos next d d' _ hpos hstep ih =>
    have hword := hstub pos ih hpos
    rcases loadStep_cases env d hword with ⟨f, hf⟩ | ⟨h0, hsafe, d'', hok⟩
    · rw [hf] at hstep
      cases hstep
    · rw [hok] at hstep
      rw [← (Prod.mk.inj (Except.ok.inj hstep)).1]
      exact .next ih hword h0 hsafe

theorem loadLoop_done (h : os.length ≤ pos) (env : Nat → Surroundings) (fuel : Nat) :
    loadLoop env os fuel pos smsDict = some (.ok smsDict) := by
  cases fuel <;> rw [loadLoop, if_neg (Nat.not_lt.mpr h)]

theorem loadLoop_isSome (hstub : NoStub os) (env : Nat → Surroundings) (fuel : Nat)
    (hstart : RecordStart os pos) (hfuel : os.length ≤ pos + fuel) (d : Dict Sms 2048) :
    (loadLoop env os fuel pos d).isSome := by
  induction fuel generalizing pos d with
  | zero =>
    rw [loadLoop_done (by omega)]
    rfl
  | succ fuel ih =>
    rw [loadLoop]
    split
    · next hpos =>
      have hword := hstub pos hstart hpos
      rcases loadStep_cases (env fuel) d hword with ⟨f, hf⟩ | ⟨h0, hsafe, d', hok⟩
      · simp only [hf, Option.isSome_some]
      · simp only [hok]
        exact ih (.next hstart hword h0 hsafe) (by omega) d'
    · rfl

theorem loadLoop_stub (hpos : pos < os.length) (hstub : os.length < pos + 4)
    (env : Nat → Surroundings) (fuel : Nat) (d : Dict Sms 2048) :
    loadLoop env os fuel pos d = none := by
  induction fuel generalizing d with
  | zero => rw [loadLoop, if_pos hpos]
  | succ fuel ih =>
    rw [loadLoop, if_pos hpos]
    simp only [loadStep_of_ok (readMsg_short hstub)]
    exact ih _

theorem loadLoop_none_of_recordStart (hstart : RecordStart os pos)
    (hnone : ∀ env fuel d, loadLoop env os fuel pos d = none) :
    ∀ env fuel d, loadLoop env os fuel 0 d = none := by
  induction hstart with
  | start => exact hnone
  | @next pos _ hword h0 hsafe ih =>
    refine ih fun env fuel d => ?_
    have hpos : pos < os.length := by omega
    cases fuel with
    | zero => rw [loadLoop, if_pos hpos]
    | succ fuel =>
      rw [loadLoop, if_pos hpos]
      cases hpack : storeMsgUnpack (stringAt os pos) with
      | error f => exact absurd (storeMsgUnpack_faults.mp ⟨f, hpack⟩) hsafe
      | ok msg =>
        have hread := readMsg_record hword h0
        rw [hpack] at hread
        simp only [loadStep_of_ok hread]
        exact hnone env fuel _

/-- **Reading the store file** ends exactly if no record that is reached starts in the last
three octets. -/
theorem loadLoop_terminates_iff (env : Nat → Surroundings) (os : Octstr)
    (smsDict : Dict Sms 2048) :
    LoadTerminates env os smsDict ∧ EveryIterationMoves os smsDict ↔ NoStub os := by
  constructor
  · rintro ⟨⟨fuel, hend⟩, -⟩ pos hstart hpos
    by_contra hstub
    have hnone := loadLoop_none_of_recordStart hstart
      (loadLoop_stub hpos (Nat.not_le.mp hstub)) env fuel smsDict
    rw [hnone] at hend
    cases hend
  · intro hstub
    refine ⟨⟨os.length, loadLoop_isSome hstub env _ .start (by omega) smsDict⟩, ?_⟩
    intro pos d hreached hpos env
    have hword := hstub pos (recordStart_of_reached hstub hreached) hpos
    rcases loadStep_cases env d hword with herror | ⟨-, -, d', hok⟩
    · exact Or.inl herror
    · exact Or.inr ⟨_, d', hok, by omega⟩

theorem loadLoop_three_octets :
    ¬ LoadTerminates (fun _ => ⟨.random uuidClear, 0⟩) [0, 0, 0] (dictCreate Sms 1024) := by
  rintro ⟨fuel, hend⟩
  rw [loadLoop_stub (by decide) (by decide)] at hend
  cases hend

end Kannel
