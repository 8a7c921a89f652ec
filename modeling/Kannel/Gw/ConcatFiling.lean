import Kannel.Gw.ConcatFlush
import Kannel.Gwlib.JsonWrite

/-!
# What is filed, saved and given back

The key does not escape quotes, the joined message is saved before its header is put right, a
part stays in its entry when saving fails, and the entry of an unknown connection is thrown
away.
-/

namespace Kannel
open List
variable {size : Nat} [NeZero size]

def addressText (msg : Sms) (smscid : Octstr) : Octstr :=
  formatString msg.sender ++ ascii "' '" ++ formatString msg.receiver ++ ascii "' '" ++ smscid

theorem append_quote_inj {a b w v : Octstr} (hw : 39 ∉ w) (hv : 39 ∉ v)
    (h : a ++ 39 :: w = b ++ 39 :: v) : a = b ∧ w = v := by
  induction a generalizing b with
  | nil =>
    cases b with
    | nil => exact ⟨rfl, tail_eq_of_cons_eq h⟩
    | cons c b =>
      obtain ⟨-, rfl⟩ := List.cons.inj h
      exact absurd (mem_append_right b mem_cons_self) hw
  | cons c a ih =>
    cases b with
    | nil =>
      obtain ⟨-, rfl⟩ := List.cons.inj h
      exact absurd (mem_append_right a mem_cons_self) hv
    | cons d b =>
      obtain ⟨rfl, htail⟩ := List.cons.inj h
      obtain ⟨rfl, rfl⟩ := ih htail
      exact ⟨rfl, rfl⟩

theorem formatDecimal_no_quote (n : Int) : 39 ∉ formatDecimal n := by
  intro h
  rcases mem_formatDecimal h with hsign | hdigit
  · cases hsign
  · cases hdigit

private theorem hexit_inj : ∀ d < 16, ∀ e < 16,
    UInt8.ofNat (if d < 10 then 48 + d else 55 + d) =
      UInt8.ofNat (if e < 10 then 48 + e else 55 + e) → d = e := by
  decide

private theorem hexit_ne_quote : ∀ d < 16,
    UInt8.ofNat (if d < 10 then 48 + d else 55 + d) ≠ 39 := by
  decide

theorem hexits_inj {c d : UInt8} (h : octstrBinaryToHex [c] = octstrBinaryToHex [d]) : c = d := by
  simp only [octstrBinaryToHex, flatMap_singleton, List.cons.injEq, and_true] at h
  have hc := c.toNat_lt
  have hd := d.toNat_lt
  have hhigh := hexit_inj _ (by omega) _ (by omega) h.1
  have hlow := hexit_inj _ (by omega) _ (by omega) h.2
  exact UInt8.toNat_inj.mp (by omega)

theorem hexits_no_quote (c : UInt8) : 39 ∉ octstrBinaryToHex [c] := by
  have hc := c.toNat_lt
  have hhigh := hexit_ne_quote (c.toNat / 16) (by omega)
  have hlow := hexit_ne_quote (c.toNat % 16) (by omega)
  simp only [octstrBinaryToHex, flatMap_singleton, mem_cons, not_mem_nil, or_false]
  exact fun h => h.elim (hhigh ∘ Eq.symm) (hlow ∘ Eq.symm)

theorem octstrBinaryToHex_cons (c : UInt8) (ostr : Octstr) :
    octstrBinaryToHex (c :: ostr) = octstrBinaryToHex [c] ++ octstrBinaryToHex ostr := rfl

theorem octstrBinaryToHex_no_quote (ostr : Octstr) : 39 ∉ octstrBinaryToHex ostr := by
  induction ostr with
  | nil => exact not_mem_nil
  | cons c ostr ih =>
    rw [octstrBinaryToHex_cons, mem_append]
    exact fun h => h.elim (hexits_no_quote c) ih

theorem octstrBinaryToHex_injective : Function.Injective octstrBinaryToHex := by
  intro a
  induction a with
  | nil =>
    intro b h
    cases b with
    | nil => rfl
    | cons d b => cases h
  | cons c a ih =>
    intro b h
    cases b with
    | nil => cases h
    | cons d b =>
      obtain ⟨hhead, htail⟩ := append_inj h rfl
      rw [hexits_inj hhead, ih htail]

variable {msg msg' : Sms} {smscid smscid' : Octstr} {info info' : ConcatInfo}

theorem concatKey_eq (msg : Sms) (smscid : Octstr) (info : ConcatInfo) :
    concatKey msg smscid info =
      39 :: addressText msg smscid ++ 39 :: [32] ++ 39 :: formatDecimal info.refnum ++
        39 :: [32] ++ 39 :: formatDecimal info.totalParts ++ 39 :: [32] ++
        39 :: octstrBinaryToHex info.udh ++ 39 :: [] := by
  simp [concatKey, addressText, List.intercalate, ascii]

theorem concatKey_eq_iff : concatKey msg smscid info = concatKey msg' smscid' info' ↔
    addressText msg smscid = addressText msg' smscid' ∧ info.refnum = info'.refnum ∧
      info.totalParts = info'.totalParts ∧ info.udh = info'.udh := by
  rw [concatKey_eq, concatKey_eq]
  constructor
  · intro h
    have hblank : (39 : UInt8) ∉ [32] := by decide
    obtain ⟨h, -⟩ := append_quote_inj not_mem_nil not_mem_nil h
    obtain ⟨h, hudh⟩ := append_quote_inj (octstrBinaryToHex_no_quote _)
      (octstrBinaryToHex_no_quote _) h
    obtain ⟨h, -⟩ := append_quote_inj hblank hblank h
    obtain ⟨h, htotal⟩ := append_quote_inj (formatDecimal_no_quote _) (formatDecimal_no_quote _) h
    obtain ⟨h, -⟩ := append_quote_inj hblank hblank h
    obtain ⟨h, hrefnum⟩ := append_quote_inj (formatDecimal_no_quote _) (formatDecimal_no_quote _) h
    obtain ⟨h, -⟩ := append_quote_inj hblank hblank h
    exact ⟨tail_eq_of_cons_eq h, formatDecimal_injective hrefnum, formatDecimal_inj.mp htotal,
      octstrBinaryToHex_injective hudh⟩
  · rintro ⟨haddress, hrefnum, htotal, hudh⟩
    rw [haddress, hrefnum, htotal, hudh]

/-- The addresses of a part have no quote in them, and none is spelt as `NULL` is printed. -/
structure PlainAddresses (msg : Sms) (smscid : Octstr) : Prop where
  sender : 39 ∉ msg.sender.getD [] ∧ msg.sender ≠ some (ascii "(null)")
  receiver : 39 ∉ msg.receiver.getD [] ∧ msg.receiver ≠ some (ascii "(null)")
  smscid : 39 ∉ smscid

theorem formatString_no_quote {address : Option Octstr} (h : 39 ∉ address.getD []) :
    39 ∉ formatString address := by
  cases address with
  | none => decide
  | some address => exact h

theorem formatString_inj {address address' : Option Octstr} (h : address ≠ some (ascii "(null)"))
    (h' : address' ≠ some (ascii "(null)")) (heq : formatString address = formatString address') :
    address = address' := by
  cases address with
  | none =>
    cases address' with
    | none => rfl
    | some _ => exact absurd (congrArg some heq.symm) h'
  | some _ =>
    cases address' with
    | none => exact absurd (congrArg some heq) h
    | some _ => exact congrArg some heq

theorem addressText_inj (h : PlainAddresses msg smscid) (h' : PlainAddresses msg' smscid')
    (heq : addressText msg smscid = addressText msg' smscid') :
    msg.sender = msg'.sender ∧ msg.receiver = msg'.receiver ∧ smscid = smscid' := by
  have hblank : (39 : UInt8) ∉ [32] := by decide
  have hsplit : ∀ (msg : Sms) (smscid : Octstr), addressText msg smscid =
      formatString msg.sender ++ 39 :: [32] ++ 39 :: formatString msg.receiver ++
        39 :: [32] ++ 39 :: smscid := by
    intro msg smscid
    simp [addressText, ascii]
  -- the fields are read off from the end, one border at a time
  rw [hsplit, hsplit] at heq
  obtain ⟨heq, hsmscid⟩ := append_quote_inj h.smscid h'.smscid heq
  obtain ⟨heq, -⟩ := append_quote_inj hblank hblank heq
  obtain ⟨heq, hreceiver⟩ := append_quote_inj (formatString_no_quote h.receiver.1)
    (formatString_no_quote h'.receiver.1) heq
  obtain ⟨hsender, -⟩ := append_quote_inj hblank hblank heq
  exact ⟨formatString_inj h.sender.2 h'.sender.2 hsender,
    formatString_inj h.receiver.2 h'.receiver.2 hreceiver, hsmscid⟩

/-- **Keys.**  Two parts whose addresses have no quote in them, and are not spelt as `NULL` is
printed, are filed under one key only if they are the same in all they are told apart by. -/
theorem concatKey_separates {msg msg' : Sms} {smscid smscid' : Octstr} {info info' : ConcatInfo}
    (h : PlainAddresses msg smscid) (h' : PlainAddresses msg' smscid')
    (hkey : concatKey msg smscid info = concatKey msg' smscid' info') :
    msg.sender = msg'.sender ∧ msg.receiver = msg'.receiver ∧ smscid = smscid' ∧
      info.refnum = info'.refnum ∧ info.totalParts = info'.totalParts ∧ info.udh = info'.udh := by
  obtain ⟨haddress, hnumbers⟩ := concatKey_eq_iff.mp hkey
  obtain ⟨hsender, hreceiver, hsmscid⟩ := addressText_inj h h' haddress
  exact ⟨hsender, hreceiver, hsmscid, hnumbers⟩

def partBetween (sender receiver : String) : Sms :=
  { smsCreate uuidClear with
    sender := some (ascii sender), receiver := some (ascii receiver),
    udhdata := some [5, 0, 3, 7, 2, 1] }

/-- Between numbers the borders stay where they are. -/
theorem concatKey_separates_numbers :
    ∃ info, (partBetween "1" "23").udhdata.bind concatInfo = some info ∧
      concatKey (partBetween "1" "23") [115] info ≠
        concatKey (partBetween "12" "3") [115] info := by
  refine ⟨_, rfl, fun hkey => ?_⟩
  have h : PlainAddresses (partBetween "1" "23") [115] := ⟨by decide, by decide, by decide⟩
  have h' : PlainAddresses (partBetween "12" "3") [115] := ⟨by decide, by decide, by decide⟩
  exact absurd (concatKey_separates h h' hkey).1 (by decide)

/-- A quote in a sender moves the border to the receiver. -/
theorem concatKey_collides :
    ∃ info, (partBetween "1' '2" "3").udhdata.bind concatInfo = some info ∧
      (partBetween "1" "2' '3").udhdata.bind concatInfo = some info ∧
      concatKey (partBetween "1' '2" "3") [115] info =
        concatKey (partBetween "1" "2' '3") [115] info ∧
      (partBetween "1' '2" "3").sender ≠ (partBetween "1" "2' '3").sender :=
  ⟨_, rfl, rfl, by decide +kernel, by decide⟩

variable {env : Surroundings} {storeSave : Sms → Bool} {table table' : Dict ConcatMsg size}
  {outcome : ConcatOutcome} {state' : ConcatState size}

def entryOf (table : Dict ConcatMsg size) (msg : Sms) (smscid : Octstr) (info : ConcatInfo) :
    ConcatMsg :=
  (dictGet table (concatKey msg smscid info)).getD
    (newConcatMsg info (concatKey msg smscid info) smscid)

def enteredOf (env : Surroundings) (table : Dict ConcatMsg size) (msg : Sms) (smscid : Octstr)
    (info : ConcatInfo) : ConcatMsg :=
  (entryOf table msg smscid info).enter info.part msg env.now

theorem check_eq_file (hinfo : msg.udhdata.bind concatInfo = some info) :
    concatHandlingCheckAndHandle env storeSave ⟨true, some table⟩ msg (some smscid) =
      (fileConcatPart env storeSave table msg smscid info).map
        fun r => (r.1, ⟨true, some r.2⟩) := by
  simp only [concatHandlingCheckAndHandle, hinfo, if_true]
  cases fileConcatPart env storeSave table msg smscid info <;> rfl

theorem file_of_check (hinfo : msg.udhdata.bind concatInfo = some info)
    (hcheck : concatHandlingCheckAndHandle env storeSave ⟨true, some table⟩ msg (some smscid) =
      .ok (outcome, state')) :
    ∃ table', fileConcatPart env storeSave table msg smscid info = .ok (outcome, table') ∧
      state' = ⟨true, some table'⟩ := by
  rw [check_eq_file hinfo] at hcheck
  obtain ⟨r, hfile, ⟨⟩⟩ := bind_eq_ok_iff.mp hcheck
  exact ⟨r.2, hfile, rfl⟩

variable {parts : List (Option Sms)}

theorem udhdata_of_joinParts {entropy : Entropy} {joined : Sms}
    (h : joinParts entropy parts = .ok joined) :
    ∃ first, parts[0]? = some (some first) ∧ joined.udhdata = first.udhdata := by
  cases parts with
  | nil => cases h
  | cons first parts =>
    cases first with
    | none => cases h
    | some first =>
      obtain ⟨msgdata, -, h⟩ := bind_eq_ok_iff.mp h
      cases h
      exact ⟨first, rfl, rfl⟩

theorem fileConcatPart_eq : fileConcatPart env storeSave table msg smscid info =
    match (entryOf table msg smscid info).parts[info.part - 1]? with
    | none => .error .outside
    | some (some _) => .ok (⟨.pending, none, none, [(msg, .success)]⟩, table)
    | some none =>
      if (enteredOf env table msg smscid info).numParts <
          (enteredOf env table msg smscid info).totalParts then
        .ok (⟨.pending, none, none, []⟩, dictPut table (concatKey msg smscid info)
          (some (enteredOf env table msg smscid info)))
      else completeConcatMsg env storeSave table (concatKey msg smscid info)
        (enteredOf env table msg smscid info) := rfl

theorem complete_of_file (hfile : fileConcatPart env storeSave table msg smscid info =
    .ok (outcome, table')) (hret : outcome.ret ≠ .pending) :
    (entryOf table msg smscid info).parts[info.part - 1]? = some none ∧
      (enteredOf env table msg smscid info).totalParts ≤
        (enteredOf env table msg smscid info).numParts ∧
      completeConcatMsg env storeSave table (concatKey msg smscid info)
        (enteredOf env table msg smscid info) = .ok (outcome, table') := by
  rw [fileConcatPart_eq] at hfile
  split at hfile
  · cases hfile
  · cases hfile
    exact absurd rfl hret
  · next hslot =>
    split_ifs at hfile with hless
    · cases hfile
      exact absurd rfl hret
    · exact ⟨hslot, Int.not_lt.mp hless, hfile⟩

/-- **What is saved** is what is given back exactly if the first header has no concatenation
element. -/
theorem saved_eq_returned_iff (hinfo : msg.udhdata.bind concatInfo = some info)
    (hcheck : concatHandlingCheckAndHandle env storeSave ⟨true, some table⟩ msg (some smscid) =
      .ok (outcome, state')) (hret : outcome.ret = .complete) :
    outcome.saved = outcome.pmsg ↔
      ∃ first, (enteredOf env table msg smscid info).parts[0]? = some (some first) ∧
        first.udhdata = some (enteredOf env table msg smscid info).udh := by
  obtain ⟨table', hfile, rfl⟩ := file_of_check hinfo hcheck
  obtain ⟨-, -, hcomplete⟩ := complete_of_file hfile (by simp [hret])
  obtain ⟨joined, hjoined, hrest⟩ := bind_eq_ok_iff.mp hcomplete
  obtain ⟨first, hfirst, hudh⟩ := udhdata_of_joinParts hjoined
  have hstamp : (stamp env joined).udhdata = joined.udhdata := by
    unfold stamp
    dsimp only
    split_ifs <;> rfl
  dsimp only at hrest
  split_ifs at hrest
  · cases hrest
    constructor
    · intro h
      have hsame := congrArg Sms.udhdata (Option.some.inj h)
      exact ⟨first, hfirst, by rw [← hudh, ← hstamp, hsame]⟩
    · rintro ⟨first', hfirst', hsame⟩
      cases hfirst.symm.trans hfirst'
      rw [← hsame, ← hudh, ← hstamp]
  · cases hrest
    cases hret

def onlyPart : Sms :=
  { smsCreate uuidClear with udhdata := some [5, 0, 3, 7, 1, 1], msgdata := some [46] }

def onlyInfo : ConcatInfo := ⟨7, 1, 1, [], by decide, by decide⟩

def checkOnlyPart (storeSave : Sms → Bool) : Except Failure (ConcatOutcome × ConcatState (1 * 2)) :=
  concatHandlingCheckAndHandle ⟨.random uuidClear, 0⟩ storeSave
    ⟨true, some (dictCreate ConcatMsg 1)⟩ onlyPart (some [115])

theorem saved_with_element : ∃ outcome state',
    checkOnlyPart (fun _ => true) = .ok (outcome, state') ∧ outcome.ret = .complete ∧
    outcome.saved.bind Sms.udhdata = some [5, 0, 3, 7, 1, 1] ∧
    outcome.pmsg.bind Sms.udhdata = some [] :=
  ⟨_, _, rfl, rfl, rfl, rfl⟩

theorem saved_eq_returned_iff_only : ∃ outcome state',
    checkOnlyPart (fun _ => true) = .ok (outcome, state') ∧
    (outcome.saved = outcome.pmsg ↔ ∃ first,
      (enteredOf ⟨.random uuidClear, 0⟩ (dictCreate ConcatMsg 1) onlyPart [115]
        onlyInfo).parts[0]? = some (some first) ∧ first.udhdata = some []) :=
  ⟨_, _, rfl, saved_eq_returned_iff rfl (show checkOnlyPart (fun _ => true) = _ from rfl) rfl⟩

/-- The part completes its message, and the joined message cannot be saved. -/
def SaveFails (env : Surroundings) (storeSave : Sms → Bool) (table : Dict ConcatMsg size)
    (msg : Sms) (smscid : Octstr) (info : ConcatInfo) : Prop :=
  (entryOf table msg smscid info).parts[info.part - 1]? = some none ∧
    (enteredOf env table msg smscid info).totalParts ≤
      (enteredOf env table msg smscid info).numParts ∧
    ∃ joined, joinParts env.entropy (enteredOf env table msg smscid info).parts = .ok joined ∧
      storeSave (stamp env joined) = false

theorem file_of_saveFails (h : SaveFails env storeSave table msg smscid info) :
    ∃ saved, fileConcatPart env storeSave table msg smscid info =
      .ok (⟨.error, none, some saved, []⟩, dictPut table (concatKey msg smscid info)
        (some (enteredOf env table msg smscid info))) := by
  obtain ⟨hslot, hfull, joined, hjoined, hsave⟩ := h
  refine ⟨stamp env joined, ?_⟩
  rw [fileConcatPart_eq, hslot]
  rw [if_neg (Int.not_lt.mpr hfull), completeConcatMsg, hjoined, ok_bind]
  dsimp only
  rw [hsave]
  rfl

theorem saveFails_of_file (hfile : fileConcatPart env storeSave table msg smscid info =
    .ok (outcome, table')) (hret : outcome.ret = .error) :
    SaveFails env storeSave table msg smscid info := by
  obtain ⟨hslot, hfull, hcomplete⟩ := complete_of_file hfile (by simp [hret])
  obtain ⟨joined, hjoined, hrest⟩ := bind_eq_ok_iff.mp hcomplete
  refine ⟨hslot, hfull, joined, hjoined, ?_⟩
  dsimp only at hrest
  split_ifs at hrest with hsave
  · cases hrest
    cases hret
  · exact eq_false_of_ne_true hsave

theorem file_again (hslot : (entryOf table msg smscid info).parts[info.part - 1]? = some none)
    (env' : Surroundings) (storeSave' : Sms → Bool) :
    fileConcatPart env' storeSave' (dictPut table (concatKey msg smscid info)
        (some (enteredOf env table msg smscid info))) msg smscid info =
      .ok (⟨.pending, none, none, [(msg, .success)]⟩, dictPut table (concatKey msg smscid info)
        (some (enteredOf env table msg smscid info))) := by
  obtain ⟨hlt, -⟩ := List.getElem?_eq_some_iff.mp hslot
  have hentry : entryOf (dictPut table (concatKey msg smscid info)
      (some (enteredOf env table msg smscid info))) msg smscid info =
      enteredOf env table msg smscid info := by
    rw [entryOf, dictGet_dictPut, if_pos rfl, Option.getD_some]
  have hthere : (enteredOf env table msg smscid info).parts[info.part - 1]? = some (some msg) :=
    List.getElem?_set_self hlt
  rw [fileConcatPart_eq, hentry, hthere]

/-- **Redelivery.**  A failed call leaves the table, and the part delivered again completes the
message, exactly if no call fails to save. -/
theorem redelivery_completes_iff (hinfo : msg.udhdata.bind concatInfo = some info)
    (hcheck : concatHandlingCheckAndHandle env storeSave ⟨true, some table⟩ msg (some smscid) =
      .ok (outcome, state')) :
    (outcome.ret = .error → state' = ⟨true, some table⟩ ∧ ∀ env', ∃ again state'',
      concatHandlingCheckAndHandle env' (fun _ => true) state' msg (some smscid) =
        .ok (again, state'') ∧ again.ret = .complete) ↔
    ¬ SaveFails env storeSave table msg smscid info := by
  obtain ⟨table', hfile, rfl⟩ := file_of_check hinfo hcheck
  constructor
  · intro hgood hfails
    obtain ⟨saved, hfile'⟩ := file_of_saveFails hfails
    cases hfile.symm.trans hfile'
    obtain ⟨-, hagain⟩ := hgood rfl
    obtain ⟨again, state'', hcheck', hret⟩ := hagain env
    rw [check_eq_file hinfo, file_again hfails.1] at hcheck'
    cases hcheck'
    cases hret
  · intro hnot hret
    exact absurd (saveFails_of_file hfile hret) hnot

/-- The part of a message that could not be saved is discarded when it comes again. -/
theorem redelivered_part_discarded : ∃ r, checkOnlyPart (fun _ => false) = .ok r ∧
    r.1.ret = .error ∧ ∃ again, concatHandlingCheckAndHandle ⟨.random uuidClear, 0⟩ (fun _ => true)
      r.2 onlyPart (some [115]) = .ok again ∧ again.1.ret = .pending ∧
      again.1.acked = [(onlyPart, .success)] := by
  decide +kernel

theorem redelivery_completes_iff_only :
    ¬ SaveFails ⟨.random uuidClear, 0⟩ (fun _ => true) (dictCreate ConcatMsg 1) onlyPart [115]
      onlyInfo :=
  (redelivery_completes_iff rfl (show checkOnlyPart (fun _ => true) = _ from rfl)).mp
    fun h => by cases h

def smsc2Find (adminIds : List (Option Octstr)) (id : Option Octstr) (start : Nat) : Option Nat :=
  match id with
  | none => none
  | some id =>
    if start > adminIds.length then none
    else ((adminIds.drop start).findIdx? (· = some id)).map (start + ·)

theorem flushLoop_get (receive : Nat → Reason) (i : Nat) {k : Nat} {part : Sms}
    (h : parts[k]? = some (some part)) :
    (flushLoop receive i parts).1[k]? = some none ∨
      (flushLoop receive i parts).2.2 = false ∧
        (flushLoop receive i parts).1[k]? = some (some part) := by
  induction parts generalizing i k with
  | nil => cases h
  | cons slot parts ih =>
    cases slot with
    | none =>
      cases k with
      | zero => cases h
      | succ k => exact ih (i + 1) h
    | some first =>
      rw [flushLoop]
      split_ifs
      · cases k with
        | zero => exact .inl rfl
        | succ k => exact ih (i + 1) h
      · exact .inr ⟨rfl, h⟩

/-- Nothing is acknowledged, and each part has been handed over or is in an entry. -/
def KeepsParts (s s' : ConcatSystem size) (x : ConcatMsg) (found : Bool)
    (receive : Nat → Reason) : Prop :=
  s'.acked = s.acked ∧ ∀ (k : Nat) (part : Sms), x.parts[k]? = some (some part) →
    found = true ∧ (x.flush receive).parts[k]? = some none ∨
      ∃ table key cmsg, s'.state.incomingConcatMsgs = some table ∧
        dictGet table key = some cmsg ∧ some part ∈ cmsg.parts

def ConcatMsg.IsEmpty (cmsg : ConcatMsg) : Prop := ∀ part, some part ∉ cmsg.parts

/-- There is room for what is left of an entry, beside one made meanwhile or under the other
key. -/
def CanBePutBack (table : Dict ConcatMsg size) (x : ConcatMsg) : Prop :=
  ∀ x1, dictGet table x.key = some x1 →
    (x.totalParts = x1.totalParts → ∀ (k : Nat) (part : Sms),
      x.parts[k]? = some (some part) → x1.parts[k]? = some none) ∧
    (x.totalParts ≠ x1.totalParts → ∀ cmsg,
      dictGet table (x.key ++ 32 :: formatDecimal x.totalParts) = some cmsg → cmsg.IsEmpty)

theorem destroyConcatMsg_eq_nil {cmsg : ConcatMsg} : destroyConcatMsg cmsg = [] ↔ cmsg.IsEmpty := by
  simp [destroyConcatMsg, ConcatMsg.IsEmpty, filterMap_eq_nil_iff, Option.forall]

theorem mergeLeft_eq_nil {x x1 : ConcatMsg} (h : x.totalParts = x1.totalParts) :
    x.mergeLeft x1 = [] ↔ ∀ (k : Nat) (part : Sms),
      x.parts[k]? = some (some part) → x1.parts[k]? = some none := by
  have hlength : x.parts.length = x1.parts.length := by rw [x.parts_len, x1.parts_len, h]
  unfold ConcatMsg.mergeLeft
  rw [map_eq_nil_iff, filterMap_eq_nil_iff]
  constructor
  · intro hall k part hpart
    obtain ⟨hk, hslot⟩ := List.getElem?_eq_some_iff.mp hpart
    have hmem := hall _ (getElem_mem (show k < (List.zipWith
      (fun new old => if new.isSome then old else none) x1.parts x.parts).length by
        rw [length_zipWith]; omega))
    rw [getElem_zipWith, hslot] at hmem
    rw [List.getElem?_eq_getElem (by omega)]
    cases hnew : x1.parts[k] with
    | none => rfl
    | some new => simp [hnew] at hmem
  · intro hall slot hslot
    obtain ⟨k, hk, rfl⟩ := mem_iff_getElem.mp hslot
    rw [getElem_zipWith]
    rw [length_zipWith] at hk
    cases hold : x.parts[k] with
    | none => simp
    | some old =>
      have hnew := hall k old (by rw [List.getElem?_eq_getElem (by omega), hold])
      rw [List.getElem?_eq_getElem (by omega)] at hnew
      simp [Option.some.inj hnew]

theorem putBack_acked (table : Dict ConcatMsg size) (x : ConcatMsg) :
    (putBack table x).2 = [] ↔ CanBePutBack table x := by
  unfold putBack CanBePutBack
  cases hx1 : dictGet table x.key with
  | none => simp
  | some x1 =>
    by_cases htotal : x.totalParts = x1.totalParts
    · simp [htotal, ← mergeLeft_eq_nil htotal]
    · cases hother : dictGet table (x.key ++ 32 :: formatDecimal x.totalParts) with
      | none => simp [htotal, hother]
      | some cmsg => simp [htotal, hother, destroyConcatMsg_eq_nil]

theorem putBack_keeps {x : ConcatMsg} (h : CanBePutBack table x) {k : Nat} {part : Sms}
    (hpart : x.parts[k]? = some (some part)) :
    ∃ key cmsg, dictGet (putBack table x).1 key = some cmsg ∧ some part ∈ cmsg.parts := by
  unfold putBack
  cases hx1 : dictGet table x.key with
  | none => exact ⟨x.key, x, by rw [dictGet_dictPut, if_pos rfl], mem_of_getElem? hpart⟩
  | some x1 =>
    by_cases htotal : x.totalParts = x1.totalParts
    · have hfree := (h x1 hx1).1 htotal k part hpart
      refine ⟨x.key, x.mergeInto x1 htotal, ?_, ?_⟩
      · dsimp only
        rw [dif_pos htotal, dictGet_dictPut, if_pos rfl]
      · have hmerged : (List.zipWith Option.or x1.parts x.parts)[k]? = some (some part) := by
          rw [List.getElem?_zipWith, hfree, hpart]
          rfl
        exact mem_of_getElem? hmerged
    · refine ⟨x.key ++ 32 :: formatDecimal x.totalParts,
        { x with key := x.key ++ 32 :: formatDecimal x.totalParts }, ?_, mem_of_getElem? hpart⟩
      dsimp only
      rw [dif_neg htotal, dictGet_dictPut, if_pos rfl]

/-- **No part is lost** of an old entry exactly if the smsc id is an admin id, or there is no
part, and what is refused can be put back. -/
theorem clearOldParts_keeps_iff (s : ConcatSystem size) (table : Dict ConcatMsg size) (i : Nat)
    (x : ConcatMsg) (adminIds : List (Option Octstr)) (receive : Nat → Reason) :
    KeepsParts s
        (s.finishFlush table i x (smsc2Find adminIds (some x.smscId) 0).isSome receive) x
        (smsc2Find adminIds (some x.smscId) 0).isSome receive ↔
      ((some x.smscId ∈ adminIds ∨ x.IsEmpty) ∧
        (some x.smscId ∈ adminIds → x.flushed receive = false →
          CanBePutBack table (x.flush receive))) := by
  have hfound : (smsc2Find adminIds (some x.smscId) 0).isSome = true ↔
      some x.smscId ∈ adminIds := by
    simp [smsc2Find]
  rw [← hfound]
  generalize (smsc2Find adminIds (some x.smscId) 0).isSome = found
  cases found with
  | false =>
    simp only [KeepsParts, ConcatSystem.finishFlush, if_true, append_right_eq_self,
      destroyConcatMsg_eq_nil, Bool.false_eq_true, false_and, false_or, false_imp_iff, and_true]
    refine and_iff_left_of_imp fun hempty k part hpart => ?_
    exact absurd (mem_of_getElem? hpart) (hempty part)
  | true =>
    cases hflushed : x.flushed receive with
    | true =>
      simp only [KeepsParts, ConcatSystem.finishFlush, hflushed, Bool.true_eq_false, if_false,
        if_true, true_and, true_or, false_imp_iff, imp_true_iff, iff_true]
      intro k part hpart
      rcases flushLoop_get receive 0 hpart with hgone | ⟨hleft, -⟩
      · exact .inl hgone
      · cases hflushed.symm.trans hleft
    | false =>
      simp only [KeepsParts, ConcatSystem.finishFlush, hflushed, Bool.true_eq_false, if_false,
        Bool.false_eq_true, append_right_eq_self, putBack_acked, true_and, true_or,
        true_imp_iff]
      refine and_iff_left_of_imp fun hroom k part hpart => ?_
      rcases flushLoop_get receive 0 hpart with hgone | ⟨-, hleft⟩
      · exact .inl hgone
      · obtain ⟨key, cmsg, hget, hmem⟩ := putBack_keeps hroom hleft
        exact .inr ⟨_, key, cmsg, rfl, hget, hmem⟩

theorem clearOldParts_keeps_known :
    let x := (newConcatMsg onlyInfo [] (ascii "smsc")).enter 1 onlyPart 0
    let s : ConcatSystem (1 * 2) := ⟨⟨true, none⟩, [x], []⟩
    KeepsParts s
      (s.finishFlush (dictCreate ConcatMsg 1) 0 x
        (smsc2Find [some (ascii "smsc")] (some x.smscId) 0).isSome fun _ => .success) x
      (smsc2Find [some (ascii "smsc")] (some x.smscId) 0).isSome fun _ => .success :=
  (clearOldParts_keeps_iff _ _ 0 _ _ _).mpr
    ⟨.inl mem_cons_self, fun _ hrefused => by cases hrefused⟩

/-- A connection whose `smsc-admin-id` is not its `smsc-id`: the part is acknowledged and thrown
away. -/
theorem clearOldParts_loses :
    ∃ (s : ConcatSystem (1 * 2)) (table : Dict ConcatMsg (1 * 2)) (x : ConcatMsg),
      s.flushing = [x] ∧ x.smscId = ascii "smsc" ∧ x.parts = [some onlyPart] ∧
      (s.finishFlush table 0 x
          (smsc2Find [some (ascii "admin")] (some x.smscId) 0).isSome fun _ => .success).acked =
        s.acked ++ [(onlyPart, .success)] := by
  let x := (newConcatMsg onlyInfo [] (ascii "smsc")).enter 1 onlyPart 0
  exact ⟨⟨⟨true, none⟩, [x], []⟩, dictCreate ConcatMsg 1, x, rfl, rfl, rfl, rfl⟩

end Kannel
