import Kannel.Gw.Msg
import Kannel.Gwlib.Charset
import Kannel.Lib.Avoids

/-!
# Splitting a long message

`sms_split` cuts a text into parts with a concatenation element. Its loop is bounded only by
`max_messages`, so the model takes fuel.
-/

namespace Kannel
open List

def dc7bit : Int := 0

def dc8bit : Int := 1

def dcUcs2 : Int := 2

def dlrIsEnabled (dlr : Int) : Bool := dlr ≠ -1 ∧ dlr % 128 ≠ 0

structure SplitArgs where
  header : Option Octstr
  footer : Option Octstr
  nonlastSuffix : Option Octstr
  splitChars : Option Octstr
  catenate : Bool
  msgSequence : Nat
  maxMessages : Int
  maxOctets : Int

def cutByOctets (msg : Sms) : Bool := msg.coding = dc8bit ∨ msg.coding = dcUcs2

def smsMsgdataLen (msg : Sms) : Int :=
  match msg.msgdata with
  | none => -1
  | some msgdata =>
    if msg.coding = dc7bit then toInt (charsetUtf8ToGsm msgdata).length
    else toInt msgdata.length

def catenateUdhLen : Nat := 5

def catenationElement (partNo numMessages msgSequence : Nat) : Octstr :=
  [0, 3, UInt8.ofNat msgSequence, UInt8.ofNat numMessages, UInt8.ofNat partNo]

def catenatedUdh (udhdata : Option Octstr) (partNo numMessages msgSequence : Nat) : Octstr :=
  let udhdata := udhdata.getD []
  let udhdata := if udhdata.length = 0 then [UInt8.ofNat catenateUdhLen] else udhdata
  let udhdata := udhdata ++ catenationElement partNo numMessages msgSequence
  octstrSetChar udhdata 0 (udhdata.length - 1)

def prependCatenationUdh (sms : Sms) (partNo numMessages msgSequence : Nat) : Sms :=
  { sms with
    udhdata := some (catenatedUdh sms.udhdata partNo numMessages msgSequence)
    msgLeft := if partNo < numMessages then numMessages - partNo else 0 }

def lastSplitChar (msgdata splitChars : Octstr) : Nat → Option Nat
  | 0 => none
  | i+1 =>
    match octstrGetChar msgdata i with
    | some c => if c ∈ splitChars then some (i + 1) else lastSplitChar msgdata splitChars i
    | none => lastSplitChar msgdata splitChars i

def extractMsgdataPart (msgdata : Octstr) (splitChars : Option Octstr) (maxPartLen : Int) :
    Except Failure (Octstr × Octstr) := do
  let len : Int :=
    match splitChars with
    | none => maxPartLen
    | some splitChars =>
      if maxPartLen < msgdata.length then
        ((lastSplitChar msgdata splitChars maxPartLen.toNat).map Nat.cast).getD maxPartLen
      else maxPartLen
  let part ← octstrCopy msgdata 0 len
  return (part, octstrDelete msgdata 0 len.toNat)

def extractMsgdataPartByCoding (msg : Sms) (splitChars : Option Octstr) (maxPartLen : Int) :
    Except Failure (Octstr × Octstr) :=
  match msg.msgdata with
  | none => .error .assertion
  | some msgdata =>
    if cutByOctets msg then extractMsgdataPart msgdata splitChars maxPartLen
    else do
      let msgdata := charsetGsmToUtf8 (charsetUtf8ToGsm msgdata)
      let temp ← charsetGsmTruncate (charsetUtf8ToGsm msgdata) maxPartLen
      extractMsgdataPart msgdata splitChars (toInt (charsetGsmToUtf8 temp).length)

def roomForText (args : SplitArgs) (orig : Sms) (udhLen : Int) : Int :=
  let hfLen : Int := (args.header.getD []).length + (args.footer.getD []).length
  if cutByOctets orig then args.maxOctets - udhLen - hfLen
  else ((args.maxOctets - udhLen) * 8).tdiv 7 - hfLen

def maxPartLen (args : SplitArgs) (orig : Sms) : Int :=
  let udhLen : Nat := (orig.udhdata.getD []).length
  let whole := roomForText args orig udhLen
  let len :=
    if smsMsgdataLen orig > whole ∧ args.catenate then
      roomForText args orig ((if udhLen = 0 then 1 else udhLen) + catenateUdhLen)
    else whole
  if len > 0 then len else 0

def splitRound (args : SplitArgs) (orig : Sms) (entropy : Entropy) (msgno : Nat) (temp : Sms) :
    Except Failure (Sms × Sms × Bool) := do
  let part :=
    if msgno > 1 ∧ dlrIsEnabled orig.dlrMask then { orig with dlrUrl := none, dlrMask := 0 }
    else orig
  let last : Bool :=
    smsMsgdataLen temp ≤ maxPartLen args orig ∨ msgno = toUlong args.maxMessages
  let nlsufLen : Int := (args.nonlastSuffix.getD []).length
  let (msgdata, rest) ←
    extractMsgdataPartByCoding temp args.splitChars (toInt (maxPartLen args orig - nlsufLen))
  let text := args.header.getD [] ++ msgdata ++ args.footer.getD [] ++
    (if last then [] else args.nonlastSuffix.getD [])
  let part :=
    { part with msgdata := some text, id := if last then part.id else uuidGenerate entropy }
  return (part, { temp with msgdata := some rest }, last)

def splitLoop (args : SplitArgs) (orig : Sms) (entropy : Nat → Entropy) :
    Nat → Nat → Sms → Option (Except Failure (List Sms))
  | 0, _, _ => none
  | fuel+1, msgno, temp =>
    match splitRound args orig (entropy (msgno + 1)) (msgno + 1) temp with
    | .error f => some (.error f)
    | .ok (part, _, true) => some (.ok [part])
    | .ok (part, temp, false) =>
      (splitLoop args orig entropy fuel (msgno + 1) temp).map (·.map (part :: ·))

def catenateParts (args : SplitArgs) (parts : List Sms) : List Sms :=
  if args.catenate ∧ parts.length > 1 then
    parts.mapIdx fun i part => prependCatenationUdh part (i + 1) parts.length args.msgSequence
  else parts

def smsSplit (fuel : Nat) (args : SplitArgs) (orig : Sms) (entropy : Nat → Entropy) :
    Option (Except Failure (List Sms)) :=
  (splitLoop args orig entropy fuel 0 orig).map (·.map (catenateParts args))

def cutRoom (args : SplitArgs) (orig : Sms) : Int :=
  toInt (maxPartLen args orig - (args.nonlastSuffix.getD []).length)

def isLastRound (args : SplitArgs) (orig : Sms) (msgno : Nat) (temp : Sms) : Bool :=
  smsMsgdataLen temp ≤ maxPartLen args orig ∨ msgno = toUlong args.maxMessages

def framed (args : SplitArgs) (last : Bool) (piece : Octstr) : Octstr :=
  args.header.getD [] ++ piece ++ args.footer.getD [] ++
    if last then [] else args.nonlastSuffix.getD []

structure PartOf (orig part : Sms) : Prop where
  sender : part.sender = orig.sender
  receiver : part.receiver = orig.receiver
  udhdata : part.udhdata = orig.udhdata
  coding : part.coding = orig.coding
  text : part.msgdata.isSome

structure MadeOf (args : SplitArgs) (orig : Sms) (e : Entropy) (last : Bool) (piece : Octstr)
    (part : Sms) : Prop extends PartOf orig part where
  msgdata : part.msgdata = some (framed args last piece)
  id : part.id = if last then orig.id else uuidGenerate e

variable {args : SplitArgs} {orig temp : Sms} {entropy : Nat → Entropy}

theorem splitLoop_error {f : Failure} (entropy : Nat → Entropy) (fuel msgno : Nat)
    (h : extractMsgdataPartByCoding temp args.splitChars (cutRoom args orig) = .error f) :
    splitLoop args orig entropy (fuel + 1) msgno temp = some (.error f) := by
  unfold cutRoom at h
  simp only [splitLoop, splitRound, h, error_bind]

theorem splitLoop_round {piece rest : Octstr} (entropy : Nat → Entropy) (fuel msgno : Nat)
    (h : extractMsgdataPartByCoding temp args.splitChars (cutRoom args orig) = .ok (piece, rest)) :
    ∃ part,
      MadeOf args orig (entropy (msgno + 1)) (isLastRound args orig (msgno + 1) temp) piece part ∧
      splitLoop args orig entropy (fuel + 1) msgno temp =
        if isLastRound args orig (msgno + 1) temp then some (.ok [part])
        else (splitLoop args orig entropy fuel (msgno + 1) { temp with msgdata := some rest }).map
          (·.map (part :: ·)) := by
  have hround : ∃ part,
      MadeOf args orig (entropy (msgno + 1)) (isLastRound args orig (msgno + 1) temp) piece part ∧
      splitRound args orig (entropy (msgno + 1)) (msgno + 1) temp =
        .ok (part, { temp with msgdata := some rest }, isLastRound args orig (msgno + 1) temp) := by
    unfold cutRoom at h
    unfold splitRound
    simp only [h, ok_bind, pure_eq_ok]
    refine ⟨_, ?_, rfl⟩
    split <;> exact { sender := rfl, receiver := rfl, udhdata := rfl, coding := rfl, text := rfl,
                      msgdata := rfl, id := rfl }
  obtain ⟨part, hpart, hround⟩ := hround
  refine ⟨part, hpart, ?_⟩
  rw [splitLoop, hround]
  cases isLastRound args orig (msgno + 1) temp <;> rfl

variable {fuel msgno : Nat} {parts : List Sms}

theorem splitLoop_inv (h : splitLoop args orig entropy (fuel + 1) msgno temp = some (.ok parts)) :
    ∃ piece rest part,
      extractMsgdataPartByCoding temp args.splitChars (cutRoom args orig) = .ok (piece, rest) ∧
      MadeOf args orig (entropy (msgno + 1)) (isLastRound args orig (msgno + 1) temp) piece part ∧
      (isLastRound args orig (msgno + 1) temp = true ∧ parts = [part] ∨
        isLastRound args orig (msgno + 1) temp = false ∧
          ∃ more, parts = part :: more ∧
            splitLoop args orig entropy fuel (msgno + 1) { temp with msgdata := some rest } =
              some (.ok more)) := by
  cases hextract : extractMsgdataPartByCoding temp args.splitChars (cutRoom args orig) with
  | error f =>
    rw [splitLoop_error entropy fuel msgno hextract] at h
    cases h
  | ok r =>
    obtain ⟨part, hpart, hround⟩ := splitLoop_round entropy fuel msgno hextract
    refine ⟨r.1, r.2, part, rfl, hpart, ?_⟩
    rw [hround] at h
    cases hlast : isLastRound args orig (msgno + 1) temp with
    | true =>
      rw [hlast] at h
      cases h
      exact .inl ⟨rfl, rfl⟩
    | false =>
      rw [hlast] at h
      obtain ⟨r, hr, hmap⟩ := Option.map_eq_some_iff.mp h
      obtain ⟨more, rfl, rfl⟩ := map_eq_ok_iff.mp hmap
      exact .inr ⟨rfl, more, rfl, hr⟩

section
variable (h : splitLoop args orig entropy fuel msgno temp = some (.ok parts))
include h

theorem splitLoop_ne_nil : parts ≠ [] := by
  cases fuel with
  | zero => cases h
  | succ fuel =>
    obtain ⟨_, _, part, -, -, ⟨-, rfl⟩ | ⟨-, more, rfl, -⟩⟩ := splitLoop_inv h
    · exact cons_ne_nil _ _
    · exact cons_ne_nil _ _

theorem partOf_splitLoop : ∀ part ∈ parts, PartOf orig part := by
  induction fuel generalizing msgno temp parts with
  | zero => cases h
  | succ fuel ih =>
    obtain ⟨_, _, part, -, hmade, ⟨-, rfl⟩ | ⟨-, more, rfl, hmore⟩⟩ := splitLoop_inv h
    · simpa using hmade.toPartOf
    · exact forall_mem_cons.mpr ⟨hmade.toPartOf, ih hmore⟩

end

theorem map_catenateParts {β : Type} {f : Sms → β}
    (hf : ∀ part i n sequence, f (prependCatenationUdh part i n sequence) = f part)
    (args : SplitArgs) (parts : List Sms) : (catenateParts args parts).map f = parts.map f := by
  unfold catenateParts
  split_ifs
  · apply ext_getElem
    · simp
    · intro i h₁ h₂
      simp [hf]
  · rfl

theorem length_catenateParts (args : SplitArgs) (raw : List Sms) :
    (catenateParts args raw).length = raw.length := by
  unfold catenateParts
  split
  · exact length_mapIdx
  · rfl

theorem smsSplit_eq_some (h : smsSplit fuel args orig entropy = some (.ok parts)) :
    ∃ raw, splitLoop args orig entropy fuel 0 orig = some (.ok raw) ∧
      parts = catenateParts args raw := by
  obtain ⟨r, hr, hmap⟩ := Option.map_eq_some_iff.mp h
  obtain ⟨raw, rfl, rfl⟩ := map_eq_ok_iff.mp hmap
  exact ⟨raw, hr, rfl⟩

theorem smsSplit_shape (hcat : args.catenate = true)
    (h : smsSplit fuel args orig entropy = some (.ok parts)) (hmany : 2 ≤ parts.length) :
    ∃ raw : List Sms, (∀ part ∈ raw, PartOf orig part) ∧
      parts = raw.mapIdx fun i part =>
        prependCatenationUdh part (i + 1) raw.length args.msgSequence := by
  obtain ⟨raw, hr, rfl⟩ := smsSplit_eq_some h
  rw [length_catenateParts] at hmany
  exact ⟨raw, partOf_splitLoop hr, by rw [catenateParts, if_pos ⟨hcat, by omega⟩]⟩

theorem splitLoop_terminates {n : Nat} (hn : toUlong args.maxMessages = msgno + n) (hpos : 0 < n)
    (temp : Sms) : (splitLoop args orig entropy n msgno temp).isSome := by
  induction n generalizing msgno temp with
  | zero => omega
  | succ n ih =>
    cases hextract : extractMsgdataPartByCoding temp args.splitChars (cutRoom args orig) with
    | error f =>
      rw [splitLoop_error entropy n msgno hextract]
      rfl
    | ok r =>
      obtain ⟨part, -, hround⟩ := splitLoop_round entropy n msgno hextract
      rw [hround]
      split
      · rfl
      · next hgoes =>
        rw [Option.isSome_map]
        -- the last admissible round is always the last one
        have hmore : msgno + 1 ≠ toUlong args.maxMessages :=
          fun h => hgoes (decide_eq_true (.inr h))
        exact ih (by omega) (by omega) _

theorem smsSplit_terminates {n : Nat} (hn : toUlong args.maxMessages = n) (hpos : 0 < n) :
    (smsSplit n args orig entropy).isSome := by
  rw [smsSplit, Option.isSome_map]
  exact splitLoop_terminates (by omega) hpos orig

def partIds (orig : Sms) (entropy : Nat → Entropy) (msgno parts : Nat) : List Uuid :=
  (range (parts - 1)).map (fun j => uuidGenerate (entropy (msgno + 1 + j))) ++ [orig.id]

theorem partIds_cons (orig : Sms) (entropy : Nat → Entropy) (msgno : Nat) {parts : Nat}
    (hpos : 0 < parts) :
    uuidGenerate (entropy (msgno + 1)) :: partIds orig entropy (msgno + 1) parts =
      partIds orig entropy msgno (parts + 1) := by
  obtain ⟨n, rfl⟩ : ∃ n, parts = n + 1 := ⟨parts - 1, by omega⟩
  simp only [partIds, Nat.add_sub_cancel, range_succ_eq_map, map_cons, List.map_map,
    cons_append, Nat.add_zero]
  refine congrArg _ (congrArg (· ++ [orig.id]) (map_congr_left fun j _ => ?_))
  rw [Function.comp_apply, show msgno + 1 + 1 + j = msgno + 1 + j.succ by omega]

theorem ids_splitLoop (h : splitLoop args orig entropy fuel msgno temp = some (.ok parts)) :
    parts.map Sms.id = partIds orig entropy msgno parts.length := by
  induction fuel generalizing msgno temp parts with
  | zero => cases h
  | succ fuel ih =>
    obtain ⟨_, _, part, -, hmade, ⟨hlast, rfl⟩ | ⟨hgoes, more, rfl, hmore⟩⟩ := splitLoop_inv h
    · have hid := hmade.id
      rw [hlast] at hid
      simp [partIds, hid]
    · have hid := hmade.id
      rw [hgoes] at hid
      rw [map_cons, ih hmore, hid]
      exact partIds_cons orig entropy msgno (length_pos_iff.mpr (splitLoop_ne_nil hmore))

theorem ids_smsSplit (h : smsSplit fuel args orig entropy = some (.ok parts)) :
    0 < parts.length ∧ parts.map Sms.id = partIds orig entropy 0 parts.length := by
  obtain ⟨raw, hr, rfl⟩ := smsSplit_eq_some h
  rw [length_catenateParts, map_catenateParts fun _ _ _ _ => rfl]
  exact ⟨length_pos_iff.mpr (splitLoop_ne_nil hr), ids_splitLoop hr⟩

end Kannel
