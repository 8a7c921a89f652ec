import Kannel.Gw.Concat
import Kannel.Gw.SmsSplit
import Kannel.Lib.Slots

/-!
# Splitting and reassembling

The splitter appends a concatenation element to a header and the reassembler cuts it out again.
-/

namespace Kannel
open List
attribute [simp] catenationElement

structure InfoElement where
  id : UInt8
  data : Octstr
  data_len : data.length < 256

def InfoElement.octets (e : InfoElement) : Octstr :=
  e.id :: UInt8.ofNat e.data.length :: e.data

attribute [simp] InfoElement.octets

def elementOctets (es : List InfoElement) : Octstr := es.flatMap InfoElement.octets

def udhOf (es : List InfoElement) : Octstr :=
  UInt8.ofNat (elementOctets es).length :: elementOctets es

/-- The header is absent or empty, or it is a list of elements none of which is a
concatenation element. -/
def NoConcatUdh (udhdata : Option Octstr) (es : List InfoElement) : Prop :=
  ((udhdata.getD [] = [] ∧ es = []) ∨ udhdata = some (udhOf es)) ∧
    (elementOctets es).length < 256 ∧ ∀ e ∈ es, e.id ≠ 0 ∧ e.id ≠ 8

/-- As the reassembler gives it back: absent and length-octet-only headers become empty. -/
def normalUdh (udhdata : Option Octstr) : Octstr :=
  if (udhdata.getD []).length ≤ 1 then [] else udhdata.getD []

theorem charAt_append (before after : Octstr) (k : Nat) :
    charAt (before ++ after) (before.length + k) = charAt after k := by
  have h : octstrGetChar (before ++ after) (before.length + k) = octstrGetChar after k := by
    simp [octstrGetChar, List.getElem?_append_right]
  rw [charAt, charAt, h]

theorem walkElements_elements (es : List InfoElement) {udh before : Octstr} {p n s : Nat}
    (hudh : udh = before ++ (elementOctets es ++ catenationElement p n s))
    (hes : ∀ e ∈ es, e.id ≠ 0 ∧ e.id ≠ 8) {fuel : Nat} (hfuel : es.length < fuel)
    {w : ElementWalk} (hw : w.pos = before.length) :
    walkElements udh fuel w =
      { pos := before.length + (elementOctets es).length, c := 0, iel := 3 } := by
  induction es generalizing before fuel w with
  | nil =>
    obtain ⟨fuel, rfl⟩ : ∃ k, fuel = k + 1 := ⟨fuel - 1, by simp at hfuel; omega⟩
    have hc : charAt udh w.pos = 0 := by
      rw [hw, hudh]
      exact charAt_append before _ 0
    have hiel : charAt udh (w.pos + 1) = 3 := by
      rw [hw, hudh]
      exact charAt_append before _ 1
    have hlen : w.pos < udh.length - 1 := by
      simp [hudh, hw, elementOctets]
    rw [walkElements, if_pos hlen]
    simp only [hc, hiel, true_or, if_true]
    simp [hw, elementOctets]
  | cons e es ih =>
    obtain ⟨fuel, rfl⟩ : ∃ k, fuel = k + 1 := ⟨fuel - 1, by simp at hfuel; omega⟩
    obtain ⟨h0, h8⟩ := hes e mem_cons_self
    have hc : charAt udh w.pos = e.id.toNat := by
      rw [hw, hudh]
      exact charAt_append before _ 0
    have hiel : charAt udh (w.pos + 1) = e.data.length := by
      have hmod : (UInt8.ofNat e.data.length).toNat = e.data.length :=
        Nat.mod_eq_of_lt e.data_len
      rw [hw, hudh, charAt_append before _ 1, ← hmod]
      rfl
    have hlen : w.pos < udh.length - 1 := by
      simp [hudh, hw, elementOctets]
    have hother : ¬ (charAt udh w.pos = 0 ∨ charAt udh w.pos = 8) := by
      rw [hc]
      rintro (h | h)
      · exact h0 (UInt8.toNat_inj.mp (Int.natCast_inj.mp h))
      · exact h8 (UInt8.toNat_inj.mp (Int.natCast_inj.mp h))
    rw [walkElements, if_pos hlen]
    simp only [if_neg hother, hiel, Int.toNat_natCast]
    have hnext : udh = (before ++ e.octets) ++ (elementOctets es ++ catenationElement p n s) := by
      simp [hudh, elementOctets]
    rw [ih hnext (fun e he => hes e (mem_cons_of_mem _ he)) (by simp at hfuel; omega)
      (by simp [hw])]
    simp [elementOctets]
    omega

variable {es : List InfoElement} {udhdata : Option Octstr}

theorem catenatedUdh_eq (h : NoConcatUdh udhdata es) (p n s : Nat) :
    catenatedUdh udhdata p n s =
      [UInt8.ofNat ((elementOctets es).length + 5)] ++
        (elementOctets es ++ catenationElement p n s) := by
  obtain ⟨⟨hempty, rfl⟩ | rfl, -, -⟩ := h
  · simp [catenatedUdh, hempty, elementOctets, catenateUdhLen, octstrSetChar]
  · simp [catenatedUdh, udhOf, octstrSetChar]

theorem extractUdh_catenatedUdh (h : NoConcatUdh udhdata es) (p n s : Nat) :
    extractUdh (catenatedUdh udhdata p n s) (1 + (elementOctets es).length) 3 =
      normalUdh udhdata := by
  have hcut : octstrDelete (catenatedUdh udhdata p n s) (1 + (elementOctets es).length) (3 + 2) =
      UInt8.ofNat ((elementOctets es).length + 5) :: elementOctets es := by
    rw [catenatedUdh_eq h]
    simp [octstrDelete, Nat.add_comm 1]
  unfold extractUdh
  simp only [hcut]
  obtain ⟨⟨hempty, rfl⟩ | rfl, -, -⟩ := h
  · simp [elementOctets, normalUdh, hempty, octstrDelete]
  · cases hoct : elementOctets es with
    | nil => simp [normalUdh, udhOf, hoct, octstrDelete]
    | cons c cs => simp [normalUdh, udhOf, hoct, octstrSetChar]

theorem concatInfo_catenatedUdh (h : NoConcatUdh udhdata es) {p n s : Nat} (hp : 1 ≤ p)
    (hpn : p ≤ n) (hn : n < 256) :
    concatInfo (catenatedUdh udhdata p n s) =
      some
        { refnum := (s % 256 : Nat), totalParts := n, part := p, udh := normalUdh udhdata
          part_pos := hp, part_le := hpn } := by
  have heq := catenatedUdh_eq h p n s
  have hfound (k : Nat) :
      charAt (catenatedUdh udhdata p n s) (1 + (elementOctets es).length + k) =
        charAt (catenationElement p n s) k := by
    have happ := charAt_append ([UInt8.ofNat ((elementOctets es).length + 5)] ++ elementOctets es)
      (catenationElement p n s) k
    rw [heq]
    simpa [Nat.add_comm 1] using happ
  have hlen : (catenatedUdh udhdata p n s).length = 1 + (elementOctets es).length + 5 := by
    rw [heq]
    simp
    omega
  have hcount : es.length ≤ (elementOctets es).length := by
    have hsum := length_le_sum_of_one_le (es.map (·.octets.length)) (by simp)
    rwa [length_map, ← length_flatMap] at hsum
  have hwalk : walkElements (catenatedUdh udhdata p n s) (catenatedUdh udhdata p n s).length
      { pos := 1, c := -1, iel := 0 } =
        { pos := 1 + (elementOctets es).length, c := 0, iel := 3 } :=
    walkElements_elements es heq h.2.2 (by omega) rfl
  have hrefnum : charAt (catenationElement p n s) 2 = (s % 256 : Nat) := rfl
  have htotal : charAt (catenationElement p n s) 3 = (n : Int) :=
    congrArg Nat.cast (Nat.mod_eq_of_lt hn)
  have hpart : charAt (catenationElement p n s) 4 = (p : Int) :=
    congrArg Nat.cast (Nat.mod_eq_of_lt (by omega : p < 256))
  have h8 : (0 : Int) ≠ 8 := by decide
  unfold concatInfo
  simp only [hwalk, if_neg h8, Nat.add_zero, hfound, hrefnum, htotal, hpart]
  rw [if_neg (by omega), dif_neg (by omega)]
  simp only [extractUdh_catenatedUdh h, Int.toNat_natCast]

structure Fragments (smscid key udh : Octstr) (parts : List Sms) : Prop where
  info : ∀ i part, parts[i]? = some part →
    ∃ info, part.udhdata.bind concatInfo = some info ∧ info.part = i + 1 ∧
      info.totalParts = parts.length ∧ info.udh = udh ∧ concatKey part smscid info = key
  text : ∀ part ∈ parts, part.msgdata.isSome

variable {smscid key udh : Octstr} {parts seen : List Sms}

theorem Fragments.nodup (h : Fragments smscid key udh parts) : parts.Nodup := by
  rw [nodup_iff_getElem?_ne_getElem?]
  intro i j hij hj heq
  have hi : parts[i]? = some parts[i] := List.getElem?_eq_getElem (by omega)
  obtain ⟨a, ha, hapart, -⟩ := h.info i _ hi
  obtain ⟨b, hb, hbpart, -⟩ := h.info j _ (heq ▸ hi)
  have hab : a = b := Option.some.inj (ha.symm.trans hb)
  subst hab
  omega

theorem appendParts_some (text : Octstr) (parts : List Sms) :
    appendParts (some text) (parts.map some) =
      .ok (some (text ++ parts.flatMap (·.msgdata.getD []))) := by
  induction parts generalizing text with
  | nil => simp [appendParts]
  | cons part parts ih => simp [appendParts, ih]

theorem joinParts_some (entropy : Entropy) (hne : parts ≠ [])
    (htext : ∀ part ∈ parts, part.msgdata.isSome) :
    ∃ msg, joinParts entropy (parts.map some) = .ok msg ∧
      msg.msgdata = some (parts.flatMap (·.msgdata.getD [])) := by
  obtain ⟨first, rest, rfl⟩ := exists_cons_of_ne_nil hne
  obtain ⟨text, hfirst⟩ := Option.isSome_iff_exists.mp (htext first mem_cons_self)
  refine ⟨{ first with
    id := uuidGenerate entropy
    msgdata := some ((first :: rest).flatMap (·.msgdata.getD [])) }, ?_, rfl⟩
  rw [map_cons, joinParts, hfirst, appendParts_some, ok_bind, pure_eq_ok]
  simp [hfirst]

theorem stamp_msgdata (env : Surroundings) (msg : Sms) : (stamp env msg).msgdata = msg.msgdata := by
  unfold stamp
  dsimp only
  split <;> split <;> rfl

variable {size : Nat} [NeZero size] {table : Dict ConcatMsg size}

structure EntryOf (key udh : Octstr) (parts seen : List Sms) (cmsg : ConcatMsg) : Prop where
  key : cmsg.key = key
  udh : cmsg.udh = udh
  totalParts : cmsg.totalParts = parts.length
  numParts : cmsg.numParts = seen.length
  parts : cmsg.parts = Slots.filled parts seen

def Awaiting (key udh : Octstr) (parts seen : List Sms) (table : Dict ConcatMsg size) : Prop :=
  (dictGet table key = none ∧ seen = []) ∨
    ∃ cmsg, dictGet table key = some cmsg ∧ EntryOf key udh parts seen cmsg

variable {info : ConcatInfo}

theorem Awaiting.entry (h : Awaiting key udh parts seen table) (smscid : Octstr)
    (htotal : info.totalParts = parts.length) (hudh : info.udh = udh) :
    EntryOf key udh parts seen ((dictGet table key).getD (newConcatMsg info key smscid)) := by
  obtain ⟨hnone, rfl⟩ | ⟨cmsg, hsome, hentry⟩ := h
  · rw [hnone]
    exact ⟨rfl, hudh, htotal, rfl, by simp [newConcatMsg, Slots.filled_nil, htotal]⟩
  · rw [hsome]
    exact hentry

theorem EntryOf.enter {cmsg : ConcatMsg} (h : EntryOf key udh parts seen cmsg)
    (hnodup : parts.Nodup) {i : Nat} {part : Sms} (hi : parts[i]? = some part) (now : Nat) :
    EntryOf key udh parts (part :: seen) (cmsg.enter (i + 1) part now) where
  key := h.key
  udh := h.udh
  totalParts := h.totalParts
  numParts := by
    show cmsg.numParts + 1 = _
    rw [h.numParts, length_cons, Nat.cast_succ]
  parts := by
    change cmsg.parts.set (i + 1 - 1) (some part) = _
    rw [h.parts, Nat.add_sub_cancel, Slots.filled_set hnodup hi]

structure Arrival where
  env : Surroundings
  storeSave : Sms → Bool
  msg : Sms

variable {a : Arrival}

theorem fileConcatPart_fresh (hfrag : Fragments smscid key udh parts)
    (haw : Awaiting key udh parts seen table) (hmem : a.msg ∈ parts) (hfresh : a.msg ∉ seen) :
    ∃ info cmsg, a.msg.udhdata.bind concatInfo = some info ∧
      EntryOf key udh parts (a.msg :: seen) cmsg ∧
      fileConcatPart a.env a.storeSave table a.msg smscid info =
        if seen.length + 1 < parts.length then
          .ok (⟨.pending, none, none, []⟩, dictPut table key (some cmsg))
        else completeConcatMsg a.env a.storeSave table key cmsg := by
  obtain ⟨i, hi⟩ := List.getElem?_of_mem hmem
  obtain ⟨info, hinfo, hpart, htotal, hudh, hkey⟩ := hfrag.info i _ hi
  have hentry := haw.entry smscid htotal hudh
  have henter := hentry.enter hfrag.nodup hi a.env.now
  refine ⟨info, _, hinfo, henter, ?_⟩
  have hslot := Slots.filled_fresh hi hfresh
  simp only [fileConcatPart, hkey, hpart, hentry.parts, Nat.add_sub_cancel, hslot,
    henter.numParts, henter.totalParts, length_cons, Nat.cast_lt]

def concatFeed (smscid : Octstr) :
    ConcatState size → List Arrival →
      Except Failure (List (ConcatReturn × Option Sms) × ConcatState size)
  | state, [] => .ok ([], state)
  | state, a :: rest => do
    let (outcome, state) ←
      concatHandlingCheckAndHandle a.env a.storeSave state a.msg (some smscid)
    let (results, state) ← concatFeed smscid state rest
    return ((outcome.ret, outcome.pmsg) :: results, state)

def handling (table : Dict ConcatMsg size) : ConcatState size := ⟨true, some table⟩

theorem handle_of_info (h : a.msg.udhdata.bind concatInfo = some info) {outcome : ConcatOutcome}
    {table' : Dict ConcatMsg size}
    (hfile : fileConcatPart a.env a.storeSave table a.msg smscid info = .ok (outcome, table')) :
    concatHandlingCheckAndHandle a.env a.storeSave (handling table) a.msg (some smscid) =
      .ok (outcome, handling table') := by
  simp only [concatHandlingCheckAndHandle, handling, h, hfile, if_true, ok_bind, pure_eq_ok]

section Cut
variable (hfrag : Fragments smscid key udh parts)
include hfrag

section
variable (haw : Awaiting key udh parts seen table) (hmem : a.msg ∈ parts) (hfresh : a.msg ∉ seen)
include haw hmem hfresh

theorem handle_pending (hmore : seen.length + 1 < parts.length) :
    ∃ table', Awaiting key udh parts (a.msg :: seen) table' ∧
      concatHandlingCheckAndHandle a.env a.storeSave (handling table) a.msg (some smscid) =
        .ok (⟨.pending, none, none, []⟩, handling table') := by
  obtain ⟨info, cmsg, hinfo, hentry, hfile⟩ := fileConcatPart_fresh hfrag haw hmem hfresh
  rw [if_pos hmore] at hfile
  refine ⟨_, .inr ⟨cmsg, ?_, hentry⟩, handle_of_info hinfo hfile⟩
  rw [dictGet_dictPut, if_pos rfl]

theorem handle_complete (hlast : seen.length + 1 = parts.length)
    (hall : ∀ part ∈ parts, part ∈ a.msg :: seen) (hsave : ∀ msg, a.storeSave msg = true) :
    ∃ outcome whole table',
      concatHandlingCheckAndHandle a.env a.storeSave (handling table) a.msg (some smscid) =
        .ok (outcome, handling table') ∧
      outcome.ret = .complete ∧ outcome.pmsg = some whole ∧
      whole.msgdata = some (parts.flatMap (·.msgdata.getD [])) ∧ whole.udhdata = some udh := by
  obtain ⟨info, cmsg, hinfo, hentry, hfile⟩ := fileConcatPart_fresh hfrag haw hmem hfresh
  obtain ⟨msg, hjoin, htext⟩ :=
    joinParts_some a.env.entropy (ne_nil_of_mem hmem) hfrag.text
  rw [← Slots.filled_all hall, ← hentry.parts] at hjoin
  rw [if_neg (by omega)] at hfile
  simp only [completeConcatMsg, hjoin, ok_bind, hsave, if_true, pure_eq_ok] at hfile
  refine ⟨_, _, _, handle_of_info hinfo hfile, rfl, rfl, ?_, ?_⟩
  · exact (stamp_msgdata _ _).trans htext
  · exact congrArg some hentry.udh

end

theorem feed_fragments {arrivals : List Arrival} (hne : arrivals ≠ [])
    (haw : Awaiting key udh parts seen table) (hperm : (arrivals.map (·.msg) ++ seen).Perm parts)
    (hsave : ∀ a ∈ arrivals, ∀ msg, a.storeSave msg = true) :
    ∃ whole table',
      concatFeed smscid (handling table) arrivals =
        .ok (replicate (arrivals.length - 1) (.pending, none) ++ [(.complete, some whole)],
          handling table') ∧
      whole.msgdata = some (parts.flatMap (·.msgdata.getD [])) ∧ whole.udhdata = some udh := by
  induction arrivals generalizing seen table with
  | nil => exact absurd rfl hne
  | cons a rest ih =>
    have hmem : a.msg ∈ parts := hperm.mem_iff.mp (by simp)
    have hnodup := hperm.nodup_iff.mpr hfrag.nodup
    have hfresh : a.msg ∉ seen := by
      rw [map_cons, cons_append, nodup_cons] at hnodup
      exact fun h => hnodup.1 (mem_append_right _ h)
    have hlen := hperm.length_eq
    cases rest with
    | nil =>
      obtain ⟨outcome, whole, table', hcall, hret, hpmsg, htext, hudh⟩ :=
        handle_complete hfrag haw hmem hfresh (by simp at hlen; omega)
          (fun part hpart => by simpa using hperm.mem_iff.mpr hpart)
          (hsave a mem_cons_self)
      refine ⟨whole, table', ?_, htext, hudh⟩
      simp [concatFeed, hcall, hret, hpmsg, pure_eq_ok]
    | cons b rest =>
      obtain ⟨table₁, haw₁, hcall⟩ :=
        handle_pending hfrag haw hmem hfresh (by simp at hlen; omega)
      have hperm₁ : ((b :: rest).map (·.msg) ++ a.msg :: seen).Perm parts :=
        perm_middle.trans hperm
      obtain ⟨whole, table', hfeed, htext, hudh⟩ :=
        ih (cons_ne_nil _ _) haw₁ hperm₁ (fun c hc => hsave c (mem_cons_of_mem _ hc))
      refine ⟨whole, table', ?_, htext, hudh⟩
      rw [concatFeed, hcall]
      simp only [hfeed, ok_bind, pure_eq_ok]
      rfl

end Cut

def catenateArgs (msgSequence : Nat) (maxOctets : Int) : SplitArgs where
  header := none
  footer := none
  nonlastSuffix := none
  splitChars := none
  catenate := true
  msgSequence := msgSequence
  maxMessages := 255
  maxOctets := maxOctets

theorem fragments_of_split {fuel : Nat} {args : SplitArgs} {orig : Sms} {entropy : Nat → Entropy}
    (hudh : NoConcatUdh orig.udhdata es) (hcat : args.catenate = true)
    (h : smsSplit fuel args orig entropy = some (.ok parts)) (hmany : 2 ≤ parts.length)
    (hfew : parts.length < 256) (smscid : Octstr) :
    ∃ key, Fragments smscid key (normalUdh orig.udhdata) parts := by
  obtain ⟨raw, hraw, rfl⟩ := smsSplit_shape hcat h hmany
  rw [length_mapIdx] at hmany hfew
  let info (i : Nat) (hi : i < raw.length) : ConcatInfo :=
    { refnum := (args.msgSequence % 256 : Nat), totalParts := raw.length, part := i + 1
      udh := normalUdh orig.udhdata, part_pos := by omega, part_le := hi }
  refine ⟨concatKey orig smscid (info 0 (by omega)), ?_, ?_⟩
  · intro i part hpart
    rw [List.getElem?_mapIdx] at hpart
    obtain ⟨r, hr, rfl⟩ := Option.map_eq_some_iff.mp hpart
    obtain ⟨hi, -⟩ := List.getElem?_eq_some_iff.mp hr
    have hof := hraw r (mem_of_getElem? hr)
    refine ⟨info i hi, ?_, rfl, (length_mapIdx).symm, rfl, ?_⟩
    · change concatInfo (catenatedUdh r.udhdata _ _ _) = _
      rw [hof.udhdata, concatInfo_catenatedUdh hudh (by omega) hi hfew]
    · simp only [concatKey, prependCatenationUdh, hof.sender, hof.receiver, info]
  · intro part hpart
    obtain ⟨i, hi, rfl⟩ := mem_mapIdx.mp hpart
    exact (hraw _ (getElem_mem hi)).text

/-- **Splitting and reassembling.**  The parts are joined again in whatever order they arrive:
every call but the last returns `concat_pending`, the last `concat_complete` and a message with
the text and the header of the original. -/
theorem split_reassembled {fuel msgSequence : Nat} {maxOctets : Int} {orig : Sms}
    {entropy : Nat → Entropy} {es : List InfoElement} {arrivals : List Arrival}
    (hudh : NoConcatUdh orig.udhdata es)
    (hsplit : smsSplit fuel (catenateArgs msgSequence maxOctets) orig entropy = some (.ok parts))
    (hmany : 2 ≤ parts.length) (hfew : parts.length ≤ 255)
    (hwhole : orig.msgdata = some (parts.flatMap (·.msgdata.getD [])))
    (hnew : ∀ part ∈ parts, ∀ info, part.udhdata.bind concatInfo = some info →
      dictGet table (concatKey part smscid info) = none)
    (horder : (arrivals.map (·.msg)).Perm parts)
    (hsave : ∀ a ∈ arrivals, ∀ msg, a.storeSave msg = true) :
    ∃ whole table',
      concatFeed smscid ⟨true, some table⟩ arrivals =
        .ok (replicate (parts.length - 1) (.pending, none) ++ [(.complete, some whole)],
          ⟨true, some table'⟩) ∧
      whole.msgdata = orig.msgdata ∧ whole.udhdata = some (normalUdh orig.udhdata) := by
  obtain ⟨key, hfrag⟩ := fragments_of_split hudh rfl hsplit hmany (by omega) smscid
  have hlen : arrivals.length = parts.length := by simpa using horder.length_eq
  have hfirst : parts[0]? = some parts[0] := List.getElem?_eq_getElem (by omega)
  obtain ⟨info, hinfo, -, -, -, hkey⟩ := hfrag.info 0 _ hfirst
  have hnone : dictGet table key = none := by
    rw [← hkey]
    exact hnew _ (getElem_mem _) info hinfo
  obtain ⟨whole, table', hfeed, htext, hback⟩ :=
    feed_fragments hfrag (ne_nil_of_length_pos (by omega)) (.inl ⟨hnone, rfl⟩)
      (by simpa using horder) hsave
  exact ⟨whole, table', hlen ▸ hfeed, htext.trans hwhole.symm, hback⟩

def fourteenOctets (udhdata : Option Octstr) : Sms :=
  { smsCreate uuidClear with
    coding := dc8bit
    udhdata := udhdata
    msgdata := some [1, 2, 3, 4, 5, 6, 7, 8, 9, 10, 11, 12, 13, 14] }

def partsOfFourteen (udhdata : Option Octstr) : List Sms :=
  ((smsSplit 255 (catenateArgs 7 13) (fourteenOctets udhdata) fun _ => .random uuidClear).bind
    Except.toOption).getD []

def arrivalOf (msg : Sms) : Arrival := ⟨⟨.random uuidClear, 0⟩, fun _ => true, msg⟩

theorem split_reassembled_backwards :
    ∃ whole table',
      concatFeed [115] ⟨true, some (dictCreate ConcatMsg 1024)⟩
          ((partsOfFourteen none).reverse.map arrivalOf) =
        .ok ([(.pending, none), (.complete, some whole)], ⟨true, some table'⟩) ∧
      whole.msgdata = (fourteenOctets none).msgdata ∧ whole.udhdata = some [] := by
  have hparts : smsSplit 255 (catenateArgs 7 13) (fourteenOctets none) (fun _ => .random uuidClear)
      = some (.ok (partsOfFourteen none)) := by rfl
  have horder : (((partsOfFourteen none).reverse.map arrivalOf).map (·.msg)).Perm
      (partsOfFourteen none) := by
    rw [List.map_map]
    exact (List.map_id' _).symm ▸ reverse_perm _
  have hudh : NoConcatUdh (fourteenOctets none).udhdata [] :=
    ⟨.inl ⟨rfl, rfl⟩, by decide, by simp⟩
  exact split_reassembled hudh hparts (by decide +kernel) (by decide +kernel) (by decide +kernel)
    (fun _ _ _ _ => rfl) horder (by simp [arrivalOf])

theorem lone_length_octet_dropped :
    NoConcatUdh (fourteenOctets (some [0])).udhdata [] ∧
    smsSplit 255 (catenateArgs 7 13) (fourteenOctets (some [0])) (fun _ => .random uuidClear) =
      some (.ok (partsOfFourteen (some [0]))) ∧
    (partsOfFourteen (some [0])).length = 2 ∧
    (fourteenOctets (some [0])).msgdata =
      some ((partsOfFourteen (some [0])).flatMap (·.msgdata.getD [])) ∧
    ∃ whole state,
      concatFeed [115] ⟨true, some (dictCreate ConcatMsg 1024)⟩
          ((partsOfFourteen (some [0])).map arrivalOf) =
        .ok ([(.pending, none), (.complete, some whole)], state) ∧
      whole.udhdata.getD [] ≠ (fourteenOctets (some [0])).udhdata.getD [] := by
  refine ⟨⟨.inr rfl, by decide, by simp⟩, rfl, by decide +kernel, by decide +kernel, ?_⟩
  set_option maxRecDepth 4000 in
  exact ⟨_, _, by rfl, by decide +kernel⟩

end Kannel
