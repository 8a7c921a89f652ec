import Kannel.Gw.Smsc.SmppMsg

/-!
# The PDU of a modem

The length octet is counted in one way and the text written in another: it is converted after
the cut, which is made only with a header, and counted in septets but made in octets.
-/

namespace Kannel
open List

def charOctet (ch : Int) : Except Failure UInt8 :=
  if 0 ≤ ch ∧ ch ≤ 255 then .ok (UInt8.ofNat ch.toNat) else .error .assertion

theorem charOctet_ok {ch : Int} {c : UInt8} (h : charOctet ch = .ok c) : (c.toNat : Int) = ch := by
  unfold charOctet at h
  split_ifs at h with hrange
  cases h
  rw [UInt8.toNat_ofNat']
  omega

theorem charOctet_of_lt {n : Nat} (h : n < 256) : charOctet n = .ok (UInt8.ofNat n) := by
  rw [charOctet, if_pos (by omega)]
  rfl

structure At2Conf where
  altDcs : Int
  validityperiod : Option Octstr

def dlrIsEnabledDevice (dlr : Int) : Bool := dlr ≠ -1 ∧ fieldBits dlr &&& 0x67 ≠ 0

def semiOctets (first : UInt8) (second : Option UInt8) : Option UInt8 :=
  let digit1 : Int := first.toNat - 48
  let digit2 : Int := (match second with | some c => (c.toNat : Int) | none => -1) - 48
  let digit2 := if digit2 < 0 then 15 else digit2
  if 0 ≤ digit1 ∧ digit1 < 16 ∧ digit2 < 16 then
    some (UInt8.ofNat ((digit2.toNat <<< 4) ||| digit1.toNat))
  else none

def swappedDigits : Octstr → Option Octstr
  | [] => some []
  | [first] => (semiOctets first none).map ([·])
  | first :: second :: rest => do
    let octet ← semiOctets first (some second)
    let octets ← swappedDigits rest
    return octet :: octets

def at2FormatAddressField (msisdn : Option Octstr) : Except Failure (Option Octstr) :=
  match msisdn with
  | none => .error .assertion
  | some msisdn => do
    let international := if msisdn.head? = some 43 then 1
      else if msisdn.take 2 = [48, 48] then 2 else 0
    let temp := (octstrStripBlanks msisdn).drop international
    let length ← charOctet temp.length
    let typeOfAddress : UInt8 := 0x80 ||| 0x01 ||| (if international = 0 then 0x00 else 0x10)
    return (swappedDigits temp).map fun digits => length :: typeOfAddress :: digits

theorem fieldsToDcs_coding (msg : Sms) (mode : Int) :
    (fieldsToDcs msg mode).1 = { msg with coding := defaultCoding msg } := by
  unfold fieldsToDcs
  dsimp only
  split_ifs <;> rfl

def at2FirstOctet (msg : Sms) : UInt8 :=
  (if msg.rpi > 0 then 0x80 else 0) ||| (if (msg.udhdata.getD []).length ≠ 0 then 0x40 else 0) |||
    (if dlrIsEnabledDevice msg.dlrMask then 0x20 else 0) ||| 16 ||| 1

def relativeValidity (val : Int) : Int :=
  if val > 635040 then 255
  else if val ≥ 50400 then (val - 1) / 7 / 24 / 60 + 192 + 1
  else if val > 43200 then 197
  else if val ≥ 2880 then (val - 1) / 24 / 60 + 166 + 1
  else if val > 1440 then 168
  else if val ≥ 750 then (val - 720 - 1) / 30 + 143 + 1
  else if val > 720 then 144
  else if val ≥ 5 then (val - 1) / 5 - 1 + 1
  else 0

def at2Validity (privdata : At2Conf) (now : Int) (msg : Sms) : Int :=
  if msg.validity ≠ msgParamUndefined then relativeValidity ((msg.validity - now).tdiv 60)
  else match privdata.validityperiod with
    | some validityperiod => atoi validityperiod
    | none => 167

def sms7bitMaxLen : Int := 160

def sms8bitMaxLen : Int := 140

def udhLength (msg : Sms) : Nat := (msg.udhdata.getD []).length

def udhSeptets (octets : Nat) : Nat := (8 * octets + 6) / 7

def at2Truncate (msg : Sms) (len most reserved : Int) : Except Failure (Sms × Int) :=
  if len > most then
    match msg.msgdata with
    | none => .error .assertion
    | some msgdata =>
      if most - reserved < 0 then .error .outside
      else .ok ({ msg with
        msgdata := some (octstrDelete msgdata (most - reserved).toNat 9999) }, most)
  else .ok (msg, len)

def at2UserDataLength (msg : Sms) : Except Failure (Sms × Int) :=
  let len := smsMsgdataLen msg
  if udhLength msg = 0 then .ok (msg, len)
  else if cutByOctets msg then
    at2Truncate msg (toInt (len + udhLength msg)) sms8bitMaxLen (udhLength msg)
  else
    let tempLen := toInt (udhSeptets (udhLength msg))
    if toInt (len + tempLen) ≠ len + tempLen then .error .overflow
    else at2Truncate msg (len + tempLen) sms7bitMaxLen tempLen

def lsbMask (i : Nat) : Nat := [0x00, 0x01, 0x03, 0x07, 0x0F, 0x1F, 0x3F, 0x7F].getD i 0

def msbMask (i : Nat) : Nat := [0x00, 0x40, 0x60, 0x70, 0x78, 0x7C, 0x7E, 0x7F].getD i 0

structure Packing where
  i : Nat
  iStore : Nat
  targetChr : Nat
  destRemain : Int
  target : Octstr

def packSeptet (s : Packing) (sourceChr : UInt8) : Except Failure Packing := do
  let chr := s.targetChr ||| ((sourceChr.toNat &&& lsbMask s.i) <<< s.iStore)
  let rest := (sourceChr.toNat &&& msbMask (7 - s.i)) >>> ((8 - s.iStore) % 8)
  let iStore := if s.iStore = 0 then 7 else s.iStore - 1
  let i := if iStore ≠ 0 then (if s.i + 1 > 7 then 1 else s.i + 1) else s.i
  if s.iStore ≠ 0 then
    let c ← charOctet chr
    return ⟨i, iStore, 0 ||| rest, s.destRemain - 1, s.target ++ [c]⟩
  else return ⟨i, iStore, chr ||| rest, s.destRemain, s.target⟩

def at2Encode7bituncompressed (source : Octstr) (offset : Nat) : Except Failure Octstr := do
  let s ← source.foldlM packSeptet
    ⟨if offset ≠ 0 then 8 - offset else 7, offset, 0,
      ((source.length * 7 + offset + 7) / 8 : Nat), []⟩
  if s.destRemain > 0 then
    let c ← charOctet s.targetChr
    return s.target ++ [c]
  else return s.target

def fillBits (octets : Nat) : Nat :=
  if octets = 0 then 0 else ((octets * 8 / 7 + 1) * 7 - octets * 8) % 7

def at2UserData (msg : Sms) : Except Failure Octstr :=
  if cutByOctets msg then .ok (msg.udhdata.getD [] ++ msg.msgdata.getD [])
  else match msg.msgdata with
    | none => .error .assertion
    | some msgdata => do
      let septets ← at2Encode7bituncompressed (charsetUtf8ToGsm msgdata) (fillBits (udhLength msg))
      return msg.udhdata.getD [] ++ septets

def at2Numtext (num : Nat) : UInt8 := UInt8.ofNat (if num > 9 then num + 55 else num + 48)

def at2Encode8bituncompressed (input : Octstr) : Octstr :=
  input.flatMap fun c : UInt8 =>
    [at2Numtext ((c &&& 0xF0) >>> 4).toNat, at2Numtext (c &&& 0x0F).toNat]

def at2Submit (privdata : At2Conf) (now : Int) (msg : Sms) :
    Except Failure (Option (Octstr × Sms)) := do
  match ← at2FormatAddressField msg.receiver with
  | none => return none
  | some address =>
    let pid ← charOctet (if msg.pid = smsParamUndefined then 0 else msg.pid)
    let coded := fieldsToDcs msg
      (if msg.altDcs ≠ smsParamUndefined then msg.altDcs else privdata.altDcs)
    let dcs ← charOctet coded.2.toInt
    let validity ← charOctet (at2Validity privdata now msg)
    let cut ← at2UserDataLength coded.1
    let length ← charOctet cut.2
    let userData ← at2UserData cut.1
    return some
      (at2FirstOctet msg :: 0 :: (address ++ pid :: dcs :: validity :: length :: userData),
      cut.1)

def at2PduEncode (privdata : At2Conf) (now : Int) (msg : Sms) :
    Except Failure (Option (Octstr × Sms)) :=
  (at2Submit privdata now msg).map (Option.map fun (octets, cut) =>
    (at2Encode8bituncompressed octets, cut))

structure Packing.After (offset dest count : Nat) (s : Packing) : Prop where
  bound : s.iStore ≤ 7
  index : s.i = if s.iStore = 0 then 7 else 8 - s.iStore
  chr : s.targetChr < 2 ^ s.iStore
  bits : 8 * s.target.length + s.iStore = offset + 7 * count
  remain : s.destRemain = dest - s.target.length

theorem lowBits_lt {iStore : Nat} (hpos : iStore ≠ 0) (hbound : iStore ≤ 7) (x : Nat) :
    (x &&& lsbMask (8 - iStore)) <<< iStore < 2 ^ 8 := by
  have hmask : lsbMask (8 - iStore) < 2 ^ (8 - iStore) := by
    interval_cases iStore <;> first | exact absurd rfl hpos | decide
  have hand : x &&& lsbMask (8 - iStore) < 2 ^ (8 - iStore) := Nat.and_lt_two_pow _ hmask
  have hpow : 2 ^ (8 - iStore) * 2 ^ iStore = 2 ^ 8 := by
    rw [← pow_add]
    congr 1
    omega
  rw [Nat.shiftLeft_eq, ← hpow]
  exact Nat.mul_lt_mul_of_pos_right hand (by positivity)

theorem highBits_lt {iStore : Nat} (hpos : iStore ≠ 0) (hbound : iStore ≤ 7) (x : Nat) :
    (x &&& msbMask (7 - (8 - iStore))) >>> ((8 - iStore) % 8) < 2 ^ (iStore - 1) := by
  have hmask : msbMask (7 - (8 - iStore)) ≤ 127 := by
    interval_cases iStore <;> first | exact absurd rfl hpos | decide
  have hand : x &&& msbMask (7 - (8 - iStore)) ≤ 127 := Nat.and_le_right.trans hmask
  generalize x &&& msbMask (7 - (8 - iStore)) = y at hand
  interval_cases iStore <;> first | exact absurd rfl hpos | (norm_num; omega)

theorem packSeptet_after {offset dest count : Nat} {s : Packing} (h : s.After offset dest count)
    (c : UInt8) : ∃ s', packSeptet s c = .ok s' ∧ s'.After offset dest (count + 1) := by
  obtain ⟨i, iStore, targetChr, destRemain, target⟩ := s
  obtain ⟨hbound, hindex, hchr, hbits, hremain⟩ := h
  dsimp only at hbound hindex hchr hbits hremain
  by_cases hzero : iStore = 0
  · -- The septet is kept back whole.
    subst hzero
    obtain rfl : i = 7 := hindex
    obtain rfl : targetChr = 0 := by omega
    have hlow : 0 ||| ((c.toNat &&& lsbMask 7) <<< 0) |||
        ((c.toNat &&& msbMask (7 - 7)) >>> ((8 - 0) % 8)) < 2 ^ 7 := by
      have hmask : c.toNat &&& lsbMask 7 < 2 ^ 7 := Nat.and_lt_two_pow _ (by decide)
      have hnone : c.toNat &&& msbMask (7 - 7) = 0 := Nat.and_zero _
      rw [hnone, Nat.zero_or]
      exact Nat.or_lt_two_pow hmask (by decide)
    refine ⟨⟨1, 7, _, destRemain, target⟩, rfl, le_rfl, rfl, hlow, ?_, hremain⟩
    dsimp only
    omega
  · -- The low bits of the septet complete an octet.
    rw [if_neg hzero] at hindex
    subst hindex
    have hcomplete : targetChr ||| ((c.toNat &&& lsbMask (8 - iStore)) <<< iStore) < 256 :=
      Nat.or_lt_two_pow (hchr.trans_le (Nat.pow_le_pow_right (by decide) (by omega)))
        (lowBits_lt hzero hbound _)
    have hstep : packSeptet ⟨8 - iStore, iStore, targetChr, destRemain, target⟩ c =
        .ok ⟨if iStore - 1 ≠ 0 then (if 8 - iStore + 1 > 7 then 1 else 8 - iStore + 1)
            else 8 - iStore,
          iStore - 1, 0 ||| (c.toNat &&& msbMask (7 - (8 - iStore))) >>> ((8 - iStore) % 8),
          destRemain - 1, target ++
            [UInt8.ofNat (targetChr ||| ((c.toNat &&& lsbMask (8 - iStore)) <<< iStore))]⟩ := by
      simp only [packSeptet]
      rw [if_pos hzero, charOctet_of_lt hcomplete, if_neg hzero]
      rfl
    refine ⟨_, hstep, ?_, ?_, ?_, ?_, ?_⟩
    all_goals dsimp only
    · omega
    · split_ifs <;> omega
    · rw [Nat.zero_or]
      exact highBits_lt hzero hbound _
    · rw [length_append, length_singleton]
      omega
    · rw [length_append, length_singleton]
      omega

theorem foldlM_packSeptet {offset dest : Nat} (source : Octstr) {count : Nat} {s : Packing}
    (h : s.After offset dest count) :
    ∃ s', source.foldlM packSeptet s = .ok s' ∧ s'.After offset dest (count + source.length) := by
  induction source generalizing s count with
  | nil => exact ⟨s, rfl, h⟩
  | cons c source ih =>
    obtain ⟨s₁, hstep, hafter⟩ := packSeptet_after h c
    obtain ⟨s', hrest, hend⟩ := ih hafter
    refine ⟨s', ?_, ?_⟩
    · rw [foldlM_cons, hstep, ok_bind, hrest]
    · rw [length_cons, ← Nat.add_assoc, Nat.add_right_comm]
      exact hend

theorem at2Encode7bituncompressed_length (source : Octstr) {offset : Nat} (hoffset : offset ≤ 7) :
    ∃ target, at2Encode7bituncompressed source offset = .ok target ∧
      target.length = (7 * source.length + offset + 7) / 8 := by
  have hstart : (⟨if offset ≠ 0 then 8 - offset else 7, offset, 0,
      ((source.length * 7 + offset + 7) / 8 : Nat), []⟩ : Packing).After offset
        ((source.length * 7 + offset + 7) / 8) 0 := by
    refine ⟨hoffset, ?_, Nat.two_pow_pos _, ?_, ?_⟩
    · dsimp only
      split_ifs <;> omega
    · exact Nat.zero_add _
    · exact (Int.sub_zero _).symm
  obtain ⟨s, hrun, hafter⟩ := foldlM_packSeptet source hstart
  have hbits := hafter.bits
  have hbound := hafter.bound
  have hremain := hafter.remain
  rw [at2Encode7bituncompressed, hrun, ok_bind]
  split_ifs with hleft
  · have hchr : s.targetChr < 256 :=
      hafter.chr.trans_le (Nat.pow_le_pow_right (by decide) (hbound.trans (by decide : 7 ≤ 8)))
    rw [charOctet_of_lt hchr]
    refine ⟨_, rfl, ?_⟩
    rw [length_append, length_singleton]
    omega
  · refine ⟨_, rfl, ?_⟩
    omega

def submitUserPart : Octstr → Option (UInt8 × Octstr)
  | _ :: _ :: digits :: rest =>
    match rest.drop (1 + (digits.toNat + 1) / 2 + 3) with
    | length :: userData => some (length, userData)
    | [] => none
  | _ => none

/-- It counts the septets of header and text, 160 at most, or their octets, 140 at most, and as
many octets follow as these take. -/
def LengthRight (sent : Sms) (length : UInt8) (userData : Octstr) : Prop :=
  let text := sent.msgdata.getD []
  if cutByOctets sent then
    length.toNat = udhLength sent + text.length ∧ length.toNat ≤ 140 ∧
      userData.length = length.toNat
  else
    length.toNat = udhSeptets (udhLength sent) + (charsetUtf8ToGsm text).length ∧
      length.toNat ≤ 160 ∧ userData.length = (7 * length.toNat + 7) / 8

def OctetsFit (udh text : Nat) : Prop :=
  if udh = 0 then text ≤ 140 else udh + text ≤ 140 + 9999

def SeptetsFit (udh : Nat) (counted : Int) (text : Octstr) : Prop :=
  if udh = 0 then
    (charsetUtf8ToGsm text).length ≤ 160 ∧ counted = (charsetUtf8ToGsm text).length
  else if counted + udhSeptets udh ≤ 160 then counted = (charsetUtf8ToGsm text).length
  else udhSeptets udh +
    (charsetUtf8ToGsm (octstrDelete text (160 - udhSeptets udh) 9999)).length = 160

instance lengthRight_decidable (sent : Sms) (length : UInt8) (userData : Octstr) :
    Decidable (LengthRight sent length userData) :=
  inferInstanceAs (Decidable (if cutByOctets sent then _ else _))

instance septetsFit_decidable (udh : Nat) (counted : Int) (text : Octstr) :
    Decidable (SeptetsFit udh counted text) :=
  inferInstanceAs (Decidable (if udh = 0 then _
    else if counted + udhSeptets udh ≤ 160 then _ else _))

/-- Without a header the text is no longer than a message. With one, a septet text fits in front
of the cut, or what is left there happens to have the septets asked for. -/
def At2Fits (msg : Sms) : Prop :=
  ∃ text, msg.msgdata = some text ∧
    if cutByOctets msg then OctetsFit (udhLength msg) text.length
    else SeptetsFit (udhLength msg) (smsMsgdataLen msg) text

theorem swappedDigits_length {temp digits : Octstr} (h : swappedDigits temp = some digits) :
    digits.length = (temp.length + 1) / 2 := by
  induction temp using swappedDigits.induct generalizing digits with
  | case1 =>
    cases h
    rfl
  | case2 first =>
    obtain ⟨octet, -, rfl⟩ := Option.map_eq_some_iff.mp h
    simp
  | case3 first second rest ih =>
    obtain ⟨octet, -, h⟩ := Option.bind_eq_some_iff.mp h
    obtain ⟨octets, hrest, h⟩ := Option.bind_eq_some_iff.mp h
    cases h
    have hlength := ih hrest
    simp only [length_cons]
    omega

theorem at2FormatAddressField_shape {msisdn : Option Octstr} {address : Octstr}
    (h : at2FormatAddressField msisdn = .ok (some address)) :
    ∃ (length kind : UInt8) (digits : Octstr), address = length :: kind :: digits ∧
      digits.length = (length.toNat + 1) / 2 := by
  unfold at2FormatAddressField at h
  split at h
  · cases h
  · obtain ⟨length, hlength, h⟩ := bind_eq_ok_iff.mp h
    rw [pure_eq_ok, Except.ok.injEq] at h
    obtain ⟨digits, hdigits, rfl⟩ := Option.map_eq_some_iff.mp h
    have hcount := swappedDigits_length hdigits
    have hvalue := charOctet_ok hlength
    exact ⟨_, _, digits, rfl, by omega⟩

variable {msg cut : Sms}

theorem at2Submit_parts {privdata : At2Conf} {now : Int} {octets : Octstr}
    (h : at2Submit privdata now msg = .ok (some (octets, cut))) :
    ∃ len length userData,
      at2UserDataLength { msg with coding := defaultCoding msg } = .ok (cut, len) ∧
      charOctet len = .ok length ∧ at2UserData cut = .ok userData ∧
      submitUserPart octets = some (length, userData) := by
  obtain ⟨address, haddress, h⟩ := bind_eq_ok_iff.mp h
  cases address with
  | none => cases h
  | some address =>
    obtain ⟨digits, kind, numbers, rfl, hnumbers⟩ := at2FormatAddressField_shape haddress
    obtain ⟨pid, -, h⟩ := bind_eq_ok_iff.mp h
    obtain ⟨dcs, -, h⟩ := bind_eq_ok_iff.mp h
    obtain ⟨validity, -, h⟩ := bind_eq_ok_iff.mp h
    obtain ⟨⟨cut', len⟩, hcut, h⟩ := bind_eq_ok_iff.mp h
    obtain ⟨length, hlength, h⟩ := bind_eq_ok_iff.mp h
    obtain ⟨userData, huserData, h⟩ := bind_eq_ok_iff.mp h
    obtain ⟨rfl, rfl⟩ := h
    refine ⟨len, length, userData, ?_, hlength, huserData, ?_⟩
    · rw [← fieldsToDcs_coding]
      exact hcut
    · have hdrop : (kind :: (numbers ++ pid :: dcs :: validity :: length :: userData)).drop
          (1 + (digits.toNat + 1) / 2 + 3) = length :: userData := by
        rw [← hnumbers, Nat.add_comm 1, drop_succ_cons]
        simp
      show (match (kind :: (numbers ++ pid :: dcs :: validity :: length :: userData)).drop
        (1 + (digits.toNat + 1) / 2 + 3) with
        | length :: userData => some (length, userData)
        | [] => none) = _
      rw [hdrop]

theorem octstrDelete_length (ostr : Octstr) (pos len : Nat) :
    (octstrDelete ostr pos len).length = min pos ostr.length + (ostr.length - (pos + len)) := by
  rw [octstrDelete, length_append, length_take, length_drop]

theorem at2Truncate_cases {len most reserved len' : Int}
    (h : at2Truncate msg len most reserved = .ok (cut, len')) :
    (len ≤ most ∧ cut = msg ∧ len' = len) ∨
      (most < len ∧ reserved ≤ most ∧ len' = most ∧ ∃ text, msg.msgdata = some text ∧
        cut = { msg with msgdata := some (octstrDelete text (most - reserved).toNat 9999) }) := by
  unfold at2Truncate at h
  by_cases hlen : len > most
  · rw [if_pos hlen] at h
    cases hdata : msg.msgdata with
    | none =>
      rw [hdata] at h
      cases h
    | some text =>
      rw [hdata] at h
      split_ifs at h with hroom
      rw [Except.ok.injEq, Prod.mk.injEq] at h
      exact .inr ⟨hlen, by omega, h.2.symm, text, rfl, h.1.symm⟩
  · rw [if_neg hlen, Except.ok.injEq, Prod.mk.injEq] at h
    exact .inl ⟨by omega, h.1.symm, h.2.symm⟩

theorem at2UserDataLength_kept {len : Int} (h : at2UserDataLength msg = .ok (cut, len)) :
    cutByOctets cut = cutByOctets msg ∧ udhLength cut = udhLength msg ∧
      (msg.msgdata = none → cut.msgdata = none) := by
  unfold at2UserDataLength at h
  dsimp only at h
  split_ifs at h
  · cases h
    exact ⟨rfl, rfl, id⟩
  all_goals
    rcases at2Truncate_cases h with ⟨-, rfl, -⟩ | ⟨-, -, -, text, hdata, rfl⟩
    · exact ⟨rfl, rfl, id⟩
    · exact ⟨rfl, rfl, fun hnone => by rw [hnone] at hdata; cases hdata⟩

theorem septets_fill (udh n : Nat) :
    udh + (7 * n + fillBits udh + 7) / 8 = (7 * (udhSeptets udh + n) + 7) / 8 := by
  unfold fillBits udhSeptets
  split_ifs <;> omega

variable {userData : Octstr}

theorem at2UserData_length {cut : Sms} (h : at2UserData cut = .ok userData) :
    userData.length = if cutByOctets cut then udhLength cut + (cut.msgdata.getD []).length
      else (7 * (udhSeptets (udhLength cut) +
        (charsetUtf8ToGsm (cut.msgdata.getD [])).length) + 7) / 8 := by
  unfold at2UserData at h
  split_ifs at h ⊢ with hoctets
  · cases h
    exact length_append
  · cases hdata : cut.msgdata with
    | none =>
      rw [hdata] at h
      cases h
    | some text =>
      rw [hdata] at h
      have hfill : fillBits (udhLength cut) ≤ 7 := by
        unfold fillBits
        split_ifs <;> omega
      obtain ⟨target, htarget, hlength⟩ :=
        at2Encode7bituncompressed_length (charsetUtf8ToGsm text) hfill
      dsimp only at h
      rw [htarget, ok_bind, pure_eq_ok, Except.ok.injEq] at h
      rw [← h, length_append, hlength, ← septets_fill]
      rfl

theorem lengthRight_iff {cut : Sms} (h : at2UserData cut = .ok userData) (length : UInt8) :
    LengthRight cut length userData ↔
      if cutByOctets cut then
        length.toNat = udhLength cut + (cut.msgdata.getD []).length ∧ length.toNat ≤ 140
      else length.toNat = udhSeptets (udhLength cut) +
        (charsetUtf8ToGsm (cut.msgdata.getD [])).length ∧ length.toNat ≤ 160 := by
  have huserData := at2UserData_length h
  unfold LengthRight
  split_ifs at huserData ⊢
  · omega
  · rw [huserData]
    constructor
    · exact fun h => ⟨h.1, h.2.1⟩
    · exact fun h => ⟨h.1, h.2, by rw [← h.1]⟩

section Fits
variable {msg cut : Sms} {len : Int} {length : UInt8} {text : Octstr}

theorem octets_right_iff (hoctets : cutByOctets msg = true) (hdata : msg.msgdata = some text)
    (hcut : at2UserDataLength msg = .ok (cut, len)) (hlength : (length.toNat : Int) = len) :
    (length.toNat = udhLength msg + (cut.msgdata.getD []).length ∧ length.toNat ≤ 140) ↔
      OctetsFit (udhLength msg) text.length := by
  have hcoding : msg.coding ≠ dc7bit := by
    rcases of_decide_eq_true hoctets with h | h <;> rw [h] <;> decide
  have hcounted : smsMsgdataLen msg = toInt text.length := by
    rw [smsMsgdataLen, hdata]
    exact if_neg hcoding
  unfold at2UserDataLength at hcut
  unfold OctetsFit
  split_ifs at hcut ⊢ with hudh
  · rw [Except.ok.injEq, hcounted] at hcut
    obtain ⟨rfl, rfl⟩ := hcut
    rw [hdata, Option.getD_some]
    constructor
    · omega
    · intro hfits
      rw [toInt_of_fits (by omega) (by omega)] at hlength
      omega
  · rw [hcounted] at hcut
    have hnowrap : udhLength msg + text.length ≤ 140 + 9999 →
        toInt (toInt text.length + udhLength msg) = text.length + udhLength msg := by
      intro hfits
      rw [toInt_of_fits (n := text.length) (by omega) (by omega),
        toInt_of_fits (by omega) (by omega)]
    rcases at2Truncate_cases hcut with ⟨hle, rfl, hlen⟩ | ⟨hgt, hroom, rfl, text', hdata', rfl⟩
    · rw [hdata, Option.getD_some]
      rw [hlen] at hlength
      unfold sms8bitMaxLen at hle
      omega
    · obtain rfl := Option.some.inj (hdata.symm.trans hdata')
      rw [Option.getD_some, octstrDelete_length]
      unfold sms8bitMaxLen at hgt hroom hlength ⊢
      omega

theorem septets_right_iff (hoctets : cutByOctets msg = false) (hdata : msg.msgdata = some text)
    (hcut : at2UserDataLength msg = .ok (cut, len)) (hlength : (length.toNat : Int) = len) :
    (length.toNat = udhSeptets (udhLength msg) +
        (charsetUtf8ToGsm (cut.msgdata.getD [])).length ∧ length.toNat ≤ 160) ↔
      SeptetsFit (udhLength msg) (smsMsgdataLen msg) text := by
  unfold at2UserDataLength at hcut
  unfold SeptetsFit
  dsimp only at hcut
  rw [hoctets] at hcut
  by_cases hudh : udhLength msg = 0
  · rw [if_pos hudh, Except.ok.injEq] at hcut
    obtain ⟨rfl, rfl⟩ := hcut
    rw [if_pos hudh, hdata, Option.getD_some]
    unfold udhSeptets
    omega
  · rw [if_neg Bool.false_ne_true] at hcut
    rw [if_neg hudh]
    generalize udhSeptets (udhLength msg) = k at hcut ⊢
    split_ifs at hcut with hfits
    by_cases hk : k < 2 ^ 31
    · rw [toInt_of_fits (n := k) (by omega) (by omega)] at hcut
      unfold sms7bitMaxLen at hcut
      rcases at2Truncate_cases hcut with ⟨hle, rfl, rfl⟩ | ⟨hgt, hroom, rfl, text', hdata', rfl⟩
      · rw [if_pos hle, hdata, Option.getD_some]
        omega
      · obtain rfl := Option.some.inj (hdata.symm.trans hdata')
        have hpos : ((160 : Int) - k).toNat = 160 - k := by omega
        rw [if_neg (by omega), Option.getD_some, hpos]
        omega
    · -- A header this long leaves no room, and no length octet counts it.
      constructor
      · omega
      · split_ifs <;> omega

theorem noText_not_right (hdata : msg.msgdata = none)
    (hcut : at2UserDataLength msg = .ok (cut, len)) (hlength : (length.toNat : Int) = len)
    (hoctets : cutByOctets msg = true) :
    ¬ (length.toNat = udhLength msg ∧ length.toNat ≤ 140) := by
  have hcounted : smsMsgdataLen msg = -1 := by rw [smsMsgdataLen, hdata]
  unfold at2UserDataLength at hcut
  split_ifs at hcut with hudh
  · rw [Except.ok.injEq, Prod.mk.injEq] at hcut
    omega
  · rcases at2Truncate_cases hcut with ⟨-, -, hlen⟩ | ⟨-, -, -, text, hdata', -⟩
    · rintro ⟨heq, hle⟩
      rw [hlen, toInt_of_fits (by omega) (by omega)] at hlength
      omega
    · rw [hdata] at hdata'
      cases hdata'

end Fits

/-- **The length octet** of every PDU is right if and only if the message fits. -/
theorem at2PduEncode_length_iff {privdata : At2Conf} {now : Int} {msg sent : Sms} {pdu : Octstr}
    (h : at2PduEncode privdata now msg = .ok (some (pdu, sent))) :
    ∃ octets length userData, pdu = at2Encode8bituncompressed octets ∧
      submitUserPart octets = some (length, userData) ∧
      (LengthRight sent length userData ↔ At2Fits { msg with coding := defaultCoding msg }) := by
  unfold at2PduEncode at h
  obtain ⟨result, hsubmit, h⟩ := map_eq_ok_iff.mp h
  obtain ⟨⟨octets, cut⟩, rfl, heq⟩ := Option.map_eq_some_iff.mp h
  obtain ⟨rfl, rfl⟩ := heq
  obtain ⟨len, length, userData, hcut, hlength, huserData, hread⟩ := at2Submit_parts hsubmit
  refine ⟨octets, length, userData, rfl, hread, ?_⟩
  generalize { msg with coding := defaultCoding msg } = coded at hcut ⊢
  have hvalue := charOctet_ok hlength
  obtain ⟨hbyOctets, hudh, hnone⟩ := at2UserDataLength_kept hcut
  rw [lengthRight_iff huserData, hbyOctets, hudh]
  unfold At2Fits
  cases hdata : coded.msgdata with
  | some text =>
    cases hoctets : cutByOctets coded with
    | true => simpa using octets_right_iff hoctets hdata hcut hvalue
    | false => simpa using septets_right_iff hoctets hdata hcut hvalue
  | none =>
    cases hoctets : cutByOctets coded with
    | true =>
      have hwrong := noText_not_right hdata hcut hvalue hoctets
      simpa [hnone hdata] using hwrong
    | false =>
      rw [at2UserData, hbyOctets, hoctets, hnone hdata]
        at huserData
      cases huserData

def firstPart (text : Octstr) : Sms :=
  { smsCreate uuidClear with
    receiver := some [49, 50, 51]
    coding := dc7bit
    udhdata := some [5, 0, 3, 1, 2, 1]
    msgdata := some text }

theorem shortPart_length_right : ∃ pdu sent,
    at2PduEncode ⟨0, none⟩ 0 (firstPart [104, 105]) = .ok (some (pdu, sent)) ∧
      ∃ octets length userData, pdu = at2Encode8bituncompressed octets ∧
        submitUserPart octets = some (length, userData) ∧ LengthRight sent length userData := by
  obtain ⟨⟨pdu, sent⟩, hresult⟩ :
      ∃ result, at2PduEncode ⟨0, none⟩ 0 (firstPart [104, 105]) = .ok (some result) := by
    decide +kernel
  refine ⟨pdu, sent, hresult, ?_⟩
  obtain ⟨octets, length, userData, hpdu, hread, hright⟩ := at2PduEncode_length_iff hresult
  have hseptets : SeptetsFit 6 (smsMsgdataLen (firstPart [104, 105])) [104, 105] := by decide
  exact ⟨octets, length, userData, hpdu, hread, hright.mpr ⟨[104, 105], rfl, hseptets⟩⟩

/-- **154 braces** are cut after 153 octets, and 306 septets follow a length octet of 160. -/
theorem braces_length_wrong : ∃ pdu sent,
    at2PduEncode ⟨0, none⟩ 0 (firstPart (replicate 154 123)) = .ok (some (pdu, sent)) ∧
      ∃ octets length userData, pdu = at2Encode8bituncompressed octets ∧
        submitUserPart octets = some (length, userData) ∧
        length.toNat = 160 ∧ (charsetUtf8ToGsm (sent.msgdata.getD [])).length = 306 ∧
        ¬ LengthRight sent length userData := by
  obtain ⟨⟨octets, sent⟩, hsubmit, part, hread, hwrong⟩ :
      ∃ result, at2Submit ⟨0, none⟩ 0 (firstPart (replicate 154 123)) = .ok (some result) ∧
        ∃ part, submitUserPart result.1 = some part ∧ part.1.toNat = 160 ∧
          (charsetUtf8ToGsm (result.2.msgdata.getD [])).length = 306 ∧
          ¬ LengthRight result.2 part.1 part.2 := by
    decide +kernel
  refine ⟨_, sent, ?_, octets, part.1, part.2, rfl, hread, hwrong⟩
  rw [at2PduEncode, hsubmit]
  rfl

end Kannel
