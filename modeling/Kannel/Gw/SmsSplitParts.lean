import Kannel.Gw.ConcatSplit
import Kannel.Gw.SmsSplitText

/-!
# What the parts carry

The room of a part leaves space for the suffix in every round, the last included, and counts
header, footer and suffix in octets.
-/

namespace Kannel
open List
variable {args : SplitArgs} {orig temp : Sms} {entropy : Nat → Entropy} {text : Octstr}

def cutLength (splitChars : Option Octstr) (len : Nat) (text : Octstr) : Nat :=
  match splitChars with
  | none => len
  | some splitChars =>
    if len < text.length then (lastSplitChar text splitChars len).getD len else len

theorem extractMsgdataPart_nat (text : Octstr) (splitChars : Option Octstr) (len : Nat) :
    extractMsgdataPart text splitChars len =
      .ok (text.take (cutLength splitChars len text),
        text.drop (cutLength splitChars len text)) := by
  have htake (k : Nat) : octstrCopy text 0 k = .ok (text.take k) := octstrCopy_nat text 0 k
  unfold extractMsgdataPart cutLength
  cases splitChars with
  | none => simp [htake, octstrDelete]
  | some splitChars =>
    by_cases hlong : len < text.length
    · cases hlast : lastSplitChar text splitChars len <;>
        simp [hlong, hlast, htake, octstrDelete]
    · simp [hlong, htake, octstrDelete]

theorem extractMsgdataPart_neg (text : Octstr) (splitChars : Option Octstr) {len : Int}
    (h : len < 0) : extractMsgdataPart text splitChars len = .error .assertion := by
  have hcopy : octstrCopy text 0 len = .error .assertion := by simp [octstrCopy, h]
  have hnat : len.toNat = 0 := by omega
  unfold extractMsgdataPart
  cases splitChars <;> simp [hcopy, hnat, lastSplitChar]

variable {splitChars : Option Octstr}

theorem lastSplitChar_spec {splitChars : Octstr} {i k : Nat}
    (h : lastSplitChar text splitChars i = some k) :
    0 < k ∧ k ≤ i ∧ ∃ c ∈ splitChars, text[k - 1]? = some c := by
  induction i with
  | zero => cases h
  | succ i ih => grind [lastSplitChar, octstrGetChar]

theorem cutLength_le (splitChars : Option Octstr) (len : Nat) (text : Octstr) :
    cutLength splitChars len text ≤ len ∧ (0 < len → 0 < cutLength splitChars len text) := by
  unfold cutLength
  cases splitChars with
  | none => simp
  | some splitChars =>
    cases hlast : lastSplitChar text splitChars len with
    | none => grind
    | some k =>
      have hk := lastSplitChar_spec hlast
      grind

theorem cutLength_of_le {len : Nat} (h : text.length ≤ len) :
    cutLength splitChars len text = len := by
  cases splitChars <;> grind [cutLength]

variable {fuel msgno len : Nat} {parts : List Sms}

theorem unicodeToUtf8_length_le (c : Nat) : (unicodeToUtf8 c).length ≤ 3 := by
  grind [unicodeToUtf8]

theorem charsetGsmToUtf8_length_le (gsm : Octstr) :
    (charsetGsmToUtf8 gsm).length ≤ 3 * gsm.length := by
  fun_induction charsetGsmToUtf8 gsm <;> grind [unicodeToUtf8_length_le]

theorem extractMsgdataPartByCoding_ok {len : Nat} (hdata : temp.msgdata = some text)
    (hsize : cutByOctets temp = true ∨ len < 2 ^ 29) :
    ∃ r, extractMsgdataPartByCoding temp splitChars len = .ok r := by
  unfold extractMsgdataPartByCoding
  rw [hdata]
  dsimp only
  by_cases hcut : cutByOctets temp = true
  · exact ⟨_, by rw [if_pos hcut, extractMsgdataPart_nat]⟩
  · have hlen := hsize.resolve_left hcut
    rw [if_neg hcut, charsetGsmTruncate_nat, ok_bind]
    generalize hgsm : charsetUtf8ToGsm (charsetGsmToUtf8 (charsetUtf8ToGsm text)) = gsm
    have hshort : (if len < gsm.length then gsm.take (gsmCut gsm len) else gsm).length ≤ len := by
      grind [gsmCut]
    have hutf8 := charsetGsmToUtf8_length_le
      (if len < gsm.length then gsm.take (gsmCut gsm len) else gsm)
    exact ⟨_, by rw [toInt_natCast (by omega), extractMsgdataPart_nat]⟩

theorem extractMsgdataPartByCoding_neg {len : Int} (hlen : len < 0) :
    extractMsgdataPartByCoding temp splitChars len = .error .assertion := by
  unfold extractMsgdataPartByCoding
  cases temp.msgdata with
  | none => rfl
  | some text =>
    by_cases hcut : cutByOctets temp = true
    · simp only [hcut, if_true, extractMsgdataPart_neg text splitChars hlen]
    · have htrunc (gsm : Octstr) : charsetGsmTruncate gsm len = .error .assertion := by
        unfold charsetGsmTruncate octstrTruncate
        rw [if_pos (by omega), if_neg (c := _ ∧ _) (by omega), if_pos hlen]
      simp only [hcut, Bool.false_eq_true, if_false, htrunc, error_bind]

theorem roomForText_lt (h : args.maxOctets < 2 ^ 28)
    {udhLen : Int} (hudh : 0 ≤ udhLen) : roomForText args orig udhLen < 2 ^ 29 := by
  have hdiv : ((args.maxOctets - udhLen) * 8).tdiv 7 < 2 ^ 29 := by
    have hle := Int.tdiv_le_tdiv (a := (args.maxOctets - udhLen) * 8) (b := 2 ^ 28 * 8) (c := 7)
      (by decide) (by omega)
    exact lt_of_le_of_lt hle (by decide)
  unfold roomForText
  dsimp only
  split_ifs <;> omega

theorem maxPartLen_range (h : args.maxOctets < 2 ^ 28) :
    0 ≤ maxPartLen args orig ∧ maxPartLen args orig < 2 ^ 29 := by
  have hwhole := @roomForText_lt args orig h ((orig.udhdata.getD []).length) (by omega)
  have hconcat := @roomForText_lt args orig h
    ((if (orig.udhdata.getD []).length = 0 then 1 else (orig.udhdata.getD []).length : Nat) +
      catenateUdhLen) (by omega)
  unfold maxPartLen
  dsimp only
  push_cast at hconcat ⊢
  split_ifs at hconcat ⊢ <;> omega

theorem splitLoop_ok {r : Except Failure (List Sms)} (hlen : cutRoom args orig = len)
    (hdata : temp.msgdata.isSome) (hsize : cutByOctets temp = true ∨ len < 2 ^ 29)
    (hrun : splitLoop args orig entropy fuel msgno temp = some r) : ∃ parts, r = .ok parts := by
  induction fuel generalizing msgno temp r with
  | zero => cases hrun
  | succ fuel ih =>
    obtain ⟨text, htext⟩ := Option.isSome_iff_exists.mp hdata
    have hextract : ∃ r, extractMsgdataPartByCoding temp args.splitChars len = .ok r :=
      extractMsgdataPartByCoding_ok htext hsize
    obtain ⟨⟨piece, rest⟩, hextract⟩ := hextract
    obtain ⟨part, -, hround⟩ := splitLoop_round entropy fuel msgno (hlen ▸ hextract)
    rw [hround] at hrun
    split at hrun
    · cases hrun
      exact ⟨_, rfl⟩
    · obtain ⟨r', hr', rfl⟩ := Option.map_eq_some_iff.mp hrun
      have hsize' : cutByOctets { temp with msgdata := some rest } = true ∨ len < 2 ^ 29 := hsize
      obtain ⟨parts, rfl⟩ := ih rfl hsize' hr'
      exact ⟨_, rfl⟩

/-- **Assertions.** A split completes exactly if there is a text and the part has
room for the suffix. -/
theorem smsSplit_completes_iff (args : SplitArgs) (orig : Sms) (entropy : Nat → Entropy)
    (hmax : 1 ≤ args.maxMessages ∧ args.maxMessages < 2 ^ 31)
    (hsize : cutByOctets orig = true ∨ cutRoom args orig < 2 ^ 29) :
    (∃ parts, smsSplit args.maxMessages.toNat args orig entropy = some (.ok parts)) ↔
      orig.msgdata.isSome ∧ 0 ≤ cutRoom args orig := by
  have hlong : toUlong args.maxMessages = args.maxMessages.toNat := by
    unfold toUlong
    omega
  have hsome : (smsSplit args.maxMessages.toNat args orig entropy).isSome :=
    smsSplit_terminates hlong (by omega)
  obtain ⟨r, hr⟩ := Option.isSome_iff_exists.mp hsome
  obtain ⟨raw, hraw, rfl⟩ := Option.map_eq_some_iff.mp hr
  rw [hr]
  constructor
  · rintro ⟨parts, hparts⟩
    by_contra hnot
    have hextract : extractMsgdataPartByCoding orig args.splitChars (cutRoom args orig) =
        .error .assertion := by
      by_cases hneg : cutRoom args orig < 0
      · exact extractMsgdataPartByCoding_neg hneg
      · have hnone : orig.msgdata = none := by
          by_contra hsome
          exact hnot ⟨Option.isSome_iff_ne_none.mpr hsome, by omega⟩
        simp only [extractMsgdataPartByCoding, hnone]
    obtain ⟨n, hn⟩ : ∃ n, args.maxMessages.toNat = n + 1 := ⟨args.maxMessages.toNat - 1, by omega⟩
    rw [hn] at hraw
    rw [splitLoop_error entropy n 0 hextract] at hraw
    cases hraw
    cases hparts
  · intro ⟨hdata, hroom⟩
    obtain ⟨len, hlen⟩ := Int.eq_ofNat_of_zero_le hroom
    obtain ⟨parts, rfl⟩ := splitLoop_ok hlen hdata (hsize.imp_right fun h => by omega) hraw
    exact ⟨_, rfl⟩

theorem smsSplit_suffix_asserts :
    smsSplit 255 { catenateArgs 1 1 with catenate := false, nonlastSuffix := some [43, 43] }
        { smsCreate uuidClear with coding := dc8bit, msgdata := some [46] }
        (fun _ => .random uuidClear) = some (.error .assertion) := by
  rfl

/-- Two hundred octets, with a suffix of two behind every part but the last. -/
theorem smsSplit_completes_suffixed :
    ∃ parts, smsSplit 255 { catenateArgs 1 140 with nonlastSuffix := some [43, 43] }
      { smsCreate uuidClear with coding := dc7bit, msgdata := some (replicate 200 46) }
      (fun _ => .random uuidClear) = some (.ok parts) :=
  (smsSplit_completes_iff { catenateArgs 1 140 with nonlastSuffix := some [43, 43] }
    { smsCreate uuidClear with coding := dc7bit, msgdata := some (replicate 200 46) }
    (fun _ => .random uuidClear) (by decide) (.inr (by decide +kernel))).mpr (by decide +kernel)

def octetPieces (args : SplitArgs) (orig : Sms) : Nat → Nat → Octstr → List Octstr
  | 0, _, _ => []
  | fuel+1, msgno, text =>
    let cut := cutLength args.splitChars (cutRoom args orig).toNat text
    if toInt text.length ≤ maxPartLen args orig ∨ msgno + 1 = toUlong args.maxMessages then
      [text.take cut]
    else text.take cut :: octetPieces args orig fuel (msgno + 1) (text.drop cut)

theorem octetPieces_ne_nil : octetPieces args orig (fuel + 1) msgno text ≠ [] := by
  rw [octetPieces]
  split <;> exact cons_ne_nil _ _

def framedPieces (args : SplitArgs) : List Octstr → List Octstr
  | [] => []
  | [piece] => [framed args true piece]
  | piece :: pieces => framed args false piece :: framedPieces args pieces

theorem extractMsgdataPartByCoding_octets (hlen : cutRoom args orig = len)
    (hcut : cutByOctets temp = true) (hdata : temp.msgdata = some text) :
    extractMsgdataPartByCoding temp args.splitChars (cutRoom args orig) =
      .ok (text.take (cutLength args.splitChars (cutRoom args orig).toNat text),
        text.drop (cutLength args.splitChars (cutRoom args orig).toNat text)) := by
  simp only [extractMsgdataPartByCoding, hdata, hcut, if_true, hlen, Int.toNat_natCast]
  exact extractMsgdataPart_nat text args.splitChars len

theorem isLastRound_octets (hcut : cutByOctets temp = true) (hdata : temp.msgdata = some text) :
    isLastRound args orig msgno temp =
      decide (toInt text.length ≤ maxPartLen args orig ∨ msgno = toUlong args.maxMessages) := by
  have hcoding : temp.coding ≠ dc7bit := by
    intro h
    simp [cutByOctets, h, dc7bit, dc8bit, dcUcs2] at hcut
  simp [isLastRound, smsMsgdataLen, hdata, hcoding]

theorem splitLoop_octets (hlen : cutRoom args orig = len) (hcut : cutByOctets temp = true)
    (hdata : temp.msgdata = some text)
    (hrun : splitLoop args orig entropy fuel msgno temp = some (.ok parts)) :
    parts.map Sms.msgdata =
      (framedPieces args (octetPieces args orig fuel msgno text)).map some := by
  induction fuel generalizing msgno temp text parts with
  | zero => cases hrun
  | succ fuel ih =>
    obtain ⟨piece, rest, part, hextract, hmade, hcase⟩ := splitLoop_inv hrun
    have hpart := hmade.msgdata
    rw [extractMsgdataPartByCoding_octets hlen hcut hdata] at hextract
    cases hextract
    rw [isLastRound_octets hcut hdata] at hpart hcase
    rw [octetPieces]
    rcases hcase with ⟨hlast, rfl⟩ | ⟨hlast, more, rfl, hmore⟩
    · simp [of_decide_eq_true hlast, framedPieces, hpart]
    · rw [hlast] at hpart
      rw [if_neg (of_decide_eq_false hlast)]
      generalize text.drop _ = text' at hmore ⊢
      have hcut' : cutByOctets { temp with msgdata := some text' } = true := hcut
      have hrest := ih hcut' rfl hmore
      -- a further round has been made, so that there is a further piece
      cases hpieces : octetPieces args orig fuel (msgno + 1) text' with
      | nil =>
        cases fuel with
        | zero => cases hmore
        | succ fuel => exact (octetPieces_ne_nil hpieces).elim
      | cons next pieces =>
        rw [hpieces] at hrest
        rw [map_cons, hpart, hrest]
        rfl

theorem length_drop_cutLength_lt (hroom : 0 < cutRoom args orig)
    (hlong : ¬ toInt text.length ≤ maxPartLen args orig) :
    (text.drop (cutLength args.splitChars (cutRoom args orig).toNat text)).length <
      text.length := by
  have hcut := (cutLength_le args.splitChars (cutRoom args orig).toNat text).2 (by omega)
  have hpart : 0 ≤ maxPartLen args orig := by
    unfold maxPartLen
    dsimp only
    omega
  have htext : text.length ≠ 0 := by
    intro h
    rw [h] at hlong
    exact hlong hpart
  rw [length_drop]
  omega

theorem splitLoop_octets_returns (hlen : cutRoom args orig = len) (hpos : 0 < len)
    (hcut : cutByOctets temp = true) (hdata : temp.msgdata = some text)
    (hfuel : text.length < fuel) :
    ∃ parts, splitLoop args orig entropy fuel msgno temp = some (.ok parts) := by
  induction fuel generalizing msgno temp text with
  | zero => omega
  | succ fuel ih =>
    obtain ⟨part, -, hround⟩ := splitLoop_round entropy fuel msgno
      (extractMsgdataPartByCoding_octets hlen hcut hdata)
    rw [hround, isLastRound_octets hcut hdata]
    split
    · exact ⟨_, rfl⟩
    · next hlast =>
      have hlong : ¬ toInt text.length ≤ maxPartLen args orig :=
        fun h => hlast (decide_eq_true (.inl h))
      have hshorter := length_drop_cutLength_lt (by omega) hlong
      generalize text.drop _ = text' at hshorter ⊢
      have hcut' : cutByOctets { temp with msgdata := some text' } = true := hcut
      have hshorter : text'.length < fuel := by omega
      obtain ⟨parts, hparts⟩ := ih hcut' rfl hshorter
      rw [hparts]
      exact ⟨_, rfl⟩

def lastText (args : SplitArgs) (orig : Sms) : Nat → Octstr → Octstr
  | 0, text => text
  | fuel+1, text =>
    if toInt text.length ≤ maxPartLen args orig then text
    else lastText args orig fuel
      (text.drop (cutLength args.splitChars (cutRoom args orig).toNat text))

theorem flatten_octetPieces (hroom : 0 < cutRoom args orig) (hfuel : text.length < fuel)
    (hmax : msgno + (octetPieces args orig fuel msgno text).length ≠ toUlong args.maxMessages) :
    (octetPieces args orig fuel msgno text).flatten ++
      (lastText args orig fuel text).drop
        (cutLength args.splitChars (cutRoom args orig).toNat (lastText args orig fuel text)) =
      text := by
  induction fuel generalizing msgno text with
  | zero => omega
  | succ fuel ih =>
    rw [octetPieces] at hmax ⊢
    rw [lastText]
    by_cases hfits : toInt text.length ≤ maxPartLen args orig
    · simp [hfits]
    · by_cases hlast : msgno + 1 = toUlong args.maxMessages
      · simp [hlast] at hmax
      · simp only [hfits, hlast, or_self, if_false, length_cons, flatten_cons,
          append_assoc] at hmax ⊢
        have hshorter := length_drop_cutLength_lt hroom hfits
        rw [ih (by omega) (by omega), take_append_drop]

def unframed (args : SplitArgs) (last : Bool) (text : Octstr) : Octstr :=
  (text.drop (args.header.getD []).length).take (text.length - (framed args last []).length)

def unframedPieces (args : SplitArgs) : List Octstr → List Octstr
  | [] => []
  | [text] => [unframed args true text]
  | text :: texts => unframed args false text :: unframedPieces args texts

theorem unframed_framed (last : Bool) (piece : Octstr) :
    unframed args last (framed args last piece) = piece := by
  have hlen : (framed args last piece).length - (framed args last []).length = piece.length := by
    simp only [framed, length_append, length_nil]
    omega
  rw [unframed, hlen]
  simp [framed]

variable (pieces : List Octstr)

theorem unframedPieces_framedPieces : unframedPieces args (framedPieces args pieces) = pieces := by
  induction pieces with
  | nil => rfl
  | cons piece pieces ih =>
    cases pieces with
    | nil => simp [framedPieces, unframedPieces, unframed_framed]
    | cons next pieces =>
      have hmore : framedPieces args (next :: pieces) ≠ [] := by
        cases pieces <;> exact cons_ne_nil _ _
      obtain ⟨text, texts, htexts⟩ := exists_cons_of_ne_nil hmore
      rw [htexts] at ih
      rw [framedPieces, htexts, unframedPieces, ih, unframed_framed]
      · exact cons_ne_nil _ _
      · exact cons_ne_nil _ _

theorem length_framedPieces : (framedPieces args pieces).length = pieces.length := by
  fun_induction framedPieces args pieces <;> simp_all

theorem smsSplit_octets (hlen : cutRoom args orig = len) (hcut : cutByOctets orig = true)
    (hdata : orig.msgdata = some text)
    (hrun : splitLoop args orig entropy fuel 0 orig = some (.ok parts)) :
    (catenateParts args parts).map (fun part => part.msgdata.getD []) =
      framedPieces args (octetPieces args orig fuel 0 text) := by
  have hmap := congrArg (List.map fun text => text.getD []) (splitLoop_octets hlen hcut hdata hrun)
  rw [map_catenateParts fun _ _ _ _ => rfl]
  simpa [Function.comp_def] using hmap

theorem cutRoom_eq (hcut : cutByOctets orig = true) (hint : args.maxOctets < 2 ^ 31)
    (hroom : (args.nonlastSuffix.getD []).length ≤ maxPartLen args orig) :
    cutRoom args orig = maxPartLen args orig - (args.nonlastSuffix.getD []).length := by
  have hle : maxPartLen args orig < 2 ^ 31 := by
    simp only [maxPartLen, roomForText, hcut, if_true]
    omega
  exact toInt_of_fits (by omega) (by omega)

/-- **Texts cut by octets** are carried whole exactly if what is left for the last part has room
beside a suffix that is not appended to it. -/
theorem smsSplit_whole_iff (hcoding : orig.coding = dc8bit ∨ orig.coding = dcUcs2)
    (hdata : orig.msgdata = some text) (hint : args.maxOctets < 2 ^ 31)
    (hroom : (args.nonlastSuffix.getD []).length < maxPartLen args orig) :
    ∃ parts, smsSplit (text.length + 1) args orig entropy = some (.ok parts) ∧
      (parts.length ≠ toUlong args.maxMessages →
        ((unframedPieces args (parts.map fun part => part.msgdata.getD [])).flatten = text ↔
          (lastText args orig (text.length + 1) text).length ≤
            maxPartLen args orig - (args.nonlastSuffix.getD []).length)) := by
  have hcut : cutByOctets orig = true := decide_eq_true hcoding
  have heq := cutRoom_eq hcut hint hroom.le
  obtain ⟨len, hlen⟩ := Int.eq_ofNat_of_zero_le (show 0 ≤ cutRoom args orig by omega)
  have hreturns : ∃ parts,
      splitLoop args orig entropy (text.length + 1) 0 orig = some (.ok parts) :=
    splitLoop_octets_returns hlen (by omega) hcut hdata (by omega)
  obtain ⟨parts, hparts⟩ := hreturns
  refine ⟨catenateParts args parts, by rw [smsSplit, hparts]; rfl, fun hmax => ?_⟩
  have htexts := smsSplit_octets hlen hcut hdata hparts
  have hcount := congrArg List.length htexts
  rw [length_map, length_framedPieces] at hcount
  have hmax' : 0 + (octetPieces args orig (text.length + 1) 0 text).length ≠
      toUlong args.maxMessages := by omega
  have hflat := flatten_octetPieces (by omega) (by omega) hmax'
  rw [htexts, unframedPieces_framedPieces]
  have hle := cutLength_le args.splitChars (cutRoom args orig).toNat
    (lastText args orig (text.length + 1) text)
  constructor
  · intro h
    rw [h, append_right_eq_self, drop_eq_nil_iff] at hflat
    omega
  · intro h
    rwa [cutLength_of_le (by omega), drop_eq_nil_of_le (by omega), append_nil] at hflat

/-- Ten octets that fit into one part lose the two the suffix would need. -/
theorem smsSplit_loses_suffix_octets :
    ∃ (args : SplitArgs) (orig : Sms) (parts : List Sms),
      orig.coding = dc8bit ∧ ((args.nonlastSuffix.getD []).length : Int) < maxPartLen args orig ∧
      smsSplit 11 args orig (fun _ => .random uuidClear) = some (.ok parts) ∧
      parts.length ≠ toUlong args.maxMessages ∧
      (unframedPieces args (parts.map fun part => part.msgdata.getD [])).flatten ++ [46, 46] =
        orig.msgdata.getD [] := by
  let args := { catenateArgs 1 10 with nonlastSuffix := some [43, 43] }
  let orig := { smsCreate uuidClear with
    coding := dc8bit, msgdata := some (replicate 10 46) }
  exact ⟨args, orig, _, rfl, by decide, rfl, by decide, by decide⟩

/-- Thirty octets in parts of ten, of which the header takes six. -/
theorem smsSplit_whole_thirty :
    ∃ parts, smsSplit 31 (catenateArgs 1 10)
        { smsCreate uuidClear with coding := dc8bit, msgdata := some (replicate 30 46) }
        (fun _ => .random uuidClear) = some (.ok parts) ∧
      (parts.length ≠ toUlong 255 →
        (unframedPieces (catenateArgs 1 10) (parts.map fun part => part.msgdata.getD [])).flatten =
          replicate 30 46) := by
  obtain ⟨parts, hparts, hiff⟩ := @smsSplit_whole_iff (catenateArgs 1 10)
    { smsCreate uuidClear with coding := dc8bit, msgdata := some (replicate 30 46) }
    (fun _ => .random uuidClear) _ (.inl rfl) rfl (by decide) (by decide)
  exact ⟨parts, hparts, fun hmax => (hiff hmax).mpr (by decide)⟩

theorem octetPieces_even {room : Int} (hplain : args.splitChars = none)
    (hroom : cutRoom args orig = room) (heven : room % 2 = 0) (htext : text.length % 2 = 0) :
    ∀ piece ∈ octetPieces args orig fuel msgno text, piece.length % 2 = 0 := by
  induction fuel generalizing msgno text with
  | zero => exact fun piece hpiece => (not_mem_nil hpiece).elim
  | succ fuel ih =>
    have hpiece : (text.take room.toNat).length % 2 = 0 := by
      rw [length_take]
      omega
    have hrest : (text.drop room.toNat).length % 2 = 0 := by
      rw [length_drop]
      omega
    rw [octetPieces, hplain, hroom]
    split
    · intro piece hmem
      rwa [mem_singleton.mp hmem]
    · intro piece hmem
      rcases mem_cons.mp hmem with rfl | hmem
      · exact hpiece
      · exact ih hrest piece hmem

theorem framedPieces_catenateArgs (msgSequence : Nat) (maxOctets : Int) (pieces : List Octstr) :
    framedPieces (catenateArgs msgSequence maxOctets) pieces = pieces := by
  fun_induction framedPieces (catenateArgs msgSequence maxOctets) pieces <;>
    simp_all [framed, catenateArgs]

/-- **Characters of two octets** stay whole exactly if the room of a part is even
or one part is enough. -/
theorem smsSplit_even_iff (msgSequence : Nat) {maxOctets : Int} (hcoding : orig.coding = dcUcs2)
    (hdata : orig.msgdata = some text) (heven : text.length % 2 = 0) (hint : maxOctets < 2 ^ 31) :
    ∃ parts, smsSplit 255 (catenateArgs msgSequence maxOctets) orig entropy = some (.ok parts) ∧
      ((∀ part ∈ parts, (part.msgdata.getD []).length % 2 = 0) ↔
        maxPartLen (catenateArgs msgSequence maxOctets) orig % 2 = 0 ∨
          text.length ≤ maxPartLen (catenateArgs msgSequence maxOctets) orig) := by
  set args := catenateArgs msgSequence maxOctets with hargs
  have hcut : cutByOctets orig = true := decide_eq_true (.inr hcoding)
  have hpos : 0 ≤ maxPartLen args orig := by
    unfold maxPartLen
    dsimp only
    omega
  have heq : cutRoom args orig = maxPartLen args orig := by
    rw [cutRoom_eq hcut hint hpos]
    exact Int.sub_zero _
  obtain ⟨len, hlen⟩ := Int.eq_ofNat_of_zero_le hpos
  have hreturns : (splitLoop args orig entropy 255 0 orig).isSome :=
    splitLoop_terminates (by rfl) (by decide) orig
  obtain ⟨r, hr⟩ := Option.isSome_iff_exists.mp hreturns
  obtain ⟨raw, rfl⟩ := splitLoop_ok (heq.trans hlen) (by rw [hdata]; rfl) (.inl hcut) hr
  refine ⟨catenateParts args raw, by rw [smsSplit, hr]; rfl, ?_⟩
  have htexts := smsSplit_octets (heq.trans hlen) hcut hdata hr
  rw [framedPieces_catenateArgs] at htexts
  rw [← List.forall_mem_map (f := fun part : Sms => part.msgdata.getD [])
    (P := fun piece => piece.length % 2 = 0), htexts]
  constructor
  · intro hall
    by_contra hnot
    -- the first piece fills the odd room
    have hfirst : text.take (cutRoom args orig).toNat ∈ octetPieces args orig 255 0 text := by
      rw [octetPieces]
      split <;> exact mem_cons_self
    have hodd := hall _ hfirst
    rw [length_take] at hodd
    omega
  · rintro (hroom | hfits)
    · exact octetPieces_even rfl heq hroom heven
    · have hle : maxPartLen args orig < 2 ^ 31 := by
        rw [← heq]
        exact (toInt_range _).2
      have hlast : toInt text.length ≤ maxPartLen args orig := by
        rw [toInt_natCast (by omega)]
        exact hfits
      rw [octetPieces, if_pos (.inl hlast)]
      intro piece hmem
      rw [mem_singleton.mp hmem, length_take]
      have hwhole : text.length ≤ cutLength args.splitChars (cutRoom args orig).toNat text := by
        rw [cutLength_of_le (by omega)]
        omega
      omega

/-- The parts have room for eleven octets, so the sixth character is cut. -/
theorem smsSplit_cuts_character :
    ((smsSplit 255 (catenateArgs 1 20)
      { smsCreate uuidClear with
        coding := dcUcs2, udhdata := some [3, 0x70, 1, 0], msgdata := some (replicate 18 0) }
      fun _ => .random uuidClear).bind Except.toOption).map
        (·.map fun part => (part.msgdata.getD []).length) = some [11, 7] := by
  decide +kernel

/-- Three parts, of fourteen octets, fourteen and two. -/
theorem smsSplit_even_three_parts :
    ∃ parts, smsSplit 255 (catenateArgs 1 20)
        { smsCreate uuidClear with coding := dcUcs2, msgdata := some (replicate 30 0) }
        (fun _ => .random uuidClear) = some (.ok parts) ∧
      ∀ part ∈ parts, (part.msgdata.getD []).length % 2 = 0 := by
  obtain ⟨parts, hparts, hiff⟩ := @smsSplit_even_iff
    { smsCreate uuidClear with coding := dcUcs2, msgdata := some (replicate 30 0) }
    (fun _ => .random uuidClear) _ 1 20 rfl rfl (by decide) (by decide)
  exact ⟨parts, hparts, hiff.mpr (by decide)⟩

private theorem utf8_octets : ∀ c ∈ gsmAlphabet,
    (unicodeToUtf8 c).length = 1 ∨ ∀ octet ∈ unicodeToUtf8 c, 128 ≤ octet := by
  decide +kernel

variable {chars front back : List Nat}

theorem length_utf8Text_cons (c : Nat) (chars : List Nat) :
    (utf8Text (c :: chars)).length = (unicodeToUtf8 c).length + (utf8Text chars).length :=
  length_append

theorem utf8Text_boundary (h : InAlphabet chars) {k : Nat} {octet : UInt8} (hoctet : octet < 128)
    (hk : (utf8Text chars)[k]? = some octet) :
    ∃ front back, chars = front ++ back ∧ (utf8Text front).length = k + 1 := by
  induction chars generalizing k with
  | nil => cases hk
  | cons c chars ih =>
    have hchar := utf8_octets c (h c (by simp))
    have hcons : utf8Text (c :: chars) = unicodeToUtf8 c ++ utf8Text chars := rfl
    rw [hcons] at hk
    by_cases hin : k < (unicodeToUtf8 c).length
    · rw [List.getElem?_append_left hin] at hk
      have hone : (unicodeToUtf8 c).length = 1 := by
        rcases hchar with hone | hall
        · exact hone
        · exact absurd (hall octet (mem_of_getElem? hk)) (by simpa using hoctet)
      refine ⟨[c], chars, rfl, ?_⟩
      simp [utf8Text]
      omega
    · rw [List.getElem?_append_right (by omega)] at hk
      obtain ⟨front, back, rfl, hlen⟩ := ih h.tail hk
      refine ⟨c :: front, back, rfl, ?_⟩
      rw [length_utf8Text_cons]
      omega

theorem cutLength_utf8Text (h : InAlphabet (front ++ back))
    (hsplit : ∀ c ∈ splitChars.getD [], c < 128) :
    ∃ front' back', front = front' ++ back' ∧
      cutLength splitChars (utf8Text front).length (utf8Text (front ++ back)) =
        (utf8Text front').length := by
  have hwhole : ∃ front' back', front = front' ++ back' ∧
    (utf8Text front).length = (utf8Text front').length := ⟨front, [], by simp, rfl⟩
  cases splitChars with
  | none => exact hwhole
  | some splitChars =>
    cases hlast : lastSplitChar (utf8Text (front ++ back)) splitChars (utf8Text front).length with
    | none =>
      rw [cutLength, hlast, Option.getD_none, ite_self]
      exact hwhole
    | some k =>
      rw [cutLength, hlast, Option.getD_some]
      obtain ⟨hpos, hle, c, hc, hget⟩ := lastSplitChar_spec hlast
      rw [utf8Text_append, List.getElem?_append_left (by omega)] at hget
      obtain ⟨front', back', rfl, hlen⟩ := utf8Text_boundary h.left (hsplit c hc) hget
      split
      · exact ⟨front', back', rfl, by omega⟩
      · exact hwhole

theorem extractMsgdataPartByCoding_codes (h : InAlphabet chars)
    (hsplit : ∀ c ∈ splitChars.getD [], c < 128) (hdata : temp.msgdata = some (utf8Text chars))
    (hcut : cutByOctets temp = false) (hlen : len < 2 ^ 31) {r : Octstr × Octstr}
    (hr : extractMsgdataPartByCoding temp splitChars len = .ok r) :
    ∃ front back, chars = front ++ back ∧ (gsmText front).length ≤ len ∧
      r = (utf8Text front, utf8Text back) := by
  obtain ⟨front, back, htakes, htrunc⟩ := charsetGsmTruncate_text h len
  obtain rfl := htakes.split
  have hfits := htakes.fits
  have hutf8 := utf8Text_length_le h.left
  rw [extractMsgdataPartByCoding, hdata] at hr
  simp only [hcut, Bool.false_eq_true, if_false, charsetUtf8ToGsm_utf8Text h,
    charsetGsmToUtf8_gsmText h, htrunc, ok_bind, charsetGsmToUtf8_gsmText h.left] at hr
  by_cases hwrap : 2 ^ 31 ≤ (utf8Text front).length
  · have hneg : toInt (utf8Text front).length < 0 := toInt_neg_of_wrap (by omega) (by omega)
    rw [extractMsgdataPart_neg _ _ hneg] at hr
    cases hr
  · rw [toInt_natCast (by omega), extractMsgdataPart_nat] at hr
    obtain ⟨front', back', rfl, hcutLength⟩ := cutLength_utf8Text h hsplit
    rw [gsmText_append, length_append] at hfits
    refine ⟨front', back' ++ back, append_assoc _ _ _, by omega, ?_⟩
    rw [hcutLength, append_assoc, utf8Text_append, take_left, drop_left] at hr
    cases hr
    rfl

theorem splitLoop_codes (hlen : cutRoom args orig = len)
    (hsplit : ∀ c ∈ args.splitChars.getD [], c < 128) (h : InAlphabet chars)
    (hdata : temp.msgdata = some (utf8Text chars)) (hcut : cutByOctets temp = false)
    (hrun : splitLoop args orig entropy fuel msgno temp = some (.ok parts)) :
    ∀ part ∈ parts, ∃ front last, InAlphabet front ∧ (gsmText front).length ≤ len ∧
      part.msgdata = some (framed args last (utf8Text front)) := by
  induction fuel generalizing msgno temp chars parts with
  | zero => cases hrun
  | succ fuel ih =>
    have hint : cutRoom args orig < 2 ^ 31 := (toInt_range _).2
    obtain ⟨piece, rest, part, hextract, hmade, hcase⟩ := splitLoop_inv hrun
    rw [hlen] at hextract
    obtain ⟨front, back, rfl, hfits, hr⟩ :=
      extractMsgdataPartByCoding_codes h hsplit hdata hcut (by omega) hextract
    cases hr
    have hfirst : ∃ front last, InAlphabet front ∧ (gsmText front).length ≤ len ∧
        part.msgdata = some (framed args last (utf8Text front)) :=
      ⟨front, _, h.left, hfits, hmade.msgdata⟩
    rcases hcase with ⟨-, rfl⟩ | ⟨-, more, rfl, hmore⟩
    · simpa using hfirst
    · have hcut' : cutByOctets { temp with msgdata := some (utf8Text back) } = false := hcut
      exact forall_mem_cons.mpr ⟨hfirst, ih h.right rfl hcut' hmore⟩

def catenatedLen (orig : Sms) : Nat :=
  (if (orig.udhdata.getD []).length = 0 then 1 else (orig.udhdata.getD []).length) + catenateUdhLen

theorem length_udhdata_prepend {part : Sms} (h : part.udhdata = orig.udhdata)
    (partNo numMessages msgSequence : Nat) :
    ((prependCatenationUdh part partNo numMessages msgSequence).udhdata.getD []).length =
      catenatedLen orig := by
  unfold catenatedLen prependCatenationUdh catenatedUdh octstrSetChar catenationElement
  dsimp only [Option.getD_some]
  rw [h, length_set, length_append]
  split <;> rfl

theorem maxPartLen_eq (hpos : 0 < maxPartLen args orig) :
    (smsMsgdataLen orig ≤ roomForText args orig (orig.udhdata.getD []).length ∨
        args.catenate = false) ∧
      maxPartLen args orig = roomForText args orig (orig.udhdata.getD []).length ∨
    (args.catenate = true ∧ maxPartLen args orig = roomForText args orig (catenatedLen orig)) := by
  unfold maxPartLen at hpos ⊢
  unfold catenatedLen
  grind

theorem udhdata_catenateParts (hpos : 0 < maxPartLen args orig)
    (hrun : splitLoop args orig entropy (fuel + 1) 0 orig = some (.ok parts)) :
    ∃ udhLen : Nat, maxPartLen args orig = roomForText args orig udhLen ∧
      ∀ part ∈ catenateParts args parts, (part.udhdata.getD []).length ≤ udhLen := by
  have hparts := partOf_splitLoop hrun
  rcases maxPartLen_eq hpos with ⟨hshort, hroom⟩ | ⟨hcat, hroom⟩
  · refine ⟨_, hroom, ?_⟩
    have hsame : catenateParts args parts = parts := by
      obtain ⟨piece, rest, part, -, -, ⟨-, rfl⟩ | ⟨hgoes, -⟩⟩ := splitLoop_inv hrun
      · simp [catenateParts]
      · have hcat : args.catenate = false := by
          refine hshort.resolve_left fun h => ?_
          simp [isLastRound, hroom, h] at hgoes
        simp [catenateParts, hcat]
    rw [hsame]
    intro part hpart
    rw [(hparts part hpart).udhdata]
  · refine ⟨_, hroom, ?_⟩
    intro part hpart
    unfold catenateParts at hpart
    split at hpart
    · obtain ⟨i, hi, rfl⟩ := mem_mapIdx.mp hpart
      exact (length_udhdata_prepend (hparts _ (getElem_mem hi)).udhdata _ _ _).le
    · rw [(hparts part hpart).udhdata, catenatedLen]
      split <;> omega

def SeptetsWithin (maxOctets : Int) (part : Sms) : Prop :=
  (((charsetUtf8ToGsm (part.msgdata.getD [])).length * 7 + 7) / 8 +
    (part.udhdata.getD []).length : Nat) ≤ maxOctets

structure Frame (args : SplitArgs) (header footer suffix : List Nat) : Prop where
  alphabet : InAlphabet (header ++ footer ++ suffix)
  header : args.header.getD [] = utf8Text header
  footer : args.footer.getD [] = utf8Text footer
  suffix : args.nonlastSuffix.getD [] = utf8Text suffix

variable {header footer suffix : List Nat}

theorem Frame.codes (hframe : Frame args header footer suffix) (h : InAlphabet front)
    (last : Bool) :
    (charsetUtf8ToGsm (framed args last (utf8Text front))).length =
      (gsmText header).length + (gsmText front).length + (gsmText footer).length +
        if last then 0 else (gsmText suffix).length := by
  have hwhole : framed args last (utf8Text front) =
      utf8Text (header ++ front ++ footer ++ if last then [] else suffix) := by
    rw [framed, hframe.header, hframe.footer, hframe.suffix]
    cases last <;> simp
  have halphabet : InAlphabet (header ++ front ++ footer ++ if last then [] else suffix) := by
    intro c hc
    have hall := hframe.alphabet c
    have hfront := h c
    cases last <;> simp at hc hall <;> grind
  rw [hwhole, charsetUtf8ToGsm_utf8Text halphabet]
  cases last <;> simp [Nat.add_assoc]

theorem udhLen_le_of_room (hcut : cutByOctets orig = false) {udhLen : Nat}
    (hpos : 0 < roomForText args orig udhLen) : udhLen ≤ args.maxOctets := by
  by_contra hlong
  have hdiv : 0 ≤ (-((args.maxOctets - udhLen) * 8)).tdiv 7 :=
    Int.tdiv_nonneg (by omega) (by decide)
  rw [Int.neg_tdiv] at hdiv
  simp only [roomForText, hcut, Bool.false_eq_true, if_false] at hpos
  omega

theorem roomForText_septets (hframe : Frame args header footer suffix)
    (hcut : cutByOctets orig = false) {udhLen : Nat} (hle : udhLen ≤ args.maxOctets) :
    roomForText args orig udhLen = (args.maxOctets - udhLen) * 8 / 7 -
      ((utf8Text header).length + (utf8Text footer).length) := by
  simp only [roomForText, hcut, Bool.false_eq_true, if_false, hframe.header, hframe.footer]
  rw [Int.tdiv_eq_ediv_of_nonneg (by omega)]

theorem toInt_le {n : Int} (h : 0 ≤ n) : toInt n ≤ n := by
  rw [toInt, Int.bmod_def]
  split <;> omega

theorem septetsFit_of_codes_le (hframe : Frame args header footer suffix)
    (hsplit : ∀ c ∈ args.splitChars.getD [], c < 128) (hcut : cutByOctets orig = false)
    (hdata : orig.msgdata = some (utf8Text chars)) (h : InAlphabet chars)
    (hroom : (args.nonlastSuffix.getD []).length < maxPartLen args orig)
    (hcodes : (gsmText (header ++ footer ++ suffix)).length ≤
      (utf8Text (header ++ footer ++ suffix)).length)
    (hrun : splitLoop args orig entropy (fuel + 1) 0 orig = some (.ok parts)) :
    ∀ part ∈ catenateParts args parts, SeptetsWithin args.maxOctets part := by
  intro part hpart
  obtain ⟨udhLen, hlen, hudh⟩ := udhdata_catenateParts (by omega) hrun
  have hnonneg : 0 ≤ cutRoom args orig := by
    by_contra hneg
    obtain ⟨_, _, _, hextract, -⟩ := splitLoop_inv hrun
    rw [extractMsgdataPartByCoding_neg (by omega)] at hextract
    cases hextract
  obtain ⟨len, hcutRoom⟩ := Int.eq_ofNat_of_zero_le hnonneg
  have hle : cutRoom args orig ≤ maxPartLen args orig - (args.nonlastSuffix.getD []).length :=
    toInt_le (by omega)
  have hmem := List.mem_map_of_mem (f := Sms.msgdata) hpart
  rw [map_catenateParts fun _ _ _ _ => rfl] at hmem
  obtain ⟨raw, hraw, hsame⟩ := List.mem_map.mp hmem
  obtain ⟨front, last, hfront, hfits, htext⟩ :=
    splitLoop_codes hcutRoom hsplit h hdata hcut hrun raw hraw
  have hsum := hframe.codes hfront last
  have hlast : (if last then 0 else (gsmText suffix).length) ≤ (gsmText suffix).length := by
    split <;> omega
  have hshort := hudh part hpart
  rw [hframe.suffix] at hle
  simp only [gsmText_append, utf8Text_append, length_append] at hcodes
  have hpos : 0 < roomForText args orig udhLen := by omega
  have hmax := udhLen_le_of_room hcut hpos
  rw [roomForText_septets hframe hcut hmax] at hlen
  rw [SeptetsWithin, ← hsame, htext, Option.getD_some]
  omega

/-- With the given header, footer, suffix and UDH the parts of every text fit. -/
def PartsFit (args : SplitArgs) (udhdata : Option Octstr) : Prop :=
  ∀ (orig : Sms) (chars : List Nat) (fuel : Nat) (entropy : Nat → Entropy) (parts : List Sms),
    orig.coding = dc7bit → orig.udhdata = udhdata → orig.msgdata = some (utf8Text chars) →
    InAlphabet chars → (args.nonlastSuffix.getD []).length < maxPartLen args orig →
    smsSplit fuel args orig entropy = some (.ok parts) →
    ∀ part ∈ parts, SeptetsWithin args.maxOctets part

def longUdhLen (args : SplitArgs) (orig : Sms) : Nat :=
  if args.catenate then catenatedLen orig else (orig.udhdata.getD []).length

theorem udhdata_head_catenateParts {part : Sms} {more : List Sms} (hmore : more ≠ [])
    (hsame : part.udhdata = orig.udhdata) (hdata : part.msgdata = some text) :
    ∃ first ∈ catenateParts args (part :: more), first.msgdata = some text ∧
      (first.udhdata.getD []).length = longUdhLen args orig := by
  have hmany : (part :: more).length > 1 := by
    have := length_pos_iff.mpr hmore
    rw [length_cons]
    omega
  unfold catenateParts longUdhLen
  cases args.catenate with
  | true =>
    rw [if_pos ⟨rfl, hmany⟩, mapIdx_cons]
    exact ⟨_, mem_cons_self, hdata, length_udhdata_prepend hsame _ _ _⟩
  | false => exact ⟨part, mem_cons_self, hdata, by rw [hsame]; rfl⟩

theorem maxPartLen_long (hlong : roomForText args orig (orig.udhdata.getD []).length <
    smsMsgdataLen orig) (hpos : 0 < roomForText args orig (longUdhLen args orig)) :
    maxPartLen args orig = roomForText args orig (longUdhLen args orig) := by
  unfold maxPartLen
  unfold longUdhLen catenatedLen at *
  grind

theorem first_part_full (hlen : cutRoom args orig = len) (hsplit : args.splitChars = none)
    (hsmall : len < 2 ^ 29) (hcut : cutByOctets orig = false) (h : InAlphabet chars)
    (hone : OneCode chars) (hdata : orig.msgdata = some (utf8Text chars))
    (hlong : len < chars.length) (hgoes : isLastRound args orig 1 orig = false)
    (hrun : splitLoop args orig entropy (fuel + 1) 0 orig = some (.ok parts)) :
    ∃ part more front, parts = part :: more ∧ more ≠ [] ∧ InAlphabet front ∧
      (gsmText front).length = len ∧
      part.msgdata = some (framed args false (utf8Text front)) := by
  obtain ⟨piece, rest, part, hextract, hmade, ⟨hlast, -⟩ | ⟨-, more, rfl, hmore⟩⟩ :=
    splitLoop_inv hrun
  · cases hgoes.symm.trans hlast
  · obtain ⟨front, back, htakes, htext⟩ := extractMsgdataPartByCoding_text h hdata hcut hsmall
    rw [hsplit, hlen, htext] at hextract
    cases hextract
    have hpart := hmade.msgdata
    rw [hgoes] at hpart
    obtain rfl := htakes.split
    have hfront : OneCode front := fun c hc => hone c (mem_append_left back hc)
    have hcodes := hfront.length_gsmText
    have hfull := htakes.full_of_oneCode hone
    refine ⟨part, more, front, rfl, splitLoop_ne_nil hmore, h.left, ?_, hpart⟩
    rcases hfull with rfl | hfull
    · have hfits := htakes.fits
      simp only [append_nil] at hlong
      omega
    · omega

theorem codes_le_of_partsFit (hframe : Frame args header footer suffix)
    (hsplit : args.splitChars = none) (hmax : 2 ≤ args.maxMessages ∧ args.maxMessages < 2 ^ 31)
    (hoctets : args.maxOctets < 2 ^ 28) (hcoding : orig.coding = dc7bit)
    (hroom : (args.nonlastSuffix.getD []).length < roomForText args orig (longUdhLen args orig))
    (hfit : PartsFit args orig.udhdata) :
    (gsmText (header ++ footer ++ suffix)).length ≤
      (utf8Text (header ++ footer ++ suffix)).length := by
  -- one more `a` than fits into an undivided part
  obtain ⟨count, hcount⟩ : ∃ count : Nat,
    count = (roomForText args orig (orig.udhdata.getD []).length).toNat + 1 := ⟨_, rfl⟩
  let chars := replicate count 97
  let msg : Sms := { orig with msgdata := some (utf8Text chars) }
  have halphabet : InAlphabet chars := fun c hc => by
    rw [eq_of_mem_replicate hc]
    decide
  have hone : OneCode chars := fun c hc => by
    rw [eq_of_mem_replicate hc]
    rfl
  have hcut : cutByOctets msg = false := by
    simp [cutByOctets, msg, hcoding, dc7bit, dc8bit, dcUcs2]
  have hlongPos : 0 < roomForText args orig (longUdhLen args orig) := by omega
  have hmaxOctets := udhLen_le_of_room hcut hlongPos
  have hudh : (orig.udhdata.getD []).length ≤ longUdhLen args orig := by
    unfold longUdhLen catenatedLen
    grind
  have hlongRoom := roomForText_septets hframe hcut hmaxOctets
  have hwhole := roomForText_septets hframe hcut
    (show ((orig.udhdata.getD []).length : Int) ≤ args.maxOctets by omega)
  change roomForText args orig _ = _ at hlongRoom hwhole
  have hlen : smsMsgdataLen msg = count := by
    simp only [smsMsgdataLen, msg, hcoding, if_true]
    rw [charsetUtf8ToGsm_utf8Text halphabet, hone.length_gsmText, length_replicate]
    exact toInt_natCast (by omega)
  have hlong : roomForText args msg (msg.udhdata.getD []).length < smsMsgdataLen msg := by
    show roomForText args orig (orig.udhdata.getD []).length < _
    omega
  have hpart : maxPartLen args msg = roomForText args orig (longUdhLen args orig) :=
    maxPartLen_long hlong hlongPos
  have hcutRoom : cutRoom args msg = maxPartLen args msg - (args.nonlastSuffix.getD []).length :=
    toInt_of_fits (by omega) (by omega)
  obtain ⟨len, hnat⟩ := Int.eq_ofNat_of_zero_le (show 0 ≤ cutRoom args msg by omega)
  have hulong : toUlong args.maxMessages = (args.maxMessages.toNat - 1) + 1 := by
    unfold toUlong
    omega
  have hgoes : isLastRound args msg 1 msg = false := by
    simp only [isLastRound, hlen, decide_eq_false_iff_not]
    omega
  have hsome : (splitLoop args msg (fun _ => .random uuidClear)
      ((args.maxMessages.toNat - 1) + 1) 0 msg).isSome :=
    splitLoop_terminates (by omega) (by omega) msg
  obtain ⟨r, hr⟩ := Option.isSome_iff_exists.mp hsome
  obtain ⟨parts, rfl⟩ := splitLoop_ok hnat rfl (.inr (by omega)) hr
  obtain ⟨part, more, front, rfl, hmore, hfront, hcodes, htext⟩ := first_part_full hnat hsplit
    (by omega) hcut halphabet hone rfl (by rw [length_replicate]; omega) hgoes hr
  have hsame := (partOf_splitLoop hr part mem_cons_self).udhdata
  obtain ⟨first, hfirst, hdata, hheader⟩ :=
    @udhdata_head_catenateParts args orig _ _ _ hmore hsame htext
  have hfits := hfit msg chars _ _ _ hcoding rfl rfl halphabet (by omega)
    (by rw [smsSplit, hr]; rfl) first hfirst
  rw [SeptetsWithin, hdata, Option.getD_some, hframe.codes hfront] at hfits
  rw [hframe.suffix] at hcutRoom
  simp only [gsmText_append, utf8Text_append, length_append]
  simp only [Bool.false_eq_true, if_false] at hfits
  omega

/-- **Septets.** The parts of every text fit if header, footer and suffix have no
more codes than octets, and with room for a long text only then. -/
theorem smsSplit_septets_iff (hframe : Frame args header footer suffix)
    (hsplit : ∀ c ∈ args.splitChars.getD [], c < 128) (hcoding : orig.coding = dc7bit) :
    ((gsmText (header ++ footer ++ suffix)).length ≤
        (utf8Text (header ++ footer ++ suffix)).length → PartsFit args orig.udhdata) ∧
    (args.splitChars = none → 2 ≤ args.maxMessages ∧ args.maxMessages < 2 ^ 31 →
      args.maxOctets < 2 ^ 28 →
      (args.nonlastSuffix.getD []).length < roomForText args orig (longUdhLen args orig) →
      PartsFit args orig.udhdata →
      (gsmText (header ++ footer ++ suffix)).length ≤
        (utf8Text (header ++ footer ++ suffix)).length) := by
  constructor
  · intro hcodes msg chars fuel entropy parts hmsg hudh hdata h hroom hrun
    have hcut : cutByOctets msg = false := by
      simp [cutByOctets, hmsg, dc7bit, dc8bit, dcUcs2]
    obtain ⟨raw, hr, rfl⟩ := smsSplit_eq_some hrun
    cases fuel with
    | zero => cases hr
    | succ fuel => exact septetsFit_of_codes_le hframe hsplit hcut hdata h hroom hcodes hr
  · intro hnone hmax hoctets hroom hfit
    exact codes_le_of_partsFit hframe hnone hmax hoctets hcoding hroom hfit

/-- A bracket in the header is one octet and two codes. -/
theorem smsSplit_header_overflows :
    ¬ PartsFit { catenateArgs 1 7 with header := some [91] } none := by
  let msg : Sms := { smsCreate uuidClear with
    coding := dc7bit, msgdata := some (utf8Text (replicate 7 97)) }
  obtain ⟨r, hrun, parts, rfl, part, hpart, hlong⟩ :
      ∃ r, smsSplit 1 { catenateArgs 1 7 with header := some [91] } msg
        (fun _ => .random uuidClear) = some r ∧ ∃ parts, r = .ok parts ∧ ∃ part ∈ parts,
          7 < ((charsetUtf8ToGsm (part.msgdata.getD [])).length * 7 + 7) / 8 +
            (part.udhdata.getD []).length := by
    decide +kernel
  intro h
  have hfits : SeptetsWithin 7 part := h msg (replicate 7 97) 1 (fun _ => .random uuidClear)
    parts rfl rfl rfl (by decide) (by decide) hrun part hpart
  unfold SeptetsWithin at hfits
  omega

theorem smsSplit_septets_plain : PartsFit (catenateArgs 1 140) none :=
  (@smsSplit_septets_iff (catenateArgs 1 140) { smsCreate uuidClear with coding := dc7bit } [] [] []
    ⟨by decide, rfl, rfl, rfl⟩ (by decide) rfl).1 (by decide)

end Kannel
