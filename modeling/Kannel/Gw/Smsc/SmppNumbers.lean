import Kannel.Gw.Smsc.SmppMsgRoundTrip
import Kannel.Gw.Smsc.SmppWindow
import Kannel.Gwlib.Utils

/-!
# The numbers of an SMPP link

Sequence numbers have 32 bits on the wire and 64 in the driver, message ids are in one of two
bases, and a reference of 16 bits goes into a header with eight.
-/

namespace Kannel
open List

namespace Smpp

variable {maxPendingSubmits : Nat} [NeZero maxPendingSubmits] {size : Nat} [NeZero size]

def wireNumber (packed : Octstr) : Nat := BigEndian.value ((packed.drop 12).take 4)

theorem wireNumber_pack {tlvs : SmppTlvs} {smscId : Option Octstr} (pdu : SmppPdu size)
    (htype : pdu.type = .submitSm) :
    wireNumber (smppPduPack tlvs smscId pdu) = pdu.int .sequenceNumber % 2 ^ 32 := by
  have hseq : (fixLengths pdu).int .sequenceNumber = pdu.int .sequenceNumber := by
    simp [fixLengths, htype, PduType.mandatory, headerFields, PduType.body, fixLength,
      SmppPdu.setInt]
  have hfour : ∀ k : Nat, (encodedInteger k 4).length = 4 := BigEndian.length_octets 4
  have hdrop : ∀ (n k : Nat) (rest : Octstr),
      (encodedInteger k 4 ++ rest).drop (4 + n) = rest.drop n := by
    intro n k rest
    rw [← drop_drop, drop_left' (hfour k)]
  change BigEndian.value ((drop (4 + (4 + (4 + 0))) _).take 4) = _
  simp only [smppPduPack, packMandatories, PduType.mandatory, headerFields, cons_append,
    flatMap_cons, packMandatory, append_assoc, Nat.cast_ofNat]
  rw [hdrop, hdrop, hdrop, drop_zero, hseq]
  exact BigEndian.value_octets 4 _

theorem seqKey_mod_iff {seq : Nat} (hseq : seq < 2 ^ 64) :
    seqKey (seq % 2 ^ 32) = seqKey seq ↔ seq < 2 ^ 32 := by
  rw [seqKey, seqKey, formatDecimal_injective.eq_iff, toLong, toLong, Int.bmod_def, Int.bmod_def]
  omega

def Matched (s s' : Smpp maxPendingSubmits) (key : Octstr) (sent : SmppSent) : Prop :=
  (∃ r : Report, s'.reports = r :: s.reports ∧ r.msg.ref = sent.msg.ref) ∧
    ∀ key', dictGet s'.sentMsgs key' = if key' = key then none else dictGet s.sentMsgs key'

theorem Answered.matched_iff {s s' : Smpp maxPendingSubmits} {key key' : Octstr} {sent : SmppSent}
    (h : Answered s key' s') (hget : dictGet s.sentMsgs key = some sent) :
    Matched s s' key sent ↔ key' = key := by
  constructor
  · intro hmatched
    have hgone := hmatched.2 key
    by_contra hne
    cases h with
    | unknown => simp [hget] at hgone
    | known => simp [settled, report, removeSent, dictGet_dictRemove, Ne.symm hne, hget] at hgone
  · intro heq
    subst heq
    cases h with
    | unknown hnone => cases hnone.symm.trans hget
    | @known other throttling r hsome hr =>
      cases hsome.symm.trans hget
      refine ⟨⟨r, rfl, hr⟩, fun key => ?_⟩
      exact dictGet_dictRemove s.sentMsgs key' key

theorem handlePdu_answered {conf : SessionConf} {now : Int} {written : Bool}
    {s : Smpp maxPendingSubmits} {resp : SmppPdu size} (hactive : s.status = .active)
    (htype : resp.type = .submitSmResp ∨ resp.type = .genericNack) :
    Answered s (seqKey (resp.int .sequenceNumber)) (s.handlePdu conf now written resp).2 := by
  rcases htype with htype | htype
  · simp only [handlePdu, htype, hactive, if_true]
    exact submitSmResp_answered
  · simp only [handlePdu, htype, hactive, isActive]
    exact genericNack_answered

/-- **An answer is matched to its message for the first 2 ^ 32 numbers**: only four octets of
the number come back. -/
theorem handlePdu_matches_iff (conf : SessionConf) (now : Int) (written : Bool) (tlvs : SmppTlvs)
    (smscId : Option Octstr) (s : Smpp maxPendingSubmits) (sent : SmppSent)
    (pdu resp : SmppPdu size) (hactive : s.status = .active) (hpdu : pdu.type = .submitSm)
    (hseq : pdu.int .sequenceNumber < 2 ^ 64)
    (hsent : dictGet s.sentMsgs (seqKey (pdu.int .sequenceNumber)) = some sent)
    (htype : resp.type = .submitSmResp ∨ resp.type = .genericNack)
    (hresp : resp.int .sequenceNumber = wireNumber (smppPduPack tlvs smscId pdu)) :
    Matched s (s.handlePdu conf now written resp).2 (seqKey (pdu.int .sequenceNumber)) sent ↔
      pdu.int .sequenceNumber < 2 ^ 32 := by
  rw [(handlePdu_answered hactive htype).matched_iff hsent, hresp, wireNumber_pack pdu hpdu,
    seqKey_mod_iff hseq]

def waitingFor (seq : Nat) : Smpp 10 :=
  { smppCreate 10 with
    status := .active
    pendingSubmits := 1
    sentMsgs := dictPut (smppCreate 10).sentMsgs (seqKey seq) (some ⟨0, ⟨0, plainSms⟩⟩) }

theorem waitingFor_get (seq : Nat) :
    dictGet (waitingFor seq).sentMsgs (seqKey seq) = some ⟨0, ⟨0, plainSms⟩⟩ := by
  rw [waitingFor, dictGet_dictPut, if_pos rfl]

theorem handlePdu_matches_first :
    Matched (waitingFor 1) ((waitingFor 1).handlePdu plainConf 0 true
      (smppPduCreate .submitSmResp 1)).2 (seqKey 1) ⟨0, ⟨0, plainSms⟩⟩ :=
  (handlePdu_matches_iff plainConf 0 true ⟨none, none⟩ none (waitingFor 1) ⟨0, ⟨0, plainSms⟩⟩
    (smppPduCreate .submitSm 1) (smppPduCreate .submitSmResp 1) rfl rfl (by decide)
    (waitingFor_get 1) (.inl rfl) (wireNumber_pack (smppPduCreate .submitSm 1) rfl).symm).mpr
      (by decide)

theorem handlePdu_misses_wrapped :
    wireNumber (smppPduPack ⟨none, none⟩ none (smppPduCreate .submitSm (2 ^ 32))) = 0 ∧
      ¬ Matched (waitingFor (2 ^ 32)) ((waitingFor (2 ^ 32)).handlePdu plainConf 0 true
        (smppPduCreate .submitSmResp 0)).2 (seqKey (2 ^ 32)) ⟨0, ⟨0, plainSms⟩⟩ := by
  refine ⟨?_, fun hmatched => ?_⟩
  · decide
  · rw [(handlePdu_answered rfl (.inl rfl)).matched_iff (waitingFor_get _)] at hmatched
    exact absurd hmatched (by decide)

def reportedIdOf (smppMsgIdType : Int) (msgid : Octstr) : Octstr :=
  if smppMsgIdType = -1 then msgid
  else
    let base := if fieldBits smppMsgIdType &&& 0x02 ≠ 0 ∨ ¬ msgid.all isdigit then 16 else 10
    formatDecimal (toUlong (strtoll (octstrGetCstr (some msgid)) base))

structure Writes (base : Nat) (text : Octstr) (n : Nat) : Prop where
  ne_nil : text ≠ []
  digits : ∀ c ∈ text, isDigitOf base c = true
  value : digitsValue base text = n

def idBase (smppMsgIdType : Int) (bit : BitVec 32) : Nat :=
  if fieldBits smppMsgIdType &&& bit ≠ 0 then 16 else 10

def idKey (n : Nat) : Octstr := formatDecimal (min (2 ^ 63 - 1) n : Nat)

section
variable {base n : Nat} {text : Octstr}

theorem Writes.strtoll (hbase : base ≤ 16) (h : Writes base text n) :
    strtoll (octstrGetCstr (some text)) base = (min (2 ^ 63 - 1) n : Nat) := by
  have hcstr : octstrGetCstr (some text) = text :=
    octstrGetCstr_eq_iff.mpr fun hzero => (isDigitOf_not_sign (h.digits 0 hzero)).2.2 rfl
  have hsign : splitSign ((text ++ []).dropWhile isspace) = _ :=
    splitSign_of_digits h.ne_nil h.digits
  have hmark : stripHexMark base (text ++ []) = _ :=
    stripHexMark_digits hbase h.digits (by simp) h.ne_nil
  have htake : (text ++ []).takeWhile (isDigitOf base) = _ :=
    (takeWhile_digits h.digits (by simp)).1
  rw [append_nil] at hsign hmark htake
  simp only [Smpp.strtoll, hcstr, hsign, hmark, htake, h.value]
  omega

theorem Writes.all_isdigit (h : Writes 10 text n) : text.all isdigit = true := by
  rw [all_eq_true]
  intro c hmem
  have hc := h.digits c hmem
  unfold isDigitOf digitValue at hc
  split_ifs at hc with hdigit hupper hlower
  · simpa [isdigit] using hdigit
  · have hle : 65 ≤ c.toNat := hupper.1
    exact absurd (of_decide_eq_true hc) (by omega)
  · have hle : 97 ≤ c.toNat := hlower.1
    exact absurd (of_decide_eq_true hc) (by omega)

theorem key_of_writes {bits bit : BitVec 32}
    (h : Writes (if bits &&& bit ≠ 0 then 16 else 10) text n) :
    formatDecimal (toUlong (strtoll (octstrGetCstr (some text))
      (if bits &&& bit ≠ 0 ∨ ¬ text.all isdigit then 16 else 10))) = idKey n := by
  have hbase : (if bits &&& bit ≠ 0 ∨ ¬ text.all isdigit then 16 else 10) =
      if bits &&& bit ≠ 0 then 16 else 10 := by
    by_cases hbit : bits &&& bit ≠ 0
    · rw [if_pos hbit, if_pos (.inl hbit)]
    · rw [if_neg hbit] at h
      rw [if_neg hbit, if_neg (by simpa [h.all_isdigit] using hbit)]
  rw [hbase, h.strtoll (by split <;> omega), toUlong]
  congr 1
  omega

end

theorem idKey_inj {n m : Nat} : idKey n = idKey m ↔ min (2 ^ 63 - 1) n = min (2 ^ 63 - 1) m := by
  rw [idKey, idKey, formatDecimal_inj]

theorem messageIdOf_writes {t : Int} {resp : Octstr} {n : Nat} (ht : t ≠ -1)
    (h : Writes (idBase t 0x01) resp n) : messageIdOf t resp = idKey n := by
  rw [messageIdOf, if_neg ht]
  exact key_of_writes h

theorem reportedIdOf_writes {t : Int} {report : Octstr} {n : Nat} (ht : t ≠ -1)
    (h : Writes (idBase t 0x02) report n) : reportedIdOf t report = idKey n := by
  rw [reportedIdOf, if_neg ht]
  exact key_of_writes h

/-- **The keys of a message and of its report agree, and differ from others except at the top.**
-/
theorem messageIds_distinct_iff (t : Int) (ht : 0 ≤ t ∧ t ≤ 3) (n m : Nat)
    (hn : n < 2 ^ 64) (hm : m < 2 ^ 64) (resp report other : Octstr)
    (hresp : Writes (idBase t 0x01) resp n) (hreport : Writes (idBase t 0x02) report n)
    (hother : Writes (idBase t 0x02) other m) :
    (messageIdOf t resp = reportedIdOf t report ∧
        (n ≠ m → messageIdOf t resp ≠ reportedIdOf t other)) ↔
      (n ≠ m → n < 2 ^ 63 - 1 ∨ m < 2 ^ 63 - 1) := by
  have hne : t ≠ -1 := by omega
  rw [messageIdOf_writes hne hresp, reportedIdOf_writes hne hreport, reportedIdOf_writes hne hother]
  simp only [true_and, ne_eq, idKey_inj]
  omega

theorem messageIds_distinct_mixed :
    messageIdOf 1 (ascii "00fF") = reportedIdOf 1 (ascii "255") ∧
      messageIdOf 1 (ascii "00fF") ≠ reportedIdOf 1 (ascii "256") := by
  have hkeys := (messageIds_distinct_iff 1 (by decide) 255 256 (by decide) (by decide)
    (ascii "00fF") (ascii "255") (ascii "256") ⟨by decide, by decide, by decide⟩
    ⟨by decide, by decide, by decide⟩ ⟨by decide, by decide, by decide⟩).mpr
    fun _ => .inl (by decide)
  exact ⟨hkeys.1, hkeys.2 (by decide)⟩

theorem messageIds_saturate :
    messageIdOf 0 (ascii "9223372036854775807") = reportedIdOf 0 (ascii "9223372036854775808") := by
  decide +kernel

end Smpp

section Segments
variable {size : Nat} [NeZero size] {pdu : SmppPdu size} {env : SmppEnv} {smpp : SmppLink}
  {msg msg' : Sms}

structure IsSegment (smpp : SmppLink) (pdu : SmppPdu size) : Prop where
  version : pdu.type = .deliverSm → smpp.version > 0x33
  ref : 0 ≤ pdu.tlvInt .sarMsgRefNum ∧ pdu.tlvInt .sarMsgRefNum < 2 ^ 16
  total : 0 < pdu.tlvInt .sarTotalSegments ∧ pdu.tlvInt .sarTotalSegments < 2 ^ 8
  seqnum : 0 < pdu.tlvInt .sarSegmentSeqnum ∧ pdu.tlvInt .sarSegmentSeqnum < 2 ^ 8

def Converts (env : SmppEnv) (smpp : SmppLink) (pdu : SmppPdu size) (msg : Sms) : Prop :=
  pduToMsg env smpp pdu = .ok msg ∨ dataSmToMsg env smpp pdu = .ok msg

def segmentUdh (pdu : SmppPdu size) : Octstr :=
  5 :: catenationElement (pdu.tlvInt .sarSegmentSeqnum).toNat (pdu.tlvInt .sarTotalSegments).toNat
    (pdu.tlvInt .sarMsgRefNum).toNat

theorem IsSegment.hasSar (h : IsSegment smpp pdu) : hasSar pdu = true := by
  simp [Kannel.hasSar, h.ref.1, h.seqnum.1, h.total.1]

theorem handleMoDcs_udhdata (altCharset : Option Octstr) (dcs : BitVec 32) (esmClass : Nat) :
    (handleMoDcs env msg altCharset dcs esmClass).udhdata = msg.udhdata := by
  unfold handleMoDcs fromCharset
  repeat' split
  all_goals rfl

theorem udhdata_of_content (h : msg.content = msg'.content) : msg.udhdata = msg'.udhdata :=
  congrArg Content.udhdata h

theorem segmentUdh_of_steps {base catenated cut : Sms} {present : Bool} (hpresent : present = true)
    (hbase : base.udhdata = none) (hcatenated : sarToUdh present pdu base = .ok catenated)
    (hcut : takeUdh (pdu.int .esmClass) catenated = .ok cut)
    (hrest : msg.udhdata = (handleMoDcs env (dcsToFields cut (dataCodingOf pdu)).2 smpp.altCharset
      (dataCodingOf pdu) (pdu.int .esmClass)).udhdata) :
    msg.udhdata = some (segmentUdh pdu) := by
  rw [sarToUdh, if_pos hpresent] at hcatenated
  split at hcatenated
  · cases hcatenated
  · rename_i hbits
    cases hcatenated
    rw [takeUdh, if_neg hbits] at hcut
    cases hcut
    rw [hrest, handleMoDcs_udhdata, dcsToFields_udhdata, prependCatenationUdh, hbase]
    rfl

theorem Converts.udhdata (hpdu : IsSegment smpp pdu) (h : Converts env smpp pdu msg) :
    msg.udhdata = some (segmentUdh pdu) := by
  rcases h with h | h
  · have htype : pdu.type = .deliverSm := by
      obtain ⟨_, hassert, -⟩ := bind_eq_ok_iff.mp h
      by_contra hne
      rw [assertType, if_neg hne] at hassert
      cases hassert
    obtain ⟨-, base, catenated, cut, hbase, hcatenated, hcut, hcontent⟩ := content_of_pduToMsg h
    refine segmentUdh_of_steps ?_ ?_ hcatenated hcut (udhdata_of_content hcontent)
    · simp [hpdu.version htype, hpdu.hasSar]
    · exact congrArg Content.udhdata hbase
  · obtain ⟨-, -, h⟩ := bind_eq_ok_iff.mp h
    obtain ⟨base, hbase, h⟩ := bind_eq_ok_iff.mp h
    obtain ⟨catenated, hcatenated, h⟩ := bind_eq_ok_iff.mp h
    obtain ⟨cut, hcut, h⟩ := bind_eq_ok_iff.mp h
    refine segmentUdh_of_steps hpdu.hasSar ?_ hcatenated hcut
      (udhdata_of_content (tlvToMetaData_content h))
    exact udhdata_of_content (convertAddrs_content hbase)

theorem octet_eq_iff {a b : Int} (ha : 0 ≤ a) (hb : 0 ≤ b) :
    UInt8.ofNat a.toNat = UInt8.ofNat b.toNat ↔ a % 256 = b % 256 := by
  rw [← UInt8.toNat_inj, UInt8.toNat_ofNat', UInt8.toNat_ofNat']
  omega

theorem segmentUdh_eq_iff {p q : SmppPdu size} (hp : IsSegment smpp p) (hq : IsSegment smpp q) :
    segmentUdh p = segmentUdh q ↔
      p.tlvInt .sarMsgRefNum % 256 = q.tlvInt .sarMsgRefNum % 256 ∧
        p.tlvInt .sarTotalSegments = q.tlvInt .sarTotalSegments ∧
        p.tlvInt .sarSegmentSeqnum = q.tlvInt .sarSegmentSeqnum := by
  obtain ⟨-, ⟨hpref, -⟩, ⟨hptotal, hptotal'⟩, hpseq, hpseq'⟩ := hp
  obtain ⟨-, ⟨hqref, -⟩, ⟨hqtotal, hqtotal'⟩, hqseq, hqseq'⟩ := hq
  simp only [segmentUdh, catenationElement, cons.injEq, true_and, and_true]
  rw [octet_eq_iff hpref hqref, octet_eq_iff hptotal.le hqtotal.le, octet_eq_iff hpseq.le hqseq.le]
  omega

/-- **Segments of different messages are told apart by the low octet of the reference only.** -/
theorem segmentUdh_distinct_iff (env₁ env₂ : SmppEnv) (smpp : SmppLink) (p q : SmppPdu size)
    (msg₁ msg₂ : Sms) (hp : IsSegment smpp p) (hq : IsSegment smpp q)
    (h₁ : Converts env₁ smpp p msg₁) (h₂ : Converts env₂ smpp q msg₂) :
    (msg₁.udhdata = msg₂.udhdata ↔
        p.tlvInt .sarMsgRefNum = q.tlvInt .sarMsgRefNum ∧
          p.tlvInt .sarTotalSegments = q.tlvInt .sarTotalSegments ∧
          p.tlvInt .sarSegmentSeqnum = q.tlvInt .sarSegmentSeqnum) ↔
      (p.tlvInt .sarMsgRefNum % 256 = q.tlvInt .sarMsgRefNum % 256 →
        p.tlvInt .sarTotalSegments = q.tlvInt .sarTotalSegments →
        p.tlvInt .sarSegmentSeqnum = q.tlvInt .sarSegmentSeqnum →
          p.tlvInt .sarMsgRefNum = q.tlvInt .sarMsgRefNum) := by
  rw [h₁.udhdata hp, h₂.udhdata hq, Option.some_inj, segmentUdh_eq_iff hp hq]
  constructor
  · intro h href htotal hseq
    exact (h.mp ⟨href, htotal, hseq⟩).1
  · intro h
    constructor
    · intro ⟨href, htotal, hseq⟩
      exact ⟨h href htotal hseq, htotal, hseq⟩
    · intro ⟨href, htotal, hseq⟩
      exact ⟨by rw [href], htotal, hseq⟩

end Segments

def segmentPdu (ref : Int) : SmppPdu 2048 :=
  ((((smppPduCreate .deliverSm 1).setStr .destinationAddr (some (ascii "1"))).setTlvInt
    .sarMsgRefNum ref).setTlvInt .sarTotalSegments 2).setTlvInt .sarSegmentSeqnum 1

theorem segmentPdu_converts {ref : Int}
    (h : ∃ msg, pduToMsg idleEnv plainLink (segmentPdu ref) = .ok msg ∧ True) :
    ∃ msg, Converts idleEnv plainLink (segmentPdu ref) msg := by
  obtain ⟨msg, hmsg, -⟩ := h
  exact ⟨msg, .inl hmsg⟩

theorem segmentPdu_isSegment {ref : Int} (h : 0 ≤ ref ∧ ref < 2 ^ 16) :
    IsSegment plainLink (segmentPdu ref) :=
  ⟨fun _ => by decide, h, (by decide : (0 : Int) < 2 ∧ (2 : Int) < 2 ^ 8),
    (by decide : (0 : Int) < 1 ∧ (1 : Int) < 2 ^ 8)⟩

theorem segmentUdh_distinct_first :
    ∃ msg₁ msg₂, Converts idleEnv plainLink (segmentPdu 0) msg₁ ∧
      Converts idleEnv plainLink (segmentPdu 1) msg₂ ∧ msg₁.udhdata ≠ msg₂.udhdata := by
  obtain ⟨msg₁, h₁⟩ : ∃ msg, Converts idleEnv plainLink (segmentPdu 0) msg :=
    segmentPdu_converts (by decide +kernel)
  obtain ⟨msg₂, h₂⟩ : ∃ msg, Converts idleEnv plainLink (segmentPdu 1) msg :=
    segmentPdu_converts (by decide +kernel)
  have hdistinct := (segmentUdh_distinct_iff idleEnv idleEnv plainLink _ _ msg₁ msg₂
    (segmentPdu_isSegment (by decide)) (segmentPdu_isSegment (by decide)) h₁ h₂).mpr
    fun h => absurd h (by decide)
  exact ⟨msg₁, msg₂, h₁, h₂, fun hsame => absurd (hdistinct.mp hsame).1 (by decide)⟩

theorem segmentUdh_confused :
    ∃ msg₁ msg₂, Converts idleEnv plainLink (segmentPdu 0) msg₁ ∧
      Converts idleEnv plainLink (segmentPdu 256) msg₂ ∧ msg₁.udhdata = msg₂.udhdata := by
  obtain ⟨msg₁, h₁⟩ : ∃ msg, Converts idleEnv plainLink (segmentPdu 0) msg :=
    segmentPdu_converts (by decide +kernel)
  obtain ⟨msg₂, h₂⟩ : ∃ msg, Converts idleEnv plainLink (segmentPdu 256) msg :=
    segmentPdu_converts (by decide +kernel)
  refine ⟨msg₁, msg₂, h₁, h₂, ?_⟩
  rw [h₁.udhdata (segmentPdu_isSegment (by decide)), h₂.udhdata (segmentPdu_isSegment (by decide))]
  decide

end Kannel
