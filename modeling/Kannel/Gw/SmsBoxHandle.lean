import Kannel.Gw.SmsBoxPermits
import Kannel.Gw.SmsBoxSend
import Kannel.Gw.SmsDcs

/-!
# Handling a sendsms request

`smsbox_req_handle` checks the fields of a request, makes one message and sends it to the
allowed receivers.
-/

namespace Kannel

structure HandleConf extends SendConf where
  immediateSendsmsReply : Bool := false
  sendsmsNumberChars : Octstr := ascii "0123456789 +-"
  whiteList : Option Numhash := none
  blackList : Option Numhash := none
  whiteListRegex : Option Regex := none
  blackListRegex : Option Regex := none
  globalSender : Option Octstr := none

/-- What the system is asked: the loop of `charset_convert`, the times, and the draws of
`uuid_generate`, the first of which is for the message itself. -/
structure HandleEnv where
  iconv : (charsetFrom charsetTo : Octstr) → Octstr → Option Octstr
  now : Int
  clock : Nat → Int
  entropy : Nat → Entropy

structure SendsmsFields where
  sender : Option Octstr := none
  toNumbers : Option Octstr := none
  text : Option Octstr := none
  charset : Option Octstr := none
  udh : Option Octstr := none
  smsc : Option Octstr := none
  mclass : Int := smsParamUndefined
  mwi : Int := smsParamUndefined
  coding : Int := smsParamUndefined
  compress : Int := smsParamUndefined
  validity : Int := smsParamUndefined
  deferred : Int := smsParamUndefined
  dlrMask : Int := smsParamUndefined
  dlrUrl : Option Octstr := none
  account : Option Octstr := none
  pid : Int := smsParamUndefined
  altDcs : Int := smsParamUndefined
  rpi : Int := smsParamUndefined
  receiver : Option (List Octstr) := none
  binfo : Option Octstr := none
  priority : Int := smsParamUndefined
  metaData : Option Octstr := none

def requestReceivers (r : SendsmsFields) : Except Failure (List Octstr) :=
  match r.receiver, r.toNumbers with
  | some receiver, _ => .ok receiver
  | none, some numbers => .ok (octstrSplitWords numbers)
  | none, none => .error .assertion

def gwlistAppendUnique (list : List Octstr) (item : Octstr) : List Octstr :=
  if item ∈ list then list else list ++ [item]

def outside (list : Option (Octstr → Bool)) (number : Octstr) : Bool := list.any fun l => !l number

def inside (list : Option (Octstr → Bool)) (number : Octstr) : Bool := list.any fun l => l number

def prefixNumbers (list : Octstr) (number : Octstr) : Bool :=
  (doesPrefixMatch (some list) (some number)).toOption = some true

def ruleViolations (conf : HandleConf) (t : UrlTranslation) (receiv : Octstr) : List Bool :=
  let cstr := octstrGetCstr (some receiv)
  [outside t.whiteList receiv, outside t.whiteListRegex cstr,
    inside t.blackList receiv, inside t.blackListRegex cstr,
    outside conf.whiteList receiv, outside conf.whiteListRegex cstr,
    inside conf.blackList receiv, inside conf.blackListRegex cstr,
    outside (t.allowedPrefix.map prefixNumbers) receiv, outside t.allowedPrefixRegex cstr,
    inside (t.deniedPrefix.map prefixNumbers) receiv, inside t.deniedPrefixRegex cstr]

structure Screened where
  allowed : List Octstr
  denied : List Octstr

def applyRule (receiv : Octstr) (lists : Screened) (violated : Bool) : Screened :=
  if violated then { lists with denied := gwlistAppendUnique lists.denied receiv }
  else { lists with allowed := gwlistAppendUnique lists.allowed receiv }

def screenReceiver (conf : HandleConf) (t : UrlTranslation) (lists : Screened) (receiv : Octstr) :
    Screened :=
  let legal := receiv.all ((octstrGetCstr (some conf.sendsmsNumberChars)).contains ·)
  let lists := if legal then lists else applyRule receiv lists true
  (ruleViolations conf t receiv).foldl (applyRule receiv) lists

def screenReceivers (conf : HandleConf) (t : UrlTranslation) (receivers : List Octstr) : Screened :=
  let lists := receivers.foldl (screenReceiver conf t) ⟨[], []⟩
  { lists with allowed := lists.allowed.filter (· ∉ lists.denied) }

def charsetConvertBy (iconv : Octstr → Octstr → Octstr → Option Octstr) (string : Octstr)
    (charsetFrom charsetTo : Octstr) : Option Octstr :=
  if string.length < 1 ∨ equalIgnoringCase charsetFrom charsetTo then some string
  else iconv charsetFrom charsetTo string

def smsCharsetProcessing (iconv : Octstr → Octstr → Octstr → Option Octstr)
    (charset : Option Octstr) (body : Octstr) (coding : Int) : Option Octstr :=
  if (charset.getD []).length = 0 then some body
  else if coding = dc7bit then
    charsetConvertBy iconv body (octstrGetCstr charset) (ascii "UTF-8")
  else if coding = dcUcs2 then
    charsetConvertBy iconv body (octstrGetCstr charset) (ascii "UTF-16BE")
  else some body

def rejectIf (wrong : Prop) [Decidable wrong] (text : String) : Except Octstr Unit :=
  if wrong then .error (ascii text) else .ok ()

def checkUdh (r : SendsmsFields) : Except Octstr Unit :=
  match r.udh with
  | none => .ok ()
  | some udh => do
    let announced : Int := match octstrGetChar udh 0 with | some c => c.toNat | none => -1
    rejectIf ((udh.length : Int) ≠ announced + 1) "UDH field misformed, rejected"
    rejectIf (udh.length > 140) "UDH field is too long, rejected"

def newFrom (conf : HandleConf) (t : UrlTranslation) (r : SendsmsFields) : Except Octstr Octstr :=
  match t.fakedSender, r.sender.filter (·.length > 0), t.defaultSender, conf.globalSender with
  | some sender, _, _, _ => .ok sender
  | none, some sender, _, _ => .ok sender
  | none, none, some sender, _ => .ok sender
  | none, none, none, some sender => .ok sender
  | none, none, none, none => .error (ascii "Sender missing and no global set, rejected")

def checkAccount (r : SendsmsFields) : Except Octstr (Option Octstr) :=
  match r.account.filter (·.length > 0) with
  | none => .ok none
  | some account =>
    if account.length ≤ 64 ∧ ∀ c ∈ ascii "[]\n\r", c ∉ account then .ok (some account)
    else .error (ascii "Account field misformed or too long, rejected")

def checkDlrUrl (r : SendsmsFields) : Except Octstr (Option Octstr) :=
  match r.dlrUrl.filter (·.length > 0) with
  | none => .ok (some [])
  | some dlrUrl =>
    if dlrUrl.length ≥ 8 ∧ (equalIgnoringCase (dlrUrl.take 7) (ascii "http://") ∨
        equalIgnoringCase (dlrUrl.take 8) (ascii "https://")) then .ok (some dlrUrl)
    else .error (ascii "DLR-URL field misformed, rejected")

def minutesFrom (now minutes : Int) : Int :=
  if minutes = smsParamUndefined then smsParamUndefined else toInt (minutes * 60) + now

def messagePriority (t : UrlTranslation) (priority : Int) : Int :=
  if t.forcedPriority ≠ smsParamUndefined then t.forcedPriority
  else if t.maxPriority ≠ smsParamUndefined ∧ priority > t.maxPriority then t.maxPriority
  else priority

def requestMessage (conf : HandleConf) (env : HandleEnv) (t : UrlTranslation) (r : SendsmsFields) :
    Except Octstr Sms := do
  let sender ← newFrom conf t r
  let account ← checkAccount r
  let dlrUrl ← checkDlrUrl r
  rejectIf (r.dlrMask < -1 ∨ r.dlrMask > 66) "DLR-Mask field misformed, rejected"
  rejectIf (r.mclass < -1 ∨ r.mclass > 3) "MClass field misformed, rejected"
  rejectIf (r.pid < -1 ∨ r.pid > 255) "PID field misformed, rejected"
  rejectIf (r.rpi < -1 ∨ r.rpi > 2) "RPI field misformed, rejected"
  rejectIf (r.altDcs < -1 ∨ r.altDcs > 1) "Alt-DCS field misformed, rejected"
  rejectIf (r.mwi < -1 ∨ r.mwi > 7) "MWI field misformed, rejected"
  rejectIf (r.coding < -1 ∨ r.coding > 2) "Coding field misformed, rejected"
  rejectIf (r.compress < -1 ∨ r.compress > 1) "Compress field misformed, rejected"
  let coding :=
    if r.coding ≠ smsParamUndefined then r.coding
    else if (r.udh.getD []).length ≠ 0 then dc8bit else dc7bit
  rejectIf (r.validity < -1) "Validity field misformed, rejected"
  rejectIf (r.deferred < -1) "Deferred field misformed, rejected"
  rejectIf (r.priority ≠ smsParamUndefined ∧ (r.priority < 0 ∨ r.priority > 3))
    "Priority field misformed, rejected"
  match smsCharsetProcessing env.iconv r.charset (r.text.getD []) coding with
  | none => .error (ascii "Charset or body misformed, rejected")
  | some msgdata =>
    return { smsCreate (uuidGenerate (env.entropy 0)) with
      service := t.name
      smsType := mtPush
      sender := some sender
      account := account
      msgdata := some msgdata
      udhdata := some (r.udh.getD [])
      binfo := r.binfo.filter (·.length > 0)
      dlrUrl := dlrUrl
      dlrMask := r.dlrMask
      mclass := r.mclass
      pid := r.pid
      rpi := r.rpi
      altDcs := r.altDcs
      mwi := r.mwi
      coding := coding
      compress := r.compress
      validity := minutesFrom env.now r.validity
      deferred := minutesFrom env.now r.deferred
      priority := messagePriority t r.priority
      smscId := t.forcedSmsc.or (r.smsc.or t.defaultSmsc)
      metaData := r.metaData }

def sendToAll (conf : SendConf) (env : HandleEnv) (t : UrlTranslation) :
    (i drawn counter : Nat) → Sms → List Octstr → Except Failure (List (Octstr × Sent))
  | _, _, _, _, [] => .ok []
  | i, drawn, counter, msg, receiv :: allowed => do
    let sent ← sendMessage conf (some t) (fun round => env.entropy (drawn + round)) counter
      { msg with receiver := some receiv, time := env.clock i }
    let rest ← sendToAll conf env t (i + 1) (drawn + sent.drawn) sent.counter sent.msg allowed
    return (receiv, sent) :: rest

structure Handled where
  status : Int
  answer : Octstr
  stored : Option Uuid
  written : List Sms

def httpBadRequest : Int := 400

def httpInternalServerError : Int := 500

def namedReceivers (label : String) (receivers : List Octstr) : Octstr :=
  ascii label ++ receivers.flatMap fun receiv => ascii " " ++ octstrGetCstr (some receiv)

def sentAnswer (denied : List Octstr) (ret : Int) : Octstr :=
  ascii "Sent." ++ (if denied = [] then [] else namedReceivers " Denied receivers are:" denied) ++
    if ret > 1 then ascii " Message splits: " ++ formatDecimal ret else []

def failedAnswer (receivers : Nat) (failed : List Octstr) : Octstr :=
  ascii "Sending failed." ++
    if receivers > 1 then namedReceivers " Failed receivers are:" failed else []

def checkedRequest (conf : HandleConf) (env : HandleEnv) (t : UrlTranslation) (r : SendsmsFields)
    (receivers : List Octstr) : Except Octstr (Screened × Sms) := do
  checkUdh r
  let lists := screenReceivers conf t receivers
  rejectIf (lists.allowed = [])
    "Number(s) has/have been denied by white/black lists, or allowed/denied rules."
  let msg ← requestMessage conf env t r
  return (lists, msg)

def smsboxReqHandle (conf : HandleConf) (env : HandleEnv) (t : UrlTranslation) (counter : Nat)
    (r : SendsmsFields) : Except Failure Handled := do
  let receivers ← requestReceivers r
  match checkedRequest conf env t r receivers with
  | .error text => return ⟨httpBadRequest, text, none, []⟩
  | .ok (lists, msg) =>
    let stored := if conf.immediateSendsmsReply then none else some msg.id
    let sents ← sendToAll conf.toSendConf env t 0 0 counter msg lists.allowed
    let written := sents.flatMap (·.2.written)
    let failed := (sents.filter (·.2.count = -1)).map (·.1)
    if failed = [] then
      let ret := (sents.getLast?.map (·.2.count)).getD 0
      return ⟨httpAccepted, sentAnswer lists.denied ret, stored, written⟩
    else return ⟨httpInternalServerError, failedAnswer receivers.length failed, stored, written⟩

def plainEnv : HandleEnv where
  iconv _ _ string := some string
  now := 0
  clock _ := 0
  entropy n := .random ⟨List.replicate 16 (UInt8.ofNat n), by simp⟩

def plainUser : UrlTranslation := { type := .sendsms }

def requestTo (receivers : String) : SendsmsFields :=
  { sender := some (ascii "5"), toNumbers := some (ascii receivers), text := some (ascii "hi") }

variable {conf : HandleConf} {env : HandleEnv} {t : UrlTranslation} {counter : Nat}
  {r : SendsmsFields} {handled : Handled}

theorem rejectIf_eq_ok {wrong : Prop} [Decidable wrong] {text : String} {u : Unit}
    (h : rejectIf wrong text = .ok u) : ¬ wrong := by
  unfold rejectIf at h
  split_ifs at h with hwrong
  exact hwrong

variable {msg : Sms}

theorem requestMessage_ok (h : requestMessage conf env t r = .ok msg) :
    msg.id = uuidGenerate (env.entropy 0) ∧ msg.smsType = mtPush := by
  iterate 14 obtain ⟨_, -, h⟩ := bind_eq_ok_iff.mp h
  split at h
  · cases h
  · cases h
    exact ⟨rfl, rfl⟩

variable {receivers : List Octstr} {lists : Screened}

theorem checkedRequest_ok (h : checkedRequest conf env t r receivers = .ok (lists, msg)) :
    lists = screenReceivers conf t receivers ∧ lists.allowed ≠ [] ∧
      msg.id = uuidGenerate (env.entropy 0) ∧ msg.smsType = mtPush := by
  obtain ⟨_, -, h⟩ := bind_eq_ok_iff.mp h
  obtain ⟨_, hallowed, h⟩ := bind_eq_ok_iff.mp h
  obtain ⟨msg', hmsg, h⟩ := bind_eq_ok_iff.mp h
  cases h
  exact ⟨rfl, rejectIf_eq_ok hallowed, requestMessage_ok hmsg⟩

theorem smsboxReqHandle_cases (h : smsboxReqHandle conf env t counter r = .ok handled) :
    ∃ receivers, requestReceivers r = .ok receivers ∧
      ((∃ text, checkedRequest conf env t r receivers = .error text ∧
          handled = ⟨httpBadRequest, text, none, []⟩) ∨
        ∃ lists msg sents, checkedRequest conf env t r receivers = .ok (lists, msg) ∧
          sendToAll conf.toSendConf env t 0 0 counter msg lists.allowed = .ok sents ∧
          handled.stored = (if conf.immediateSendsmsReply then none else some msg.id) ∧
          handled.written = sents.flatMap (·.2.written) ∧
          handled.status =
            if ∃ p ∈ sents, p.2.count = -1 then httpInternalServerError else httpAccepted) := by
  obtain ⟨receivers, hreceivers, h⟩ := bind_eq_ok_iff.mp h
  refine ⟨receivers, hreceivers, ?_⟩
  split at h
  · rename_i text hchecked
    cases h
    exact .inl ⟨text, hchecked, rfl⟩
  · rename_i lists msg hchecked
    obtain ⟨sents, hsents, h⟩ := bind_eq_ok_iff.mp h
    refine .inr ⟨lists, msg, sents, hchecked, hsents, ?_⟩
    have hfailed : (sents.filter (·.2.count = -1)).map (·.1) = [] ↔
        ¬ ∃ p ∈ sents, p.2.count = -1 := by
      simp [List.filter_eq_nil_iff]
    by_cases hnone : (sents.filter (·.2.count = -1)).map (·.1) = []
    · rw [if_pos hnone] at h
      cases h
      rw [if_neg (hfailed.mp hnone)]
      exact ⟨rfl, rfl, rfl⟩
    · rw [if_neg hnone] at h
      cases h
      rw [if_pos (not_not.mp fun hne => hnone (hfailed.mpr hne))]
      exact ⟨rfl, rfl, rfl⟩

theorem smsboxReqHandle_rejected {text : Octstr} (hreceivers : requestReceivers r = .ok receivers)
    (hchecked : checkedRequest conf env t r receivers = .error text) :
    smsboxReqHandle conf env t counter r = .ok ⟨httpBadRequest, text, none, []⟩ := by
  rw [smsboxReqHandle, hreceivers, ok_bind, hchecked]
  rfl

theorem smsboxReqHandle_returns {sents : List (Octstr × Sent)}
    (hreceivers : requestReceivers r = .ok receivers)
    (hchecked : checkedRequest conf env t r receivers = .ok (lists, msg))
    (hsents : sendToAll conf.toSendConf env t 0 0 counter msg lists.allowed = .ok sents) :
    ∃ handled, smsboxReqHandle conf env t counter r = .ok handled := by
  rw [smsboxReqHandle, hreceivers, ok_bind, hchecked]
  dsimp only
  rw [hsents, ok_bind]
  split
  · exact ⟨_, rfl⟩
  · exact ⟨_, rfl⟩

section SendToAll
variable {sendConf : SendConf} {i drawn : Nat} {allowed : List Octstr}
  {sents : List (Octstr × Sent)}

theorem sendToAll_cons {receiv : Octstr}
    (h : sendToAll sendConf env t i drawn counter msg (receiv :: allowed) = .ok sents) :
    ∃ sent rest,
      sendMessage sendConf (some t) (fun round => env.entropy (drawn + round)) counter
        { msg with receiver := some receiv, time := env.clock i } = .ok sent ∧
      sendToAll sendConf env t (i + 1) (drawn + sent.drawn) sent.counter sent.msg allowed =
        .ok rest ∧
      sents = (receiv, sent) :: rest := by
  obtain ⟨sent, hsent, h⟩ := bind_eq_ok_iff.mp h
  obtain ⟨rest, hrest, h⟩ := bind_eq_ok_iff.mp h
  cases h
  exact ⟨sent, rest, hsent, hrest, rfl⟩

theorem sendToAll_denied (hmax : maxMsgs (some t) = 0)
    (h : sendToAll sendConf env t i drawn counter msg allowed = .ok sents) :
    ∀ p ∈ sents, SentNothing p.2 := by
  induction allowed generalizing i drawn counter msg sents with
  | nil =>
    cases h
    simp
  | cons receiv allowed ih =>
    obtain ⟨sent, rest, hsent, hrest, rfl⟩ := sendToAll_cons h
    have hnothing : SentNothing sent := by
      rcases (sendMessage_ids hsent).2 with ⟨hnothing, -⟩ | ⟨hne, -⟩
      · exact hnothing
      · exact absurd hmax hne
    intro p hp
    rcases List.mem_cons.mp hp with rfl | hp
    · exact hnothing
    · exact ih hrest p hp

theorem sendToAll_sends (hmax : maxMsgs (some t) ≠ 0) (hpush : msg.smsType = mtPush)
    (h : sendToAll sendConf env t i drawn counter msg allowed = .ok sents) :
    sents.map Prod.fst = allowed ∧
      ∀ p ∈ sents, ∃ drawn m, m.id = msg.id ∧
        SentParts (some t) (fun round => env.entropy (drawn + round)) m p.2 := by
  induction allowed generalizing i drawn counter msg sents with
  | nil =>
    cases h
    simp
  | cons receiv allowed ih =>
    obtain ⟨sent, rest, hsent, hrest, rfl⟩ := sendToAll_cons h
    obtain ⟨hsame, hdropped | ⟨-, hparts⟩⟩ := sendMessage_ids hsent
    · rcases hdropped.2 with hzero | hreply
      · exact absurd hzero hmax
      · exact absurd (hpush.symm.trans hreply) (by decide)
    · obtain ⟨hfst, hall⟩ := ih (hsame.smsType.trans hpush) hrest
      refine ⟨by rw [List.map_cons, hfst], fun p hp => ?_⟩
      rcases List.mem_cons.mp hp with rfl | hp
      · exact ⟨drawn, { msg with receiver := some receiv, time := env.clock i }, rfl, hparts⟩
      · obtain ⟨drawn', m, hid, hsent'⟩ := hall p hp
        exact ⟨drawn', m, hid.trans hsame.id, hsent'⟩

theorem SentParts.id_mem {trans : Option UrlTranslation} {entropy : Nat → Entropy} {m : Sms}
    {sent : Sent} (h : SentParts trans entropy m sent) : m.id ∈ sent.written.map Sms.id := by
  rw [h.ids]
  split_ifs <;> simp [partIds]

end SendToAll
end Kannel
