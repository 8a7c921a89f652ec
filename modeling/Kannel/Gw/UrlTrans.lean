import Kannel.Gw.Msg
import Kannel.Gwlib.Utils

/-!
# URL translations

`check_allowed_translation` is a sequence of early returns; the expressions and number lists it
asks are arbitrary predicates here.
-/

namespace Kannel

inductive TransType
  | getUrl | postUrl | postXml | text | file | execute | sendsms
  deriving DecidableEq, Repr

abbrev Regex := Octstr → Bool

abbrev Numhash := Octstr → Bool

/-- The defaults are the values of variables the group does not set. -/
structure UrlTranslation where
  type : TransType
  pattern : Octstr := []
  prefixCut : Option Octstr := none
  suffixCut : Option Octstr := none
  fakedSender : Option Octstr := none
  defaultSender : Option Octstr := none
  maxMessages : Int := 1
  concatenation : Bool := false
  splitChars : Option Octstr := none
  splitSuffix : Option Octstr := none
  omitEmpty : Bool := false
  header : Option Octstr := none
  footer : Option Octstr := none
  altCharset : Option Octstr := none
  acceptedSmsc : Option (List Octstr) := none
  acceptedAccount : Option (List Octstr) := none
  name : Option Octstr := none
  username : Option Octstr := none
  password : Option Octstr := none
  apiToken : Option Octstr := none
  forcedSmsc : Option Octstr := none
  forcedPriority : Int := msgParamUndefined
  maxPriority : Int := msgParamUndefined
  defaultSmsc : Option Octstr := none
  allowIp : Option Octstr := none
  denyIp : Option Octstr := none
  allowedPrefix : Option Octstr := none
  deniedPrefix : Option Octstr := none
  allowedRecvPrefix : Option Octstr := none
  deniedRecvPrefix : Option Octstr := none
  whiteList : Option Numhash := none
  blackList : Option Numhash := none
  acceptXKannelHeaders : Bool := false
  stripKeyword : Bool := false
  sendSender : Bool := false
  dlrUrl : Option Octstr := none
  dlrMask : Int := -1
  acceptedSmscRegex : Option Regex := none
  acceptedAccountRegex : Option Regex := none
  allowedPrefixRegex : Option Regex := none
  deniedPrefixRegex : Option Regex := none
  allowedReceiverPrefixRegex : Option Regex := none
  deniedReceiverPrefixRegex : Option Regex := none
  whiteListRegex : Option Regex := none
  blackListRegex : Option Regex := none

def gwRegexMatchPre (preg : Regex) : Option Octstr → Except Failure Bool
  | some os => .ok (preg (octstrGetCstr (some os)))
  | none => .error .outside

def numhashFindNumber (table : Numhash) : Option Octstr → Bool
  | some nro => table nro
  | none => false

def prefixRule (list : Octstr) (number : Option Octstr) : Except Failure Bool :=
  doesPrefixMatch (some list) number

section Checks
variable {ρ : Type} (rule : ρ → Option Octstr → Except Failure Bool)

def checkAccepted (accepted : Option (List Octstr)) (id : Option Octstr) : Except Failure Bool :=
  match id, accepted with
  | some id, some list => .ok (list.contains id)
  | _, _ => .ok true

def checkAcceptedRegex (accepted : Option Regex) (id : Option Octstr) : Except Failure Bool :=
  match id, accepted with
  | some id, some preg => gwRegexMatchPre preg (some id)
  | _, _ => .ok true

def checkOnlyAllowed (allowed denied : Option ρ) (number : Option Octstr) : Except Failure Bool :=
  match allowed, denied with
  | some allowed, none => rule allowed number
  | _, _ => .ok true

def checkOnlyDenied (allowed denied : Option ρ) (number : Option Octstr) : Except Failure Bool :=
  match allowed, denied with
  | none, some denied => do return !(← rule denied number)
  | _, _ => .ok true

def checkAllowedAndDenied (allowed denied : Option ρ) (number : Option Octstr) :
    Except Failure Bool :=
  match allowed, denied with
  | some allowed, some denied => do
    if ← rule allowed number then return true
    return !(← rule denied number)
  | _, _ => .ok true

attribute [simp] checkAllowedAndDenied

def checkWhite (list : Option ρ) (number : Option Octstr) : Except Failure Bool :=
  match list with
  | some list => rule list number
  | none => .ok true

def checkBlack (list : Option ρ) (number : Option Octstr) : Except Failure Bool :=
  match list with
  | some list => do return !(← rule list number)
  | none => .ok true

end Checks

def checkDeniedReceiverRegex (allowed denied : Option Regex) (receiver : Option Octstr) :
    Except Failure Bool :=
  match allowed, denied with
  | none, some denied => gwRegexMatchPre denied receiver
  | _, _ => .ok true

attribute [simp] checkDeniedReceiverRegex

def passesAll : List (Except Failure Bool) → Except Failure Bool
  | [] => .ok true
  | check :: rest => do
    if ← check then passesAll rest
    else return false

def translationChecks (t : UrlTranslation) (smsc sender receiver account : Option Octstr) :
    List (Except Failure Bool) :=
  [checkAccepted t.acceptedSmsc smsc,
    checkAcceptedRegex t.acceptedSmscRegex smsc,
    checkAccepted t.acceptedAccount account,
    checkAcceptedRegex t.acceptedAccountRegex account,
    checkOnlyAllowed prefixRule t.allowedPrefix t.deniedPrefix sender,
    checkOnlyAllowed gwRegexMatchPre t.allowedPrefixRegex t.deniedPrefixRegex sender,
    checkOnlyDenied prefixRule t.allowedPrefix t.deniedPrefix sender,
    checkOnlyDenied gwRegexMatchPre t.allowedPrefixRegex t.deniedPrefixRegex sender,
    checkOnlyAllowed prefixRule t.allowedRecvPrefix t.deniedRecvPrefix receiver,
    checkOnlyAllowed gwRegexMatchPre t.allowedReceiverPrefixRegex t.deniedReceiverPrefixRegex
      receiver,
    checkOnlyDenied prefixRule t.allowedRecvPrefix t.deniedRecvPrefix receiver,
    checkDeniedReceiverRegex t.allowedReceiverPrefixRegex t.deniedReceiverPrefixRegex receiver,
    checkWhite (fun list number => .ok (numhashFindNumber list number)) t.whiteList sender,
    checkWhite gwRegexMatchPre t.whiteListRegex sender,
    checkBlack (fun list number => .ok (numhashFindNumber list number)) t.blackList sender,
    checkBlack gwRegexMatchPre t.blackListRegex sender,
    checkAllowedAndDenied prefixRule t.allowedPrefix t.deniedPrefix sender,
    checkAllowedAndDenied gwRegexMatchPre t.allowedPrefixRegex t.deniedPrefixRegex sender]

def checkAllowedTranslation (t : UrlTranslation) (smsc sender receiver account : Option Octstr) :
    Except Failure Bool :=
  passesAll (translationChecks t smsc sender receiver account)

def PrefixMatches (list : Octstr) : Option Octstr → Prop
  | some number =>
    ∃ entry ∈ prefixEntries (octstrGetCstr (some list)), entry <+: octstrGetCstr (some number)
  | none => False

def RegexMatches (preg : Regex) : Option Octstr → Prop
  | some number => preg (octstrGetCstr (some number)) = true
  | none => False

section Rules
variable {ρ : Type} (Matches : ρ → Option Octstr → Prop)

def RulesReject (allowed denied : Option ρ) (number : Option Octstr) : Prop :=
  match allowed, denied with
  | none, none => False
  | some allowed, none => ¬ Matches allowed number
  | none, some denied => Matches denied number
  | some allowed, some denied => Matches denied number ∧ ¬ Matches allowed number

def OnlyAllowedRejects (allowed denied : Option ρ) (number : Option Octstr) : Prop :=
  denied = none ∧ ∃ rule, allowed = some rule ∧ ¬ Matches rule number

def OnlyDeniedRejects (allowed denied : Option ρ) (number : Option Octstr) : Prop :=
  allowed = none ∧ ∃ rule, denied = some rule ∧ Matches rule number

def BothReject (allowed denied : Option ρ) (number : Option Octstr) : Prop :=
  ∃ a d, allowed = some a ∧ denied = some d ∧ Matches d number ∧ ¬ Matches a number

attribute [simp] OnlyAllowedRejects OnlyDeniedRejects BothReject

theorem rulesReject_iff (allowed denied : Option ρ) (number : Option Octstr) :
    RulesReject Matches allowed denied number ↔
      OnlyAllowedRejects Matches allowed denied number ∨
        OnlyDeniedRejects Matches allowed denied number ∨
        BothReject Matches allowed denied number := by
  cases allowed with
  | none => cases denied <;> simp [RulesReject]
  | some a => cases denied <;> simp [RulesReject]

end Rules

def IdRejected (accepted : Option (List Octstr)) (acceptedRegex : Option Regex)
    (id : Option Octstr) : Prop :=
  ∃ os, id = some os ∧
    ((∃ list, accepted = some list ∧ os ∉ list) ∨
      ∃ preg, acceptedRegex = some preg ∧ ¬ RegexMatches preg (some os))

def ListsReject (t : UrlTranslation) (sender : Option Octstr) : Prop :=
  (∃ list, t.whiteList = some list ∧ numhashFindNumber list sender = false) ∨
    (∃ preg, t.whiteListRegex = some preg ∧ ¬ RegexMatches preg sender) ∨
    (∃ list, t.blackList = some list ∧ numhashFindNumber list sender = true) ∨
    ∃ preg, t.blackListRegex = some preg ∧ RegexMatches preg sender

/-- **The rules of a translation.**  Sender and receiver each have a pair of
prefix lists and a pair of expressions, read alike. -/
structure TranslationAllows (t : UrlTranslation) (smsc sender receiver account : Option Octstr) :
    Prop where
  smsc : ¬ IdRejected t.acceptedSmsc t.acceptedSmscRegex smsc
  account : ¬ IdRejected t.acceptedAccount t.acceptedAccountRegex account
  senderPrefix : ¬ RulesReject PrefixMatches t.allowedPrefix t.deniedPrefix sender
  senderRegex : ¬ RulesReject RegexMatches t.allowedPrefixRegex t.deniedPrefixRegex sender
  receiverPrefix : ¬ RulesReject PrefixMatches t.allowedRecvPrefix t.deniedRecvPrefix receiver
  receiverRegex :
    ¬ RulesReject RegexMatches t.allowedReceiverPrefixRegex t.deniedReceiverPrefixRegex receiver
  lists : ¬ ListsReject t sender

def Stops : List (Except Failure Bool) → Prop
  | [] => False
  | check :: rest => (∃ failure, check = .error failure) ∨ check = .ok true ∧ Stops rest

structure CheckDecides (check : Except Failure Bool) (Rejects : Prop) : Prop where
  passes : check = .ok true → ¬ Rejects
  rejects : check = .ok false → Rejects

theorem passesAll_iff {checks : List (Except Failure Bool)} {rejections : List Prop}
    (hdecide : List.Forall₂ CheckDecides checks rejections) :
    (¬ Stops checks →
        ∃ verdict, passesAll checks = .ok verdict ∧ (verdict = true ↔ rejections.Forall Not)) ∧
      (Stops checks → ∃ failure, passesAll checks = .error failure) := by
  induction hdecide with
  | nil => simp [Stops, passesAll]
  | @cons check Rejects rest rejections hcheck hrest ih =>
    cases hc : check with
    | error failure => simp [Stops, passesAll]
    | ok passed =>
      cases passed with
      | false =>
        have hrej := hcheck.rejects hc
        simp [Stops, passesAll, pure, Except.pure, List.forall_cons, hrej]
      | true =>
        have hpass := hcheck.passes hc
        simpa [Stops, passesAll, List.forall_cons, hpass] using ih

section Deciding
variable {ρ : Type} {rule : ρ → Option Octstr → Except Failure Bool}
  {Matches : ρ → Option Octstr → Prop}

def Answers (rule : ρ → Option Octstr → Except Failure Bool)
    (Matches : ρ → Option Octstr → Prop) : Prop :=
  ∀ r number verdict, rule r number = .ok verdict → (verdict = true ↔ Matches r number)

theorem prefixRule_answers : Answers prefixRule PrefixMatches := by
  intro list number verdict h
  cases number with
  | none => simp [prefixRule, doesPrefixMatch] at h
  | some number =>
    rw [prefixRule, doesPrefixMatch_some, Except.ok.injEq] at h
    rw [← h, decide_eq_true_iff]
    rfl

theorem gwRegexMatchPre_answers : Answers gwRegexMatchPre RegexMatches := by
  intro preg number verdict h
  cases number with
  | none => simp [gwRegexMatchPre] at h
  | some number =>
    rw [gwRegexMatchPre, Except.ok.injEq] at h
    rw [← h]
    rfl

theorem numhash_answers :
    Answers (fun list number => .ok (numhashFindNumber list number))
      (fun list number => numhashFindNumber list number = true) := by
  intro list number verdict h
  rw [← Except.ok.inj h]

theorem not_eq_ok_iff (check : Except Failure Bool) (verdict : Bool) :
    (do return !(← check)) = (.ok verdict : Except Failure Bool) ↔ check = .ok (!verdict) := by
  cases check with
  | error failure => simp
  | ok passed => cases passed <;> cases verdict <;> simp [pure, Except.pure]

section Answering
variable (hrule : Answers rule Matches)
include hrule

theorem Answers.decides (r : ρ) (number : Option Octstr) :
    CheckDecides (rule r number) (¬ Matches r number) := by
  constructor
  · intro h
    exact not_not.mpr ((hrule _ _ _ h).mp rfl)
  · intro h
    exact mt (hrule _ _ _ h).mpr (by decide)

theorem Answers.decides_not (r : ρ) (number : Option Octstr) :
    CheckDecides (do return !(← rule r number)) (Matches r number) := by
  constructor
  · intro h
    exact mt (hrule _ _ _ ((not_eq_ok_iff _ _).mp h)).mpr (by decide)
  · intro h
    exact (hrule _ _ _ ((not_eq_ok_iff _ _).mp h)).mp rfl

section
variable (allowed denied : Option ρ) (number : Option Octstr)

theorem checkOnlyAllowed_decides :
    CheckDecides (checkOnlyAllowed rule allowed denied number)
      (OnlyAllowedRejects Matches allowed denied number) := by
  match allowed, denied with
  | none, _ => constructor <;> simp [checkOnlyAllowed]
  | some _, some _ => constructor <;> simp [checkOnlyAllowed]
  | some allowed, none =>
    simpa [checkOnlyAllowed] using hrule.decides allowed number

theorem checkOnlyDenied_decides :
    CheckDecides (checkOnlyDenied rule allowed denied number)
      (OnlyDeniedRejects Matches allowed denied number) := by
  match allowed, denied with
  | some _, _ => constructor <;> simp [checkOnlyDenied]
  | none, none => constructor <;> simp [checkOnlyDenied]
  | none, some denied =>
    simpa [checkOnlyDenied] using hrule.decides_not denied number

theorem checkAllowedAndDenied_decides :
    CheckDecides (checkAllowedAndDenied rule allowed denied number)
      (BothReject Matches allowed denied number) := by
  match allowed, denied with
  | none, _ => constructor <;> simp
  | some _, none => constructor <;> simp
  | some allowed, some denied =>
    cases hallowed : rule allowed number with
    | error failure => constructor <;> simp [hallowed]
    | ok passed =>
      have ha := hrule _ _ _ hallowed
      cases passed with
      | true =>
        have hmatch := ha.mp rfl
        constructor <;>
          simp [hallowed, hmatch, pure, Except.pure]
      | false =>
        have hmatch := mt ha.mpr (by decide)
        have hdenied : checkAllowedAndDenied rule (some allowed) (some denied) number =
            (do return !(← rule denied number)) := by
          simp [hallowed]
        rw [hdenied]
        simpa [hmatch] using hrule.decides_not denied number

end

theorem checkWhite_decides (list : Option ρ) (number : Option Octstr) :
    CheckDecides (checkWhite rule list number) (∃ r, list = some r ∧ ¬ Matches r number) := by
  cases list with
  | none => constructor <;> simp [checkWhite]
  | some list => simpa [checkWhite] using hrule.decides list number

theorem checkBlack_decides (list : Option ρ) (number : Option Octstr) :
    CheckDecides (checkBlack rule list number) (∃ r, list = some r ∧ Matches r number) := by
  cases list with
  | none => constructor <;> simp [checkBlack]
  | some list => simpa [checkBlack] using hrule.decides_not list number

end Answering
end Deciding

variable (accepted : Option (List Octstr))

theorem checkAccepted_decides (id : Option Octstr) :
    CheckDecides (checkAccepted accepted id)
      (∃ os, id = some os ∧ ∃ list, accepted = some list ∧ os ∉ list) := by
  cases id with
  | none => constructor <;> simp [checkAccepted]
  | some id =>
    cases accepted with
    | none => constructor <;> simp [checkAccepted]
    | some list => constructor <;> simp [checkAccepted]

theorem checkAcceptedRegex_decides (accepted : Option Regex) (id : Option Octstr) :
    CheckDecides (checkAcceptedRegex accepted id)
      (∃ os, id = some os ∧ ∃ preg, accepted = some preg ∧ ¬ RegexMatches preg (some os)) := by
  cases id with
  | none => constructor <;> simp [checkAcceptedRegex]
  | some id =>
    cases accepted with
    | none => constructor <;> simp [checkAcceptedRegex]
    | some preg =>
      constructor <;> simp [checkAcceptedRegex, gwRegexMatchPre, RegexMatches]

@[simp]
def LoneDeniedMisses (allowed denied : Option Regex) (receiver : Option Octstr) : Prop :=
  allowed = none ∧ ∃ preg, denied = some preg ∧ ¬ RegexMatches preg receiver

theorem checkDeniedReceiverRegex_decides (allowed denied : Option Regex)
    (receiver : Option Octstr) :
    CheckDecides (checkDeniedReceiverRegex allowed denied receiver)
      (LoneDeniedMisses allowed denied receiver) := by
  match allowed, denied with
  | some _, _ => constructor <;> simp
  | none, none => constructor <;> simp
  | none, some denied =>
    simpa using
      gwRegexMatchPre_answers.decides denied receiver

def codeRejections (t : UrlTranslation) (smsc sender receiver account : Option Octstr) :
    List Prop :=
  [∃ os, smsc = some os ∧ ∃ list, t.acceptedSmsc = some list ∧ os ∉ list,
    ∃ os, smsc = some os ∧ ∃ preg, t.acceptedSmscRegex = some preg ∧ ¬ RegexMatches preg (some os),
    ∃ os, account = some os ∧ ∃ list, t.acceptedAccount = some list ∧ os ∉ list,
    ∃ os, account = some os ∧ ∃ preg, t.acceptedAccountRegex = some preg ∧
      ¬ RegexMatches preg (some os),
    OnlyAllowedRejects PrefixMatches t.allowedPrefix t.deniedPrefix sender,
    OnlyAllowedRejects RegexMatches t.allowedPrefixRegex t.deniedPrefixRegex sender,
    OnlyDeniedRejects PrefixMatches t.allowedPrefix t.deniedPrefix sender,
    OnlyDeniedRejects RegexMatches t.allowedPrefixRegex t.deniedPrefixRegex sender,
    OnlyAllowedRejects PrefixMatches t.allowedRecvPrefix t.deniedRecvPrefix receiver,
    OnlyAllowedRejects RegexMatches t.allowedReceiverPrefixRegex t.deniedReceiverPrefixRegex
      receiver,
    OnlyDeniedRejects PrefixMatches t.allowedRecvPrefix t.deniedRecvPrefix receiver,
    LoneDeniedMisses t.allowedReceiverPrefixRegex t.deniedReceiverPrefixRegex receiver,
    ∃ list, t.whiteList = some list ∧ ¬ numhashFindNumber list sender = true,
    ∃ preg, t.whiteListRegex = some preg ∧ ¬ RegexMatches preg sender,
    ∃ list, t.blackList = some list ∧ numhashFindNumber list sender = true,
    ∃ preg, t.blackListRegex = some preg ∧ RegexMatches preg sender,
    BothReject PrefixMatches t.allowedPrefix t.deniedPrefix sender,
    BothReject RegexMatches t.allowedPrefixRegex t.deniedPrefixRegex sender]

theorem translationChecks_decide (t : UrlTranslation)
    (smsc sender receiver account : Option Octstr) :
    List.Forall₂ CheckDecides (translationChecks t smsc sender receiver account)
      (codeRejections t smsc sender receiver account) := by
  have hrule := prefixRule_answers
  have hregex := gwRegexMatchPre_answers
  have hnumhash := numhash_answers
  exact .cons (checkAccepted_decides _ _) <| .cons (checkAcceptedRegex_decides _ _) <|
    .cons (checkAccepted_decides _ _) <| .cons (checkAcceptedRegex_decides _ _) <|
    .cons (checkOnlyAllowed_decides hrule _ _ _) <|
    .cons (checkOnlyAllowed_decides hregex _ _ _) <|
    .cons (checkOnlyDenied_decides hrule _ _ _) <|
    .cons (checkOnlyDenied_decides hregex _ _ _) <|
    .cons (checkOnlyAllowed_decides hrule _ _ _) <|
    .cons (checkOnlyAllowed_decides hregex _ _ _) <|
    .cons (checkOnlyDenied_decides hrule _ _ _) <|
    .cons (checkDeniedReceiverRegex_decides _ _ _) <|
    .cons (checkWhite_decides hnumhash _ _) <| .cons (checkWhite_decides hregex _ _) <|
    .cons (checkBlack_decides hnumhash _ _) <| .cons (checkBlack_decides hregex _ _) <|
    .cons (checkAllowedAndDenied_decides hrule _ _ _) <|
    .cons (checkAllowedAndDenied_decides hregex _ _ _) .nil

def SharedRuleRejects (t : UrlTranslation) (smsc sender receiver account : Option Octstr) : Prop :=
  IdRejected t.acceptedSmsc t.acceptedSmscRegex smsc ∨
    IdRejected t.acceptedAccount t.acceptedAccountRegex account ∨
    RulesReject PrefixMatches t.allowedPrefix t.deniedPrefix sender ∨
    RulesReject RegexMatches t.allowedPrefixRegex t.deniedPrefixRegex sender ∨
    OnlyAllowedRejects PrefixMatches t.allowedRecvPrefix t.deniedRecvPrefix receiver ∨
    OnlyDeniedRejects PrefixMatches t.allowedRecvPrefix t.deniedRecvPrefix receiver ∨
    OnlyAllowedRejects RegexMatches t.allowedReceiverPrefixRegex t.deniedReceiverPrefixRegex
      receiver ∨
    ListsReject t sender

/-- Without a lone denied expression no pair of two rules rejects; with one, it does not match
and the pair of prefix lists rejects in its place. -/
def ReceiverPairsAgree (t : UrlTranslation) (receiver : Option Octstr) : Prop :=
  let bothPrefix := BothReject PrefixMatches t.allowedRecvPrefix t.deniedRecvPrefix receiver
  match t.allowedReceiverPrefixRegex, t.deniedReceiverPrefixRegex with
  | none, some denied => ¬ RegexMatches denied receiver ∧ bothPrefix
  | some allowed, some denied =>
    ¬ (RegexMatches denied receiver ∧ ¬ RegexMatches allowed receiver) ∧ ¬ bothPrefix
  | _, none => ¬ bothPrefix

theorem idRejected_iff (acceptedRegex : Option Regex) (id : Option Octstr) :
    IdRejected accepted acceptedRegex id ↔
      (∃ os, id = some os ∧ ∃ list, accepted = some list ∧ os ∉ list) ∨
        ∃ os, id = some os ∧ ∃ preg, acceptedRegex = some preg ∧ ¬ RegexMatches preg (some os) := by
  simp only [IdRejected, and_or_left, exists_or]

section
variable (t : UrlTranslation) (smsc sender receiver account : Option Octstr)

theorem codeRejections_iff :
    (codeRejections t smsc sender receiver account).Forall Not ↔
      ¬ SharedRuleRejects t smsc sender receiver account ∧
        ¬ LoneDeniedMisses t.allowedReceiverPrefixRegex t.deniedReceiverPrefixRegex receiver := by
  simp only [codeRejections, List.forall_cons, List.Forall, SharedRuleRejects, idRejected_iff,
    rulesReject_iff, ListsReject, not_or, Bool.not_eq_true]
  tauto

theorem translationAllows_iff :
    TranslationAllows t smsc sender receiver account ↔
      ¬ SharedRuleRejects t smsc sender receiver account ∧
        ¬ BothReject PrefixMatches t.allowedRecvPrefix t.deniedRecvPrefix receiver ∧
        ¬ OnlyDeniedRejects RegexMatches t.allowedReceiverPrefixRegex
          t.deniedReceiverPrefixRegex receiver ∧
        ¬ BothReject RegexMatches t.allowedReceiverPrefixRegex t.deniedReceiverPrefixRegex
          receiver := by
  unfold SharedRuleRejects
  constructor
  · rintro ⟨hsmsc, haccount, hsender, hsenderRegex, hrecv, hrecvRegex, hlists⟩
    simp only [rulesReject_iff _ t.allowedRecvPrefix, not_or] at hrecv
    simp only [rulesReject_iff _ t.allowedReceiverPrefixRegex, not_or] at hrecvRegex
    simp only [not_or]
    exact ⟨⟨hsmsc, haccount, hsender, hsenderRegex, hrecv.1, hrecv.2.1, hrecvRegex.1, hlists⟩,
      hrecv.2.2, hrecvRegex.2.1, hrecvRegex.2.2⟩
  · simp only [not_or]
    rintro ⟨⟨hsmsc, haccount, hsender, hsenderRegex, hallow, hdeny, hallowRegex, hlists⟩,
      hboth, hdenyRegex, hbothRegex⟩
    refine ⟨hsmsc, haccount, hsender, hsenderRegex, ?_, ?_, hlists⟩
    · rw [rulesReject_iff]
      simp only [hallow, hdeny, hboth, or_self, not_false_iff]
    · rw [rulesReject_iff]
      simp only [hallowRegex, hdenyRegex, hbothRegex, or_self, not_false_iff]

end

theorem receiverPairsAgree_iff (t : UrlTranslation) (receiver : Option Octstr) :
    ReceiverPairsAgree t receiver ↔
      (¬ LoneDeniedMisses t.allowedReceiverPrefixRegex t.deniedReceiverPrefixRegex receiver ↔
        ¬ BothReject PrefixMatches t.allowedRecvPrefix t.deniedRecvPrefix receiver ∧
        ¬ OnlyDeniedRejects RegexMatches t.allowedReceiverPrefixRegex
          t.deniedReceiverPrefixRegex receiver ∧
        ¬ BothReject RegexMatches t.allowedReceiverPrefixRegex t.deniedReceiverPrefixRegex
          receiver) := by
  unfold ReceiverPairsAgree
  match t.allowedReceiverPrefixRegex, t.deniedReceiverPrefixRegex with
  | none, none => simp
  | none, some denied =>
    by_cases hd : RegexMatches denied receiver <;>
      simp [hd]
  | some allowed, none => simp
  | some allowed, some denied =>
    simp
    tauto

/-- **Who may use a service.**  The verdict is that of the rules exactly if no rule is reached
whose number is missing, and a rule read as it should rejects, or the receiver's other rules
come out as the sequence has them. -/
theorem checkAllowedTranslation_iff (t : UrlTranslation)
    (smsc sender receiver account : Option Octstr) :
    (∃ verdict, checkAllowedTranslation t smsc sender receiver account = .ok verdict ∧
        (verdict = true ↔ TranslationAllows t smsc sender receiver account)) ↔
      ¬ Stops (translationChecks t smsc sender receiver account) ∧
        (SharedRuleRejects t smsc sender receiver account ∨ ReceiverPairsAgree t receiver) := by
  obtain ⟨hreturns, hfails⟩ :=
    passesAll_iff (translationChecks_decide t smsc sender receiver account)
  rw [codeRejections_iff] at hreturns
  rw [translationAllows_iff, receiverPairsAgree_iff]
  by_cases hstops : Stops (translationChecks t smsc sender receiver account)
  · obtain ⟨failure, hfailure⟩ := hfails hstops
    simp [checkAllowedTranslation, hfailure, hstops]
  · obtain ⟨verdict, hverdict, hiff⟩ := hreturns hstops
    simp only [checkAllowedTranslation, hverdict, Except.ok.injEq, exists_eq_left', hiff, hstops]
    by_cases hshared : SharedRuleRejects t smsc sender receiver account
    · simp [hshared]
    · simp [hshared]

def deniesReceiver040 : UrlTranslation :=
  { type := .text, deniedReceiverPrefixRegex := some fun number => (ascii "040").isPrefixOf number }

/-- A receiver the denied expression does not match is turned away. -/
theorem deniesReceiver040_rejects_050 :
    checkAllowedTranslation deniesReceiver040 none (some (ascii "12345")) (some (ascii "0501"))
        none = .ok false ∧
      TranslationAllows deniesReceiver040 none (some (ascii "12345")) (some (ascii "0501"))
        none := by
  refine ⟨by decide, ?_⟩
  constructor <;>
    simp [deniesReceiver040, IdRejected, RulesReject, ListsReject, RegexMatches]
  decide

end Kannel
