import Mathlib.Data.Fintype.Option
import Mathlib.Data.Fintype.EquivFin
import Kannel.Gw.SmscConn
import Kannel.Lib.Avoids

/-!
# Connections with freed directives

A connection that points at freed patterns, compared with a fresh one. A check that fails is no
decision.
-/

namespace Kannel

def SmscConn.inState (conn : SmscConn) (status : SmscconnStatus) (whyKilled : SmscconnKilled) :
    SmscConn :=
  { conn with status := status, whyKilled := whyKilled }

/-- They decide alike about messages to be sent, in every state, and about messages that came
in. -/
structure RoutesAlike (re : RegexLib) (conn fresh : SmscConn) : Prop where
  usable : ∀ (status : SmscconnStatus) (whyKilled : SmscconnKilled) (msg : Sms),
    (smscconnUsable re (conn.inState status whyKilled) msg).toOption =
      (smscconnUsable re (fresh.inState status whyKilled) msg).toOption
  rerouting : ∀ msg : Sms,
    (routeIncomingToSmsc re conn msg).toOption = (routeIncomingToSmsc re fresh msg).toOption

def prefixAnswer (prefixes : Option Octstr) (number : Octstr) : Option Bool :=
  prefixes.bind fun list => (doesPrefixMatch (some list) (some number)).toOption

def regexAnswer (re : RegexLib) (preg : Ref Octstr) (number : Octstr) : Option Bool :=
  match preg with
  | .live pattern => some (re.regexec pattern (octstrGetCstr (some number)))
  | _ => none

def RunsGonePattern (goneAllowed goneDenied : Bool)
    (allowed denied allowedRegex deniedRegex : Option Bool) : Prop :=
  ¬ (allowed = some false ∧ denied = none) ∧
    (goneAllowed ∧ !goneDenied ∧ deniedRegex = none ∨
      ¬ (denied = some true ∧ allowed = none) ∧
        (goneDenied ∧ !goneAllowed ∧ allowedRegex = none ∨
          ¬ (allowed = some false ∧ denied = some true) ∧
            (goneAllowed ∧ (goneDenied ∨ deniedRegex ≠ none) ∨
              goneDenied ∧ allowedRegex = some false)))

instance runsGonePattern_decidable (goneAllowed goneDenied : Bool)
    (allowed denied allowedRegex deniedRegex : Option Bool) :
    Decidable (RunsGonePattern goneAllowed goneDenied allowed denied allowedRegex deniedRegex) :=
  inferInstanceAs (Decidable (_ ∧ _))

/-- A message gets to a pattern whose directive is `gone`: one for smsc ids or for receivers,
or, if the new directives let it pass without preference, the one for preferred receivers. -/
inductive RunsRemoved (re : RegexLib) (gone : String → Bool) (fresh : SmscConn) :
    Option Octstr → Octstr → Prop
  | allowedId {smscId number : Octstr} :
      gone "allowed-smsc-id-regex" → deniedBySmscId fresh (some smscId) = false →
      RunsRemoved re gone fresh (some smscId) number
  | deniedId {smscId number : Octstr} :
      gone "denied-smsc-id-regex" → fresh.allowedSmscIdRegex = .null →
      deniedBySmscId fresh (some smscId) = false → RunsRemoved re gone fresh (some smscId) number
  | receiver {smscId : Option Octstr} {number : Octstr} :
      deniedBySmscId fresh smscId = false → deniedBySmscIdRegex re fresh smscId = .ok false →
      RunsGonePattern (gone "allowed-prefix-regex") (gone "denied-prefix-regex")
        (prefixAnswer fresh.allowedPrefix number) (prefixAnswer fresh.deniedPrefix number)
        (regexAnswer re fresh.allowedPrefixRegex number)
        (regexAnswer re fresh.deniedPrefixRegex number) →
      RunsRemoved re gone fresh smscId number
  | preferred {smscId : Option Octstr} {number : Octstr} :
      gone "preferred-prefix-regex" →
      deniedBySmscId fresh smscId = false → deniedBySmscIdRegex re fresh smscId = .ok false →
      deniedByReceiver re fresh (some number) = .ok false →
      isPreferred re fresh smscId (some number) = .ok false →
      RunsRemoved re gone fresh smscId number

def anyVerdict : List (Option Bool) → Option Bool
  | [] => some false
  | none :: _ => none
  | some true :: _ => some true
  | some false :: checks => anyVerdict checks

def allowedVerdict (allowed denied : Option (Option Bool)) : Option Bool :=
  match allowed, denied with
  | some hit, none => hit.map (!·)
  | _, _ => some false

def deniedVerdict (allowed denied : Option (Option Bool)) : Option Bool :=
  match allowed, denied with
  | none, some hit => hit
  | _, _ => some false

def bothVerdict (allowed denied : Option (Option Bool)) : Option Bool :=
  match allowed, denied with
  | some hit, some hit' => hit.bind fun hit => if hit then some false else hit'
  | _, _ => some false

def receiverVerdict (allowed denied allowedRegex deniedRegex : Option (Option Bool)) :
    Option Bool :=
  anyVerdict [allowedVerdict allowed denied, allowedVerdict allowedRegex deniedRegex,
    deniedVerdict allowed denied, deniedVerdict allowedRegex deniedRegex,
    bothVerdict allowed denied, bothVerdict allowedRegex deniedRegex]

variable {smscId : Option Octstr}

theorem anyCheck_toOption (checks : List (Except Failure Bool)) :
    (anyCheck checks).toOption = anyVerdict (checks.map Except.toOption) := by
  induction checks with
  | nil => rfl
  | cons check checks ih =>
    cases check with
    | error failure => rfl
    | ok hit =>
      cases hit with
      | true => rfl
      | false => exact ih

section
variable (allowed denied : Option (Except Failure Bool)) {check : Except Failure Bool}

theorem haveAllowed_toOption (h : allowed.isSome = true → allowed = some check) :
    (haveAllowed allowed.isSome denied.isSome check).toOption =
      allowedVerdict (allowed.map Except.toOption) (denied.map Except.toOption) := by
  cases allowed with
  | none => rfl
  | some hit =>
    cases h rfl
    cases denied with
    | none => cases check <;> rfl
    | some hit' => rfl

theorem haveDenied_toOption (h : denied.isSome = true → denied = some check) :
    (haveDenied allowed.isSome denied.isSome check).toOption =
      deniedVerdict (allowed.map Except.toOption) (denied.map Except.toOption) := by
  cases denied with
  | none => cases allowed <;> rfl
  | some hit =>
    cases h rfl
    cases allowed <;> rfl

theorem haveBoth_toOption {check check' : Except Failure Bool}
    (h : allowed.isSome = true → allowed = some check)
    (h' : denied.isSome = true → denied = some check') :
    (haveBoth allowed.isSome denied.isSome check check').toOption =
      bothVerdict (allowed.map Except.toOption) (denied.map Except.toOption) := by
  cases allowed with
  | none => rfl
  | some hit =>
    cases h rfl
    cases denied with
    | none => rfl
    | some hit' =>
      cases h' rfl
      cases check with
      | error failure => rfl
      | ok hit =>
        cases hit with
        | true => rfl
        | false => rfl

end

def prefixCheck (prefixes receiver : Option Octstr) : Option (Except Failure Bool) :=
  prefixes.map fun list => doesPrefixMatch (some list) receiver

def regexCheck (re : RegexLib) (preg : Ref Octstr) (receiver : Option Octstr) :
    Option (Except Failure Bool) :=
  if preg = .null then none else some (gwRegexMatchAt re preg receiver)

theorem isSome_regexCheck (re : RegexLib) (preg : Ref Octstr) (receiver : Option Octstr) :
    (regexCheck re preg receiver).isSome = (preg != .null) := by
  cases preg with
  | null => rfl
  | live pattern => rfl
  | freed => rfl

variable {preg : Ref Octstr} {receiver : Option Octstr}

theorem regexCheck_of_isSome {re : RegexLib} (h : (regexCheck re preg receiver).isSome = true) :
    regexCheck re preg receiver = some (gwRegexMatchAt re preg receiver) := by
  unfold regexCheck at h ⊢
  split at h
  · cases h
  · rename_i hne
    rw [if_neg hne]

theorem isSome_prefixCheck (prefixes receiver : Option Octstr) :
    (prefixCheck prefixes receiver).isSome = prefixes.isSome :=
  Option.isSome_map

theorem prefixCheck_of_isSome {prefixes receiver : Option Octstr}
    (h : (prefixCheck prefixes receiver).isSome = true) :
    prefixCheck prefixes receiver = some (doesPrefixMatch prefixes receiver) := by
  cases prefixes with
  | none => cases h
  | some list => rfl

theorem deniedByReceiver_toOption (re : RegexLib) (conn : SmscConn) (receiver : Option Octstr) :
    (deniedByReceiver re conn receiver).toOption =
      receiverVerdict ((prefixCheck conn.allowedPrefix receiver).map Except.toOption)
        ((prefixCheck conn.deniedPrefix receiver).map Except.toOption)
        ((regexCheck re conn.allowedPrefixRegex receiver).map Except.toOption)
        ((regexCheck re conn.deniedPrefixRegex receiver).map Except.toOption) := by
  unfold deniedByReceiver receiverVerdict
  rw [anyCheck_toOption]
  simp only [List.map_cons, List.map_nil]
  rw [← isSome_prefixCheck conn.allowedPrefix receiver,
    ← isSome_prefixCheck conn.deniedPrefix receiver,
    ← isSome_regexCheck re conn.allowedPrefixRegex receiver,
    ← isSome_regexCheck re conn.deniedPrefixRegex receiver,
    haveAllowed_toOption _ _ prefixCheck_of_isSome,
    haveAllowed_toOption _ _ regexCheck_of_isSome,
    haveDenied_toOption _ _ prefixCheck_of_isSome,
    haveDenied_toOption _ _ regexCheck_of_isSome,
    haveBoth_toOption _ _ prefixCheck_of_isSome prefixCheck_of_isSome,
    haveBoth_toOption _ _ regexCheck_of_isSome regexCheck_of_isSome]

def answerWhenGone (gone : Bool) (answer : Option Bool) : Option (Option Bool) :=
  if gone then some none else answer.map some

theorem receiverVerdict_gone : ∀ (goneAllowed goneDenied : Bool)
    (allowed denied allowedRegex deniedRegex : Option Bool),
    (goneAllowed = true → allowedRegex = none) → (goneDenied = true → deniedRegex = none) →
    receiverVerdict (allowed.map some) (denied.map some) (answerWhenGone goneAllowed allowedRegex)
        (answerWhenGone goneDenied deniedRegex) =
      if RunsGonePattern goneAllowed goneDenied allowed denied allowedRegex deniedRegex then none
      else receiverVerdict (allowed.map some) (denied.map some) (allowedRegex.map some)
        (deniedRegex.map some) := by
  decide

def answerOfMissing (rule : Bool) : Option (Option Bool) := if rule then some none else none

theorem receiverVerdict_missing : ∀ allowed denied allowedRegex deniedRegex : Bool,
    receiverVerdict (answerOfMissing allowed) (answerOfMissing denied)
      (answerOfMissing allowedRegex) (answerOfMissing deniedRegex) =
      if allowed || denied || allowedRegex || deniedRegex then none else some false := by
  decide

structure StalePattern (gone : Bool) (conn fresh : Ref Octstr) : Prop where
  sound : fresh ≠ .freed
  freed : gone = true → conn = .freed ∧ fresh = .null
  same : gone = false → conn = fresh

structure Stale (gone : String → Bool) (conn fresh : SmscConn) : Prop where
  allowedSmscId : conn.allowedSmscId = fresh.allowedSmscId
  deniedSmscId : conn.deniedSmscId = fresh.deniedSmscId
  preferredSmscId : conn.preferredSmscId = fresh.preferredSmscId
  allowedPrefix : conn.allowedPrefix = fresh.allowedPrefix
  deniedPrefix : conn.deniedPrefix = fresh.deniedPrefix
  preferredPrefix : conn.preferredPrefix = fresh.preferredPrefix
  allowedSmscIdRegex :
    StalePattern (gone "allowed-smsc-id-regex") conn.allowedSmscIdRegex fresh.allowedSmscIdRegex
  deniedSmscIdRegex :
    StalePattern (gone "denied-smsc-id-regex") conn.deniedSmscIdRegex fresh.deniedSmscIdRegex
  allowedPrefixRegex :
    StalePattern (gone "allowed-prefix-regex") conn.allowedPrefixRegex fresh.allowedPrefixRegex
  deniedPrefixRegex :
    StalePattern (gone "denied-prefix-regex") conn.deniedPrefixRegex fresh.deniedPrefixRegex
  preferredPrefixRegex :
    StalePattern (gone "preferred-prefix-regex") conn.preferredPrefixRegex
      fresh.preferredPrefixRegex

variable (prefixes : Option Octstr) (number : Octstr)

theorem prefixCheck_number :
    (prefixCheck prefixes (some number)).map Except.toOption =
      (prefixAnswer prefixes number).map some := by
  cases prefixes <;> rfl

theorem prefixCheck_missing :
    (prefixCheck prefixes none).map Except.toOption = answerOfMissing prefixes.isSome := by
  cases prefixes <;> rfl

variable {isGone : Bool} {preg' : Ref Octstr}

section Stale
variable {re : RegexLib} {gone : String → Bool} {conn fresh : SmscConn}

theorem regexCheck_number (h : preg ≠ .freed) (number : Octstr) :
    (regexCheck re preg (some number)).map Except.toOption =
      (regexAnswer re preg number).map some := by
  cases preg with
  | null => rfl
  | live pattern => rfl
  | freed => exact absurd rfl h

theorem regexCheck_missing (preg : Ref Octstr) :
    (regexCheck re preg none).map Except.toOption = answerOfMissing (preg != .null) := by
  cases preg <;> rfl

section
variable (h : StalePattern isGone preg preg')
include h

theorem StalePattern.regexCheck_number :
    (regexCheck re preg (some number)).map Except.toOption =
      answerWhenGone isGone (regexAnswer re preg' number) := by
  cases isGone with
  | true =>
    obtain ⟨rfl, rfl⟩ := h.freed rfl
    rfl
  | false =>
    cases h.same rfl
    exact Kannel.regexCheck_number h.sound number

theorem StalePattern.regexAnswer_eq_none (hgone : isGone = true) :
    regexAnswer re preg' number = none := by
  rw [(h.freed hgone).2]
  rfl

theorem StalePattern.ne_null_iff : (preg != .null) = ((preg' != .null) || isGone) := by
  cases isGone with
  | true =>
    obtain ⟨rfl, rfl⟩ := h.freed rfl
    rfl
  | false =>
    cases h.same rfl
    rw [Bool.or_false]

end

theorem Stale.deniedByReceiver_number (h : Stale gone conn fresh) (number : Octstr) :
    (deniedByReceiver re conn (some number)).toOption =
      if RunsGonePattern (gone "allowed-prefix-regex") (gone "denied-prefix-regex")
          (prefixAnswer fresh.allowedPrefix number) (prefixAnswer fresh.deniedPrefix number)
          (regexAnswer re fresh.allowedPrefixRegex number)
          (regexAnswer re fresh.deniedPrefixRegex number) then none
      else (deniedByReceiver re fresh (some number)).toOption := by
  rw [deniedByReceiver_toOption, deniedByReceiver_toOption, h.allowedPrefix, h.deniedPrefix,
    prefixCheck_number, prefixCheck_number, h.allowedPrefixRegex.regexCheck_number,
    h.deniedPrefixRegex.regexCheck_number, regexCheck_number h.allowedPrefixRegex.sound,
    regexCheck_number h.deniedPrefixRegex.sound]
  exact receiverVerdict_gone _ _ _ _ _ _
    (h.allowedPrefixRegex.regexAnswer_eq_none number)
    (h.deniedPrefixRegex.regexAnswer_eq_none number)

theorem deniedByReceiver_missing (conn : SmscConn) :
    (deniedByReceiver re conn none).toOption =
      if conn.allowedPrefix.isSome || conn.deniedPrefix.isSome ||
          (conn.allowedPrefixRegex != .null) || (conn.deniedPrefixRegex != .null) then none
      else some false := by
  rw [deniedByReceiver_toOption, prefixCheck_missing, prefixCheck_missing, regexCheck_missing,
    regexCheck_missing, receiverVerdict_missing]

theorem Stale.deniedBySmscId (h : Stale gone conn fresh) (smscId : Option Octstr) :
    deniedBySmscId conn smscId = Kannel.deniedBySmscId fresh smscId := by
  unfold Kannel.deniedBySmscId
  rw [h.allowedSmscId, h.deniedSmscId]

theorem exists_smscId_of_none (h : deniedBySmscId fresh none = false) :
    ∃ smscId, deniedBySmscId fresh (some smscId) = false := by
  unfold deniedBySmscId at h ⊢
  cases hallowed : fresh.allowedSmscId with
  | some allowed => simp [hallowed] at h
  | none =>
    cases hdenied : fresh.deniedSmscId with
    | none => exact ⟨[], rfl⟩
    | some denied =>
      obtain ⟨smscId, hnot⟩ := Infinite.exists_notMem_finset denied.toFinset
      have hnot : smscId ∉ denied := fun hmem => hnot (List.mem_toFinset.mpr hmem)
      exact ⟨smscId, by simp [hnot]⟩

theorem Stale.deniedBySmscIdRegex_gone (h : Stale gone conn fresh) (smscId : Octstr)
    (hgone : gone "allowed-smsc-id-regex" = true ∨
      gone "denied-smsc-id-regex" = true ∧ fresh.allowedSmscIdRegex = .null) :
    (deniedBySmscIdRegex re conn (some smscId)).toOption = none := by
  unfold deniedBySmscIdRegex
  cases hallowed : gone "allowed-smsc-id-regex" with
  | true =>
    rw [(h.allowedSmscIdRegex.freed hallowed).1]
    rfl
  | false =>
    obtain ⟨hdenied, hnull⟩ := hgone.resolve_left (by simp [hallowed])
    rw [h.allowedSmscIdRegex.same hallowed, hnull, (h.deniedSmscIdRegex.freed hdenied).1]
    rfl

theorem Stale.deniedBySmscIdRegex_same (h : Stale gone conn fresh)
    (hallowed : gone "allowed-smsc-id-regex" = false)
    (hdenied : gone "denied-smsc-id-regex" = true →
      fresh.allowedSmscIdRegex ≠ .null ∨ smscId = none) :
    deniedBySmscIdRegex re conn smscId = deniedBySmscIdRegex re fresh smscId := by
  unfold deniedBySmscIdRegex
  rw [h.allowedSmscIdRegex.same hallowed]
  cases hgone : gone "denied-smsc-id-regex" with
  | false => rw [h.deniedSmscIdRegex.same hgone]
  | true =>
    rcases hdenied hgone with hne | rfl
    · rw [if_pos hne, if_pos hne]
    · simp

def preferredByList (conn : SmscConn) (smscId receiver : Option Octstr) : Except Failure Bool :=
  anyCheck [
    .ok (conn.preferredSmscId.any fun preferred => smscId.any (· ∈ preferred)),
    if conn.preferredPrefix ≠ none then doesPrefixMatch conn.preferredPrefix receiver
    else .ok false]

theorem Stale.preferredByList (h : Stale gone conn fresh) (smscId receiver : Option Octstr) :
    preferredByList conn smscId receiver = Kannel.preferredByList fresh smscId receiver := by
  unfold Kannel.preferredByList
  rw [h.preferredSmscId, h.preferredPrefix]

theorem anyCheck_append (checks rest : List (Except Failure Bool)) :
    anyCheck (checks ++ rest) =
      (anyCheck checks >>= fun hit => if hit then .ok true else anyCheck rest) := by
  induction checks with
  | nil => rfl
  | cons check checks ih =>
    cases check with
    | error failure => rfl
    | ok hit =>
      cases hit with
      | true => rfl
      | false => exact ih

theorem isPreferred_eq (conn : SmscConn) (smscId receiver : Option Octstr) :
    isPreferred re conn smscId receiver =
      (Kannel.preferredByList conn smscId receiver >>= fun hit =>
        if hit then .ok true
        else anyCheck [if conn.preferredPrefixRegex ≠ .null then
          gwRegexMatchAt re conn.preferredPrefixRegex receiver else .ok false]) :=
  anyCheck_append [_, _] [_]

theorem Stale.isPreferred_gone (h : Stale gone conn fresh) (smscId receiver : Option Octstr)
    (hgone : gone "preferred-prefix-regex" = true) :
    (isPreferred re conn smscId receiver).toOption =
      if isPreferred re fresh smscId receiver = .ok false then none
      else (isPreferred re fresh smscId receiver).toOption := by
  obtain ⟨hfreed, hnull⟩ := h.preferredPrefixRegex.freed hgone
  rw [isPreferred_eq, isPreferred_eq, h.preferredByList, hfreed, hnull]
  cases Kannel.preferredByList fresh smscId receiver with
  | error failure => rfl
  | ok hit =>
    cases hit with
    | true => rfl
    | false => rfl

theorem Stale.isPreferred_same (h : Stale gone conn fresh) (smscId receiver : Option Octstr)
    (hgone : gone "preferred-prefix-regex" = false) :
    isPreferred re conn smscId receiver = isPreferred re fresh smscId receiver := by
  rw [isPreferred_eq, isPreferred_eq, h.preferredByList, h.preferredPrefixRegex.same hgone]

def usableVerdict (isGone byId : Bool) (byIdRegex byReceiver preferred : Option Bool) :
    Option Int :=
  (anyVerdict [some isGone, some byId, byIdRegex, byReceiver]).bind fun denied =>
    if denied then some (-1) else preferred.map fun hit => if hit then 1 else 0

theorem smscconnUsable_toOption (conn : SmscConn) (status : SmscconnStatus)
    (whyKilled : SmscconnKilled) (msg : Sms) :
    (smscconnUsable re (conn.inState status whyKilled) msg).toOption =
      usableVerdict (conn.inState status whyKilled).gone (Kannel.deniedBySmscId conn msg.smscId)
        (deniedBySmscIdRegex re conn msg.smscId).toOption
        (deniedByReceiver re conn msg.receiver).toOption
        (isPreferred re conn msg.smscId msg.receiver).toOption := by
  let checks := [.ok (conn.inState status whyKilled).gone,
    .ok (Kannel.deniedBySmscId conn msg.smscId), deniedBySmscIdRegex re conn msg.smscId,
    deniedByReceiver re conn msg.receiver]
  have hchecks := anyCheck_toOption checks
  change (anyCheck checks >>= _).toOption = (anyVerdict (checks.map Except.toOption)).bind _
  rw [← hchecks]
  cases anyCheck checks with
  | error failure => rfl
  | ok denied =>
    cases denied with
    | true => rfl
    | false =>
      change (isPreferred re conn msg.smscId msg.receiver >>= _).toOption =
        (isPreferred re conn msg.smscId msg.receiver).toOption.map _
      cases isPreferred re conn msg.smscId msg.receiver with
      | error failure => rfl
      | ok hit => cases hit <;> rfl

def messageTo (smscId receiver : Option Octstr) : Sms :=
  { smsCreate uuidClear with smscId := smscId, receiver := receiver }

theorem Stale.fresh_decides (h : Stale gone conn fresh) (smscId : Option Octstr) (number : Octstr) :
    (smscconnUsable re (fresh.inState .active .alive) (messageTo smscId (some number))).toOption ≠
      none := by
  have hsound : (fresh.inState .active .alive).Sound :=
    ⟨h.allowedSmscIdRegex.sound, h.deniedSmscIdRegex.sound, h.allowedPrefixRegex.sound,
      h.deniedPrefixRegex.sound, h.preferredPrefixRegex.sound⟩
  obtain ⟨ret, hret⟩ : ∃ ret, smscconnUsable re (fresh.inState .active .alive)
    (messageTo smscId (some number)) = .ok ret := smscconnUsable_ok re hsound rfl
  rw [hret]
  exact Option.some_ne_none ret

theorem usableVerdict_none {byIdRegex byReceiver preferred : Option Bool}
    (h : byIdRegex = none ∨ byIdRegex = some false ∧ (byReceiver = none ∨
      byReceiver = some false ∧ preferred = none)) :
    usableVerdict false false byIdRegex byReceiver preferred = none := by
  rcases h with rfl | ⟨rfl, rfl | ⟨rfl, rfl⟩⟩
  · rfl
  · rfl
  · rfl

theorem Stale.differs_of_id (h : Stale gone conn fresh) {smscId : Octstr}
    (hgone : gone "allowed-smsc-id-regex" = true ∨
      gone "denied-smsc-id-regex" = true ∧ fresh.allowedSmscIdRegex = .null)
    (hid : Kannel.deniedBySmscId fresh (some smscId) = false) (number : Octstr) :
    (smscconnUsable re (conn.inState .active .alive)
      (messageTo (some smscId) (some number))).toOption = none := by
  rw [smscconnUsable_toOption, h.deniedBySmscId]
  change usableVerdict false (Kannel.deniedBySmscId fresh (some smscId)) _ _ _ = none
  rw [hid]
  exact usableVerdict_none (.inl (h.deniedBySmscIdRegex_gone smscId hgone))

theorem Stale.differs_of_receiver (h : Stale gone conn fresh) {number : Octstr}
    (hid : Kannel.deniedBySmscId fresh smscId = false)
    (hregex : deniedBySmscIdRegex re conn smscId = .ok false)
    (hbehind : (deniedByReceiver re conn (some number)).toOption = none ∨
      (deniedByReceiver re conn (some number)).toOption = some false ∧
        (isPreferred re conn smscId (some number)).toOption = none) :
    (smscconnUsable re (conn.inState .active .alive)
      (messageTo smscId (some number))).toOption = none := by
  rw [smscconnUsable_toOption, h.deniedBySmscId]
  change usableVerdict false (Kannel.deniedBySmscId fresh smscId) _ _ _ = none
  rw [hid]
  refine usableVerdict_none (.inr ⟨?_, hbehind⟩)
  change (deniedBySmscIdRegex re conn smscId).toOption = some false
  rw [hregex]
  rfl

theorem Stale.exists_failing (h : Stale gone conn fresh) {number : Octstr}
    (hruns : RunsRemoved re gone fresh smscId number) :
    ∃ id number', (smscconnUsable re (conn.inState .active .alive)
      (messageTo id (some number'))).toOption = none := by
  -- a message that gets behind the checks of the smsc id
  have hbehind : ∀ (smscId : Option Octstr) (number : Octstr),
      Kannel.deniedBySmscId fresh smscId = false →
      deniedBySmscIdRegex re fresh smscId = .ok false →
      ((deniedByReceiver re conn (some number)).toOption = none ∨
        (deniedByReceiver re conn (some number)).toOption = some false ∧
          (isPreferred re conn smscId (some number)).toOption = none) →
      ∃ id number', (smscconnUsable re (conn.inState .active .alive)
        (messageTo id (some number'))).toOption = none := by
    intro smscId number hid hregex hfails
    by_cases hallowed : gone "allowed-smsc-id-regex" = true
    · obtain ⟨id, hid⟩ : ∃ id, Kannel.deniedBySmscId fresh (some id) = false := by
        cases smscId with
        | none => exact exists_smscId_of_none hid
        | some id => exact ⟨id, hid⟩
      exact ⟨some id, number, h.differs_of_id (.inl hallowed) hid number⟩
    · by_cases hdenied : gone "denied-smsc-id-regex" = true ∧
          fresh.allowedSmscIdRegex = .null ∧ smscId ≠ none
      · obtain ⟨hdenied, hnull, hne⟩ := hdenied
        obtain ⟨id, rfl⟩ := Option.ne_none_iff_exists'.mp hne
        exact ⟨some id, number, h.differs_of_id (.inr ⟨hdenied, hnull⟩) hid number⟩
      · have hsame : deniedBySmscIdRegex re conn smscId = .ok false := by
          rw [h.deniedBySmscIdRegex_same (by simpa using hallowed), hregex]
          intro hgone
          by_contra hnot
          rw [not_or, not_not] at hnot
          exact hdenied ⟨hgone, hnot.1, hnot.2⟩
        exact ⟨smscId, number, h.differs_of_receiver hid hsame hfails⟩
  cases hruns with
  | allowedId hgone hid =>
    exact ⟨_, number, h.differs_of_id (.inl hgone) hid number⟩
  | deniedId hgone hnull hid =>
    exact ⟨_, number, h.differs_of_id (.inr ⟨hgone, hnull⟩) hid number⟩
  | receiver hid hregex hruns =>
    refine hbehind smscId number hid hregex (.inl ?_)
    rw [h.deniedByReceiver_number, if_pos hruns]
  | preferred hgone hid hregex hreceiver hpreferred =>
    refine hbehind smscId number hid hregex ?_
    rw [h.deniedByReceiver_number, h.isPreferred_gone _ _ hgone]
    split
    · exact .inl rfl
    · rw [hreceiver]
      exact .inr ⟨rfl, rfl⟩

theorem deniedByReceiver_of_missing (h : (deniedByReceiver re fresh none).toOption = some false)
    (number : Octstr) : deniedByReceiver re fresh (some number) = .ok false := by
  rw [deniedByReceiver_missing] at h
  split at h
  · cases h
  · rename_i hrules
    simp only [Bool.or_eq_true, not_or, Bool.not_eq_true, Option.isSome_eq_false_iff,
      Option.isNone_iff_eq_none, bne_eq_false_iff_eq] at hrules
    obtain ⟨⟨⟨hallowed, hdenied⟩, hallowedRegex⟩, hdeniedRegex⟩ := hrules
    unfold deniedByReceiver
    rw [hallowed, hdenied, hallowedRegex, hdeniedRegex]
    rfl

section
variable (h : Stale gone conn fresh)
  (hnone : ∀ smscId number, ¬ RunsRemoved re gone fresh smscId number)
  (hid : Kannel.deniedBySmscId fresh smscId = false)
include h hnone hid

theorem Stale.deniedBySmscIdRegex_eq :
    deniedBySmscIdRegex re conn smscId = deniedBySmscIdRegex re fresh smscId := by
  apply h.deniedBySmscIdRegex_same
  · by_contra hgone
    obtain ⟨id, hid⟩ : ∃ id, Kannel.deniedBySmscId fresh (some id) = false := by
      cases smscId with
      | none => exact exists_smscId_of_none hid
      | some id => exact ⟨id, hid⟩
    exact hnone (some id) [] (.allowedId (by simpa using hgone) hid)
  · intro hgone
    by_contra hnot
    rw [not_or, not_not] at hnot
    obtain ⟨id, rfl⟩ := Option.ne_none_iff_exists'.mp hnot.2
    exact hnone (some id) [] (.deniedId hgone hnot.1 hid)

theorem Stale.deniedByReceiver_eq
    (hregex : deniedBySmscIdRegex re fresh smscId = .ok false) (receiver : Option Octstr) :
    (deniedByReceiver re conn receiver).toOption =
      (deniedByReceiver re fresh receiver).toOption := by
  cases receiver with
  | some number =>
    rw [h.deniedByReceiver_number, if_neg]
    exact fun hruns => hnone smscId number (.receiver hid hregex hruns)
  | none =>
    rw [deniedByReceiver_missing, deniedByReceiver_missing, h.allowedPrefix, h.deniedPrefix,
      h.allowedPrefixRegex.ne_null_iff, h.deniedPrefixRegex.ne_null_iff]
    -- a pattern that is gone where there is no rule at all would be run for every number
    by_cases hrules : (fresh.allowedPrefix.isSome || fresh.deniedPrefix.isSome ||
        (fresh.allowedPrefixRegex != .null) || (fresh.deniedPrefixRegex != .null)) = true
    · rw [if_pos hrules, if_pos]
      simp only [Bool.or_eq_true] at hrules ⊢
      tauto
    · have hnot := hnone smscId []
      simp only [Bool.or_eq_true, not_or, Bool.not_eq_true, Option.isSome_eq_false_iff,
        Option.isNone_iff_eq_none, bne_eq_false_iff_eq] at hrules
      obtain ⟨⟨⟨hallowed, hdenied⟩, hallowedRegex⟩, hdeniedRegex⟩ := hrules
      have hruns : ¬ RunsGonePattern (gone "allowed-prefix-regex") (gone "denied-prefix-regex")
          none none none none := by
        intro hruns
        refine hnot (.receiver hid hregex ?_)
        rw [hallowed, hdenied, hallowedRegex, hdeniedRegex]
        exact hruns
      have hgone : gone "allowed-prefix-regex" = false ∧ gone "denied-prefix-regex" = false := by
        revert hruns
        generalize gone "allowed-prefix-regex" = goneAllowed
        generalize gone "denied-prefix-regex" = goneDenied
        revert goneAllowed goneDenied
        decide
      rw [hgone.1, hgone.2, Bool.or_false, Bool.or_false]

theorem Stale.isPreferred_eq (hregex : deniedBySmscIdRegex re fresh smscId = .ok false)
    (hreceiver : (deniedByReceiver re fresh receiver).toOption = some false) :
    (isPreferred re conn smscId receiver).toOption =
      (isPreferred re fresh smscId receiver).toOption := by
  by_cases hgone : gone "preferred-prefix-regex" = true
  · rw [h.isPreferred_gone _ _ hgone, if_neg]
    intro hpreferred
    cases receiver with
    | some number =>
      have hok : deniedByReceiver re fresh (some number) = .ok false := by
        cases hx : deniedByReceiver re fresh (some number) with
        | error failure => simp [hx, Except.toOption] at hreceiver
        | ok hit => simpa [hx, Except.toOption] using hreceiver
      exact hnone smscId number (.preferred hgone hid hregex hok hpreferred)
    | none =>
      refine hnone smscId [] (.preferred hgone hid hregex
        (deniedByReceiver_of_missing hreceiver []) ?_)
      rw [Kannel.isPreferred_eq, (h.preferredPrefixRegex.freed hgone).2] at hpreferred ⊢
      obtain ⟨hit, hlist, hhit⟩ := bind_eq_ok_iff.mp hpreferred
      unfold Kannel.preferredByList at hlist ⊢
      cases hprefixes : fresh.preferredPrefix with
      | none =>
        rw [hprefixes] at hlist
        rw [if_neg (by simp)] at hlist ⊢
        rw [hlist]
        exact hhit
      | some list =>
        rw [hprefixes] at hlist
        cases hany : fresh.preferredSmscId.any fun preferred => smscId.any (· ∈ preferred) with
        | true =>
          rw [hany] at hlist
          cases hlist
          cases hhit
        | false =>
          rw [hany] at hlist
          cases hlist
  · rw [h.isPreferred_same _ _ (by simpa using hgone)]

end

theorem Stale.usable_iff (h : Stale gone conn fresh) :
    (∀ (status : SmscconnStatus) (whyKilled : SmscconnKilled) (msg : Sms),
      (smscconnUsable re (conn.inState status whyKilled) msg).toOption =
        (smscconnUsable re (fresh.inState status whyKilled) msg).toOption) ↔
      ∀ smscId number, ¬ RunsRemoved re gone fresh smscId number := by
  constructor
  · intro halike smscId number hruns
    obtain ⟨id, number', hfails⟩ := h.exists_failing hruns
    rw [halike] at hfails
    exact h.fresh_decides id number' hfails
  · intro hnone status whyKilled msg
    have hstate : (conn.inState status whyKilled).gone = (fresh.inState status whyKilled).gone :=
      rfl
    rw [smscconnUsable_toOption, smscconnUsable_toOption, h.deniedBySmscId, hstate]
    cases (fresh.inState status whyKilled).gone with
    | true => rfl
    | false =>
      cases hid : Kannel.deniedBySmscId fresh msg.smscId with
      | true => rfl
      | false =>
        rw [h.deniedBySmscIdRegex_eq hnone hid]
        cases hregex : deniedBySmscIdRegex re fresh msg.smscId with
        | error failure => rfl
        | ok hit =>
          cases hit with
          | true => rfl
          | false =>
            rw [h.deniedByReceiver_eq hnone hid hregex]
            cases hreceiver : (deniedByReceiver re fresh msg.receiver).toOption with
            | none => rfl
            | some hit =>
              cases hit with
              | true => rfl
              | false => rw [h.isPreferred_eq hnone hid hregex hreceiver]

end Stale

def StaleRef {α : Type} (conn fresh : Ref α) : Prop :=
  fresh ≠ .freed ∧ (conn = fresh ∨ conn = .freed ∧ fresh = .null)

structure StaleRules (conn fresh : SmscConn) : Prop where
  reroute : conn.reroute = fresh.reroute
  rerouteDlr : conn.rerouteDlr = fresh.rerouteDlr
  rerouteToSmsc : StaleRef conn.rerouteToSmsc fresh.rerouteToSmsc
  rerouteByReceiver : StaleRef conn.rerouteByReceiver fresh.rerouteByReceiver
  rerouteByReceiverRegex : StaleRef conn.rerouteByReceiverRegex fresh.rerouteByReceiverRegex

section Rules
variable {re : RegexLib} {conn fresh : SmscConn}

theorem rerouteByRegex_ok {rules : Ref (List (Octstr × Octstr))} (h : rules ≠ .freed)
    (receiver : Octstr) : ∃ choice, rerouteByRegex re rules receiver = .ok choice := by
  unfold rerouteByRegex
  cases rules with
  | null => exact ⟨_, rfl⟩
  | freed => exact absurd rfl h
  | live rules =>
    dsimp only
    split
    · exact ⟨_, rfl⟩
    · exact ⟨_, rfl⟩

theorem rerouteByNumber_ok (hdict : conn.rerouteByReceiver ≠ .freed)
    (hregex : conn.rerouteByReceiverRegex ≠ .freed) (receiver : Octstr) :
    ∃ choice, rerouteByNumber re conn receiver = .ok choice := by
  unfold rerouteByNumber
  split
  · rename_i h
    exact absurd h hdict
  · split
    · exact ⟨_, rfl⟩
    · exact rerouteByRegex_ok hregex receiver
  · exact rerouteByRegex_ok hregex receiver

theorem StaleRules.fresh_chooses (h : StaleRules conn fresh) (msg : Sms) :
    (routeIncomingToSmsc re fresh msg).toOption ≠ none := by
  obtain ⟨choice, hchoice⟩ : ∃ choice, routeIncomingToSmsc re fresh msg = .ok choice := by
    unfold routeIncomingToSmsc
    split
    · exact ⟨_, rfl⟩
    · split
      · exact ⟨_, rfl⟩
      · split
        · rename_i hfreed
          exact absurd hfreed h.rerouteToSmsc.1
        · exact ⟨_, rfl⟩
        · split
          · exact ⟨_, rfl⟩
          · exact rerouteByNumber_ok h.rerouteByReceiver.1 h.rerouteByReceiverRegex.1 _
  rw [hchoice]
  exact Option.some_ne_none choice

theorem routeIncomingToSmsc_number (hreroute : conn.reroute = false) (receiver : Octstr) :
    routeIncomingToSmsc re conn (messageTo none (some receiver)) =
      match conn.rerouteToSmsc with
      | .freed => .error .outside
      | .live smsc => .ok (.towards smsc)
      | .null => rerouteByNumber re conn receiver := by
  unfold routeIncomingToSmsc
  rw [if_neg, if_neg]
  · rfl
  · simp [hreroute]
  · rintro ⟨-, htype | htype⟩
    · cases htype
    · cases htype

theorem routeIncomingToSmsc_congr (hreroute : conn.reroute = fresh.reroute)
    (hdlr : conn.rerouteDlr = fresh.rerouteDlr)
    (hrules : conn.reroute = false → conn.rerouteToSmsc = fresh.rerouteToSmsc ∧
      (conn.rerouteToSmsc = .null → conn.rerouteByReceiver = fresh.rerouteByReceiver ∧
        conn.rerouteByReceiverRegex = fresh.rerouteByReceiverRegex)) (msg : Sms) :
    routeIncomingToSmsc re conn msg = routeIncomingToSmsc re fresh msg := by
  unfold routeIncomingToSmsc
  rw [hreroute] at hrules
  rw [hreroute, hdlr]
  cases hall : fresh.reroute with
  | true => rfl
  | false =>
    obtain ⟨htarget, hothers⟩ := hrules hall
    rw [htarget] at hothers
    rw [htarget]
    cases hnull : fresh.rerouteToSmsc with
    | live smsc => rfl
    | freed => rfl
    | null =>
      obtain ⟨hdict, hregex⟩ := hothers hnull
      simp only [rerouteByNumber, hdict, hregex]

theorem exists_dictGet_none (dict : Dict Octstr (100 * 2)) :
    ∃ receiver, dictGet dict receiver = none := by
  obtain ⟨receiver, hnot⟩ := Infinite.exists_notMem_finset (dictKeys dict).toFinset
  refine ⟨receiver, ?_⟩
  by_contra hsome
  apply hnot
  rw [List.mem_toFinset, mem_dictKeys]
  exact Option.ne_none_iff_isSome.mp hsome

theorem StaleRules.rerouting_iff (h : StaleRules conn fresh) :
    (∀ msg : Sms, (routeIncomingToSmsc re conn msg).toOption =
        (routeIncomingToSmsc re fresh msg).toOption) ↔
      (conn.reroute = false → conn.rerouteToSmsc = fresh.rerouteToSmsc ∧
        (conn.rerouteToSmsc = .null → conn.rerouteByReceiver = fresh.rerouteByReceiver ∧
          conn.rerouteByReceiverRegex = fresh.rerouteByReceiverRegex)) := by
  constructor
  · intro halike hreroute
    have hchooses : ∀ receiver,
        (routeIncomingToSmsc re conn (messageTo none (some receiver))).toOption ≠ none :=
      fun receiver hnone => h.fresh_chooses _ (halike _ ▸ hnone)
    have htarget : conn.rerouteToSmsc = fresh.rerouteToSmsc := by
      refine h.rerouteToSmsc.2.resolve_right fun hfreed => hchooses [] ?_
      rw [routeIncomingToSmsc_number hreroute, hfreed.1]
      rfl
    refine ⟨htarget, fun hnull => ?_⟩
    have hdict : conn.rerouteByReceiver = fresh.rerouteByReceiver := by
      refine h.rerouteByReceiver.2.resolve_right fun hfreed => hchooses [] ?_
      rw [routeIncomingToSmsc_number hreroute, hnull]
      simp only [rerouteByNumber, hfreed.1]
      rfl
    refine ⟨hdict, h.rerouteByReceiverRegex.2.resolve_right fun hfreed => ?_⟩
    -- a receiver that the dictionary does not know gets to the patterns
    obtain ⟨receiver, hfails⟩ : ∃ receiver, rerouteByNumber re conn receiver = .error .outside := by
      unfold rerouteByNumber
      rw [hfreed.1]
      cases hlive : conn.rerouteByReceiver with
      | null => exact ⟨[], rfl⟩
      | freed => exact ⟨[], rfl⟩
      | live dict =>
        obtain ⟨receiver, hget⟩ := exists_dictGet_none dict
        exact ⟨receiver, by simp only [hget]; rfl⟩
    apply hchooses receiver
    rw [routeIncomingToSmsc_number hreroute, hnull, hfails]
    rfl
  · intro hrules msg
    rw [routeIncomingToSmsc_congr h.reroute h.rerouteDlr hrules]

end Rules
end Kannel
