import Kannel.Gw.Msg
import Kannel.Gwlib.CfgGroup
import Kannel.Gwlib.Utils

/-!
# Connections to message centres

What a directive was read into is freed when it is read again, so a pointer to it has three
kinds of values (`Ref`). Compiling and matching expressions is left open (`RegexLib`).
-/

namespace Kannel
open List

inductive SmscconnStatus
  | connecting | active | activeRecv | reconnecting | disconnected | dead
  deriving DecidableEq, Repr

inductive SmscconnKilled
  | alive | wrongPassword | cannotConnect | shutdown
  deriving DecidableEq, Repr

inductive Ref (α : Type)
  | null
  | live (value : α)
  | freed
  deriving DecidableEq, Repr

def Ref.destroy {α : Type} : Ref α → Ref α
  | .null => .null
  | _ => .freed

structure RegexLib where
  regcomp : Octstr → Bool
  regexec : Octstr → Octstr → Bool

def permissiveRegex : RegexLib := ⟨fun _ => true, fun _ _ => true⟩

instance hundred_neZero : NeZero (100 * 2) := ⟨by decide⟩

structure SmscConn where
  status : SmscconnStatus
  whyKilled : SmscconnKilled
  chksum : Octstr
  chksumConn : Octstr
  id : Option Octstr
  allowedSmscId : Option (List Octstr)
  deniedSmscId : Option (List Octstr)
  preferredSmscId : Option (List Octstr)
  allowedSmscIdRegex : Ref Octstr
  deniedSmscIdRegex : Ref Octstr
  preferredSmscIdRegex : Ref Octstr
  allowedPrefix : Option Octstr
  allowedPrefixRegex : Ref Octstr
  deniedPrefix : Option Octstr
  deniedPrefixRegex : Ref Octstr
  preferredPrefix : Option Octstr
  preferredPrefixRegex : Ref Octstr
  unifiedPrefix : Option Octstr
  reroute : Bool
  rerouteByReceiver : Ref (Dict Octstr (100 * 2))
  rerouteByReceiverRegex : Ref (List (Octstr × Octstr))
  rerouteToSmsc : Ref Octstr
  rerouteDlr : Bool
  deadStart : Bool

variable {allowed denied : Bool} {check : Except Failure Bool} {conn : SmscConn}

section Usable
variable (re : RegexLib)

def gwRegexMatchAt (preg : Ref Octstr) (os : Option Octstr) : Except Failure Bool :=
  match preg, os with
  | .null, _ => .error .assertion
  | .live pattern, some os => .ok (re.regexec pattern (octstrGetCstr (some os)))
  | _, _ => .error .outside

def anyCheck : List (Except Failure Bool) → Except Failure Bool
  | [] => .ok false
  | .error failure :: _ => .error failure
  | .ok true :: _ => .ok true
  | .ok false :: checks => anyCheck checks

def SmscConn.gone (conn : SmscConn) : Bool :=
  conn.status = .dead ∨ conn.status = .activeRecv ∨ conn.whyKilled ≠ .alive

def deniedBySmscId (conn : SmscConn) (smscId : Option Octstr) : Bool :=
  (conn.allowedSmscId.any fun allowed => !smscId.any (· ∈ allowed)) ||
    conn.deniedSmscId.any fun denied => smscId.any (· ∈ denied)

def deniedBySmscIdRegex (conn : SmscConn) (smscId : Option Octstr) : Except Failure Bool :=
  if conn.allowedSmscIdRegex ≠ .null then
    if smscId = none then .ok true
    else (gwRegexMatchAt re conn.allowedSmscIdRegex smscId).map (!·)
  else if conn.deniedSmscIdRegex ≠ .null ∧ smscId ≠ none then
    gwRegexMatchAt re conn.deniedSmscIdRegex smscId
  else .ok false

def haveAllowed (allowed denied : Bool) (matchAllowed : Except Failure Bool) :
    Except Failure Bool :=
  if allowed && !denied then matchAllowed.map (!·) else .ok false

def haveDenied (allowed denied : Bool) (matchDenied : Except Failure Bool) : Except Failure Bool :=
  if denied && !allowed then matchDenied else .ok false

def haveBoth (allowed denied : Bool) (matchAllowed matchDenied : Except Failure Bool) :
    Except Failure Bool :=
  if allowed && denied then matchAllowed >>= fun hit => if hit then .ok false else matchDenied
  else .ok false

def deniedByReceiver (conn : SmscConn) (receiver : Option Octstr) : Except Failure Bool :=
  let allowed := conn.allowedPrefix.isSome
  let denied := conn.deniedPrefix.isSome
  let allowedRegex := conn.allowedPrefixRegex != .null
  let deniedRegex := conn.deniedPrefixRegex != .null
  anyCheck [
    haveAllowed allowed denied (doesPrefixMatch conn.allowedPrefix receiver),
    haveAllowed allowedRegex deniedRegex (gwRegexMatchAt re conn.allowedPrefixRegex receiver),
    haveDenied allowed denied (doesPrefixMatch conn.deniedPrefix receiver),
    haveDenied allowedRegex deniedRegex (gwRegexMatchAt re conn.deniedPrefixRegex receiver),
    haveBoth allowed denied (doesPrefixMatch conn.allowedPrefix receiver)
      (doesPrefixMatch conn.deniedPrefix receiver),
    haveBoth allowedRegex deniedRegex (gwRegexMatchAt re conn.allowedPrefixRegex receiver)
      (gwRegexMatchAt re conn.deniedPrefixRegex receiver)]

def isPreferred (conn : SmscConn) (smscId receiver : Option Octstr) : Except Failure Bool :=
  anyCheck [
    .ok (conn.preferredSmscId.any fun preferred => smscId.any (· ∈ preferred)),
    if conn.preferredPrefix ≠ none then doesPrefixMatch conn.preferredPrefix receiver
    else .ok false,
    if conn.preferredPrefixRegex ≠ .null then
      gwRegexMatchAt re conn.preferredPrefixRegex receiver
    else .ok false]

def smscconnUsable (conn : SmscConn) (msg : Sms) : Except Failure Int := do
  if ← anyCheck [.ok conn.gone, .ok (deniedBySmscId conn msg.smscId),
      deniedBySmscIdRegex re conn msg.smscId, deniedByReceiver re conn msg.receiver] then
    return -1
  if ← isPreferred re conn msg.smscId msg.receiver then return 1
  return 0

theorem anyCheck_ok : ∀ {checks : List (Except Failure Bool)},
    (∀ check ∈ checks, ∃ hit, check = .ok hit) → ∃ hit, anyCheck checks = .ok hit := by
  intro checks
  induction checks with
  | nil => exact fun _ => ⟨false, rfl⟩
  | cons check checks ih =>
    intro h
    obtain ⟨hit, rfl⟩ := h check mem_cons_self
    cases hit with
    | true => exact ⟨true, rfl⟩
    | false => exact ih fun c hc => h c (mem_cons_of_mem _ hc)

structure SmscConn.Sound (conn : SmscConn) : Prop where
  allowedSmscIdRegex : conn.allowedSmscIdRegex ≠ .freed
  deniedSmscIdRegex : conn.deniedSmscIdRegex ≠ .freed
  allowedPrefixRegex : conn.allowedPrefixRegex ≠ .freed
  deniedPrefixRegex : conn.deniedPrefixRegex ≠ .freed
  preferredPrefixRegex : conn.preferredPrefixRegex ≠ .freed

theorem gwRegexMatchAt_ok {preg : Ref Octstr} (hnull : preg ≠ .null) (hfreed : preg ≠ .freed)
    (os : Octstr) : ∃ hit, gwRegexMatchAt re preg (some os) = .ok hit := by
  cases preg with
  | null => exact absurd rfl hnull
  | live pattern => exact ⟨_, rfl⟩
  | freed => exact absurd rfl hfreed

theorem doesPrefixMatch_ok (prefixes number : Octstr) :
    ∃ hit, doesPrefixMatch (some prefixes) (some number) = .ok hit := ⟨_, rfl⟩

theorem haveAllowed_ok (h : allowed = true → ∃ hit, check = .ok hit) :
    ∃ hit, haveAllowed allowed denied check = .ok hit := by
  unfold haveAllowed
  split
  · rename_i hboth
    obtain ⟨hit, rfl⟩ := h (Bool.and_eq_true_iff.mp hboth).1
    exact ⟨_, rfl⟩
  · exact ⟨_, rfl⟩

theorem haveDenied_ok (h : denied = true → ∃ hit, check = .ok hit) :
    ∃ hit, haveDenied allowed denied check = .ok hit := by
  unfold haveDenied
  split
  · rename_i hboth
    exact h (Bool.and_eq_true_iff.mp hboth).1
  · exact ⟨_, rfl⟩

theorem haveBoth_ok {check' : Except Failure Bool} (h : allowed = true → ∃ hit, check = .ok hit)
    (h' : denied = true → ∃ hit, check' = .ok hit) :
    ∃ hit, haveBoth allowed denied check check' = .ok hit := by
  unfold haveBoth
  split
  · rename_i hboth
    obtain ⟨ha, hd⟩ := Bool.and_eq_true_iff.mp hboth
    obtain ⟨hit, rfl⟩ := h ha
    rw [ok_bind]
    split
    · exact ⟨_, rfl⟩
    · exact h' hd
  · exact ⟨_, rfl⟩

theorem deniedBySmscIdRegex_ok (hconn : conn.Sound) (smscId : Option Octstr) :
    ∃ hit, deniedBySmscIdRegex re conn smscId = .ok hit := by
  unfold deniedBySmscIdRegex
  cases smscId with
  | none =>
    split_ifs with h1 h2 h3
    · exact ⟨_, rfl⟩
    · exact absurd rfl h2
    · exact absurd rfl h3.2
    · exact ⟨_, rfl⟩
  | some id =>
    split_ifs with h1 h2 h3
    · cases h2
    · obtain ⟨hit, hhit⟩ := gwRegexMatchAt_ok re h1 hconn.allowedSmscIdRegex id
      exact ⟨!hit, by rw [hhit]; rfl⟩
    · exact gwRegexMatchAt_ok re h3.1 hconn.deniedSmscIdRegex id
    · exact ⟨_, rfl⟩

theorem deniedByReceiver_ok (hconn : conn.Sound) (receiver : Octstr) :
    ∃ hit, deniedByReceiver re conn (some receiver) = .ok hit := by
  have hnumber : ∀ prefixes : Option Octstr, prefixes.isSome = true →
      ∃ hit, doesPrefixMatch prefixes (some receiver) = .ok hit := by
    intro prefixes h
    obtain ⟨list, rfl⟩ := Option.isSome_iff_exists.mp h
    exact doesPrefixMatch_ok list receiver
  have hregex : ∀ preg : Ref Octstr, preg ≠ .freed → (preg != .null) = true →
      ∃ hit, gwRegexMatchAt re preg (some receiver) = .ok hit := by
    intro preg hfreed h
    exact gwRegexMatchAt_ok re (bne_iff_ne.mp h) hfreed receiver
  refine anyCheck_ok fun check hcheck => ?_
  simp only [mem_cons, not_mem_nil, or_false] at hcheck
  rcases hcheck with rfl | rfl | rfl | rfl | rfl | rfl
  · exact haveAllowed_ok (hnumber _)
  · exact haveAllowed_ok (hregex _ hconn.allowedPrefixRegex)
  · exact haveDenied_ok (hnumber _)
  · exact haveDenied_ok (hregex _ hconn.deniedPrefixRegex)
  · exact haveBoth_ok (hnumber _) (hnumber _)
  · exact haveBoth_ok (hregex _ hconn.allowedPrefixRegex) (hregex _ hconn.deniedPrefixRegex)

theorem isPreferred_ok (hconn : conn.Sound) (smscId : Option Octstr) (receiver : Octstr) :
    ∃ hit, isPreferred re conn smscId (some receiver) = .ok hit := by
  refine anyCheck_ok fun check hcheck => ?_
  simp only [mem_cons, not_mem_nil, or_false] at hcheck
  rcases hcheck with rfl | rfl | rfl
  · exact ⟨_, rfl⟩
  · split
    · rename_i h
      obtain ⟨list, hlist⟩ := Option.ne_none_iff_exists'.mp h
      rw [hlist]
      exact doesPrefixMatch_ok list receiver
    · exact ⟨_, rfl⟩
  · split
    · rename_i h
      exact gwRegexMatchAt_ok re h hconn.preferredPrefixRegex receiver
    · exact ⟨_, rfl⟩

theorem smscconnUsable_ok (hconn : conn.Sound) {msg : Sms} {receiver : Octstr}
    (hreceiver : msg.receiver = some receiver) : ∃ ret, smscconnUsable re conn msg = .ok ret := by
  unfold smscconnUsable
  obtain ⟨denied, hdenied⟩ : ∃ hit, anyCheck [.ok conn.gone,
      .ok (deniedBySmscId conn msg.smscId), deniedBySmscIdRegex re conn msg.smscId,
      deniedByReceiver re conn msg.receiver] = .ok hit := by
    refine anyCheck_ok fun check hcheck => ?_
    simp only [mem_cons, not_mem_nil, or_false] at hcheck
    rcases hcheck with rfl | rfl | rfl | rfl
    · exact ⟨_, rfl⟩
    · exact ⟨_, rfl⟩
    · exact deniedBySmscIdRegex_ok re hconn _
    · exact hreceiver ▸ deniedByReceiver_ok re hconn receiver
  obtain ⟨preferred, hpreferred⟩ := isPreferred_ok re hconn msg.smscId receiver
  rw [hdenied]
  cases denied with
  | true => exact ⟨-1, rfl⟩
  | false =>
    simp only [Bool.false_eq_true, if_false, hreceiver, hpreferred, ok_bind]
    cases preferred with
    | true => exact ⟨1, rfl⟩
    | false => exact ⟨0, rfl⟩

end Usable

section Directives
variable (re : RegexLib) (getenv : Octstr → Option Octstr)

def rerouteRules (rule : Octstr) : List (Octstr × Octstr) :=
  (octstrSplit rule semicolon).flatMap fun item =>
    match octstrSplit item comma with
    | [] => []
    | smsc :: receivers =>
      receivers.map fun receiver => (octstrStripBlanks receiver, octstrStripBlanks smsc)

def rerouteDict : List (Octstr × Octstr) → Dict Octstr (100 * 2) →
    Except Failure (Dict Octstr (100 * 2))
  | [], dict => .ok dict
  | (receiver, smsc) :: rules, dict =>
    let (isNew, dict) := dictPutOnce dict receiver (some smsc)
    if isNew then rerouteDict rules dict else .error .assertion

def initRerouteReceiver (conn : SmscConn) (grp : CfgGroup) : Except Failure SmscConn :=
  match cfgGet getenv grp (ascii "reroute-receiver") with
  | none => .ok conn
  | some rule => do
    let dict ← rerouteDict (rerouteRules rule) (dictCreate Octstr 100)
    return { conn with rerouteByReceiver := .live dict }

def initRerouteRegex (conn : SmscConn) (grp : CfgGroup) : SmscConn :=
  match cfgGet getenv grp (ascii "reroute-receiver-regex") with
  | none => conn
  | some rule =>
    { conn with
      rerouteByReceiverRegex := .live ((rerouteRules rule).filter fun r => re.regcomp r.1) }

def initReroute (conn : SmscConn) (grp : CfgGroup) : Except Failure SmscConn :=
  let conn := { conn with rerouteDlr := (cfgGetBool getenv grp (ascii "reroute-dlr")).getD false }
  match cfgGetBool getenv grp (ascii "reroute") with
  | some reroute => .ok { conn with reroute := reroute }
  | none =>
    let conn := { conn with reroute := false }
    match cfgGet getenv grp (ascii "reroute-smsc-id") with
    | some smsc => .ok { conn with rerouteToSmsc := .live smsc }
    | none => do
      let conn ← initRerouteReceiver getenv { conn with rerouteToSmsc := .null } grp
      return initRerouteRegex re getenv conn grp

def splitOptionalVal (grp : CfgGroup) (name : String) : Option (List Octstr) :=
  (cfgGet getenv grp (ascii name)).map (octstrSplit · semicolon)

def compileRegex (grp : CfgGroup) (name : String) : Except Failure (Ref Octstr) :=
  match cfgGet getenv grp (ascii name) with
  | none => .ok .null
  | some pattern => if re.regcomp pattern then .ok (.live pattern) else .error .assertion

def routingDirectives : List Octstr :=
  ["denied-smsc-id", "allowed-smsc-id", "preferred-smsc-id", "allowed-prefix", "denied-prefix",
    "preferred-prefix", "unified-prefix", "reroute", "reroute-smsc-id", "reroute-receiver",
    "reroute-receiver-regex", "reroute-dlr", "allowed-smsc-id-regex", "denied-smsc-id-regex",
    "preferred-smsc-id-regex", "allowed-prefix-regex", "denied-prefix-regex",
    "preferred-prefix-regex"].map ascii

def smscconnCreate (driver : CfgGroup → Bool) (grp : CfgGroup) :
    Except Failure (Option SmscConn) := do
  let allowedSmscIdRegex ← compileRegex re getenv grp "allowed-smsc-id-regex"
  let deniedSmscIdRegex ← compileRegex re getenv grp "denied-smsc-id-regex"
  let allowedPrefixRegex ← compileRegex re getenv grp "allowed-prefix-regex"
  let deniedPrefixRegex ← compileRegex re getenv grp "denied-prefix-regex"
  let preferredPrefixRegex ← compileRegex re getenv grp "preferred-prefix-regex"
  let conn ← initReroute re getenv
    { status := .connecting
      whyKilled := .alive
      chksum := cfgGetGroupChecksum grp []
      chksumConn := cfgGetGroupChecksum grp routingDirectives
      id := cfgGet getenv grp (ascii "smsc-id")
      allowedSmscId := splitOptionalVal getenv grp "allowed-smsc-id"
      deniedSmscId := splitOptionalVal getenv grp "denied-smsc-id"
      preferredSmscId := splitOptionalVal getenv grp "preferred-smsc-id"
      allowedSmscIdRegex := allowedSmscIdRegex
      deniedSmscIdRegex := deniedSmscIdRegex
      preferredSmscIdRegex := .null
      allowedPrefix := cfgGet getenv grp (ascii "allowed-prefix")
      allowedPrefixRegex := allowedPrefixRegex
      deniedPrefix := cfgGet getenv grp (ascii "denied-prefix")
      deniedPrefixRegex := deniedPrefixRegex
      preferredPrefix := cfgGet getenv grp (ascii "preferred-prefix")
      preferredPrefixRegex := preferredPrefixRegex
      unifiedPrefix := cfgGet getenv grp (ascii "unified-prefix")
      reroute := false
      rerouteByReceiver := .null
      rerouteByReceiverRegex := .null
      rerouteToSmsc := .null
      rerouteDlr := false
      deadStart := (cfgGetBool getenv grp (ascii "dead-start")).getD false } grp
  return if driver grp then some conn else none

def getOptionalRegex (x : Ref Octstr) (grp : CfgGroup) (name : String) : Ref Octstr :=
  match cfgGet getenv grp (ascii name) with
  | none => x.destroy
  | some pattern => if re.regcomp pattern then .live pattern else .null

def smscconnReconfig (conn : SmscConn) (grp : CfgGroup) : Except Failure SmscConn := do
  let conn ← initReroute re getenv
    { conn with
      allowedSmscId := splitOptionalVal getenv grp "allowed-smsc-id"
      deniedSmscId := splitOptionalVal getenv grp "denied-smsc-id"
      preferredSmscId := splitOptionalVal getenv grp "preferred-smsc-id"
      allowedPrefix := cfgGet getenv grp (ascii "allowed-prefix")
      deniedPrefix := cfgGet getenv grp (ascii "denied-prefix")
      preferredPrefix := cfgGet getenv grp (ascii "preferred-prefix")
      unifiedPrefix := cfgGet getenv grp (ascii "unified-prefix")
      allowedSmscIdRegex :=
        getOptionalRegex re getenv conn.allowedSmscIdRegex grp "allowed-smsc-id-regex"
      deniedSmscIdRegex :=
        getOptionalRegex re getenv conn.deniedSmscIdRegex grp "denied-smsc-id-regex"
      preferredSmscIdRegex :=
        getOptionalRegex re getenv conn.preferredSmscIdRegex grp "preferred-smsc-id-regex"
      allowedPrefixRegex :=
        getOptionalRegex re getenv conn.allowedPrefixRegex grp "allowed-prefix-regex"
      deniedPrefixRegex :=
        getOptionalRegex re getenv conn.deniedPrefixRegex grp "denied-prefix-regex"
      preferredPrefixRegex :=
        getOptionalRegex re getenv conn.preferredPrefixRegex grp "preferred-prefix-regex"
      rerouteToSmsc := conn.rerouteToSmsc.destroy
      rerouteByReceiver := conn.rerouteByReceiver.destroy
      rerouteByReceiverRegex := conn.rerouteByReceiverRegex.destroy } grp
  return { conn with chksum := cfgGetGroupChecksum grp [] }

end Directives

inductive Rerouting
  | stay | onward
  | towards (smscId : Octstr)
  deriving DecidableEq, Repr

def rerouteByRegex (re : RegexLib) (rules : Ref (List (Octstr × Octstr))) (receiver : Octstr) :
    Except Failure Rerouting :=
  match rules with
  | .null => .ok .stay
  | .freed => .error .outside
  | .live rules =>
    match rules.find? fun r => re.regexec r.1 (octstrGetCstr (some receiver)) with
    | none => .ok .stay
    | some r => .ok (.towards r.2)

def rerouteByNumber (re : RegexLib) (conn : SmscConn) (receiver : Octstr) :
    Except Failure Rerouting :=
  match conn.rerouteByReceiver with
  | .freed => .error .outside
  | .live dict =>
    match dictGet dict receiver with
    | some smsc => .ok (.towards smsc)
    | none => rerouteByRegex re conn.rerouteByReceiverRegex receiver
  | .null => rerouteByRegex re conn.rerouteByReceiverRegex receiver

def routeIncomingToSmsc (re : RegexLib) (conn : SmscConn) (msg : Sms) : Except Failure Rerouting :=
  if !conn.rerouteDlr ∧ (msg.smsType = reportMo ∨ msg.smsType = reportMt) then .ok .stay
  else if conn.reroute then .ok .onward
  else
    match conn.rerouteToSmsc with
    | .freed => .error .outside
    | .live smsc => .ok (.towards smsc)
    | .null =>
      match msg.receiver with
      | none => .ok .stay
      | some receiver => rerouteByNumber re conn receiver

end Kannel
