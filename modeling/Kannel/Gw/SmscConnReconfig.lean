import Kannel.Gw.SmscConnStale

/-!
# Reading the routing directives again

An expression whose directive is gone is destroyed while its pointer stays, and `init_reroute`
assigns the pointers to its destroyed rules only on the way it takes.
-/

namespace Kannel

variable {after conn' : SmscConn} {grp : CfgGroup}

section Reading
variable (re : RegexLib) (getenv : Octstr → Option Octstr)

def regexOf (grp : CfgGroup) (name : String) : Ref Octstr :=
  match cfgGet getenv grp (ascii name) with
  | none => .null
  | some pattern => .live pattern

def goneDirective (old new : CfgGroup) (name : String) : Bool :=
  (cfgGet getenv old (ascii name)).isSome && (cfgGet getenv new (ascii name)).isNone

def RulesHidden (grp : CfgGroup) : Prop :=
  cfgGetBool getenv grp (ascii "reroute") ≠ none ∨
    cfgGet getenv grp (ascii "reroute-smsc-id") ≠ none

structure RulesRead (grp : CfgGroup) (before after : SmscConn) : Prop where
  reroute : after.reroute = (cfgGetBool getenv grp (ascii "reroute")).getD false
  rerouteDlr : after.rerouteDlr = (cfgGetBool getenv grp (ascii "reroute-dlr")).getD false
  kept : cfgGetBool getenv grp (ascii "reroute") ≠ none → after.rerouteToSmsc = before.rerouteToSmsc
  target : cfgGetBool getenv grp (ascii "reroute") = none →
    after.rerouteToSmsc = regexOf getenv grp "reroute-smsc-id"
  keptReceivers : RulesHidden getenv grp ∨ cfgGet getenv grp (ascii "reroute-receiver") = none →
    after.rerouteByReceiver = before.rerouteByReceiver
  receivers : ¬ RulesHidden getenv grp → ∀ rule,
    cfgGet getenv grp (ascii "reroute-receiver") = some rule →
    ∃ dict, rerouteDict (rerouteRules rule) (dictCreate Octstr 100) = .ok dict ∧
      after.rerouteByReceiver = .live dict
  keptPatterns : RulesHidden getenv grp ∨
      cfgGet getenv grp (ascii "reroute-receiver-regex") = none →
    after.rerouteByReceiverRegex = before.rerouteByReceiverRegex
  patterns : ¬ RulesHidden getenv grp → ∀ rule,
    cfgGet getenv grp (ascii "reroute-receiver-regex") = some rule →
    after.rerouteByReceiverRegex = .live ((rerouteRules rule).filter fun r => re.regcomp r.1)
  others : ∃ reroute rerouteDlr rerouteToSmsc rerouteByReceiver rerouteByReceiverRegex, after =
    { before with
      reroute := reroute
      rerouteDlr := rerouteDlr
      rerouteToSmsc := rerouteToSmsc
      rerouteByReceiver := rerouteByReceiver
      rerouteByReceiverRegex := rerouteByReceiverRegex }

variable {re getenv} {before : SmscConn}

theorem initRerouteReceiver_cases (h : initRerouteReceiver getenv before grp = .ok after) :
    ∃ dict, after = { before with rerouteByReceiver := dict } ∧
      (cfgGet getenv grp (ascii "reroute-receiver") = none → dict = before.rerouteByReceiver) ∧
      ∀ rule, cfgGet getenv grp (ascii "reroute-receiver") = some rule →
        ∃ d, rerouteDict (rerouteRules rule) (dictCreate Octstr 100) = .ok d ∧ dict = .live d := by
  unfold initRerouteReceiver at h
  split at h
  · rename_i hnone
    cases h
    exact ⟨_, rfl, fun _ => rfl, fun rule hrule => by rw [hnone] at hrule; cases hrule⟩
  · rename_i rule hsome
    obtain ⟨d, hd, h⟩ := bind_eq_ok_iff.mp h
    cases h
    refine ⟨_, rfl, fun hnone => absurd (hsome.symm.trans hnone) (Option.some_ne_none _),
      fun rule' hrule => ?_⟩
    rw [hsome] at hrule
    cases hrule
    exact ⟨d, hd, rfl⟩

theorem initRerouteRegex_cases (re : RegexLib) (getenv : Octstr → Option Octstr)
    (grp : CfgGroup) (conn : SmscConn) :
    ∃ patterns, initRerouteRegex re getenv conn grp =
        { conn with rerouteByReceiverRegex := patterns } ∧
      (cfgGet getenv grp (ascii "reroute-receiver-regex") = none →
        patterns = conn.rerouteByReceiverRegex) ∧
      ∀ rule, cfgGet getenv grp (ascii "reroute-receiver-regex") = some rule →
        patterns = .live ((rerouteRules rule).filter fun r => re.regcomp r.1) := by
  unfold initRerouteRegex
  split
  · rename_i hnone
    exact ⟨_, rfl, fun _ => rfl, fun rule hrule => by rw [hnone] at hrule; cases hrule⟩
  · rename_i rule hsome
    refine ⟨_, rfl, fun hnone => absurd (hsome.symm.trans hnone) (Option.some_ne_none _),
      fun rule' hrule => ?_⟩
    rw [hsome] at hrule
    cases hrule
    rfl

theorem initReroute_reads (h : initReroute re getenv before grp = .ok after) :
    RulesRead re getenv grp before after := by
  unfold initReroute at h
  dsimp only at h
  split at h
  · rename_i reroute hreroute
    have hhidden : RulesHidden getenv grp := .inl (by simp [hreroute])
    cases h
    exact {
      reroute := by rw [hreroute]; rfl
      rerouteDlr := rfl
      kept := fun _ => rfl
      target := fun hnone => by rw [hreroute] at hnone; cases hnone
      keptReceivers := fun _ => rfl
      receivers := fun hnot => absurd hhidden hnot
      keptPatterns := fun _ => rfl
      patterns := fun hnot => absurd hhidden hnot
      others := ⟨_, _, _, _, _, rfl⟩ }
  · rename_i hreroute
    split at h
    · rename_i smsc hsmsc
      have hhidden : RulesHidden getenv grp := .inr (by simp [hsmsc])
      cases h
      exact {
        reroute := by rw [hreroute]; rfl
        rerouteDlr := rfl
        kept := fun hsome => absurd hreroute hsome
        target := fun _ => by rw [regexOf, hsmsc]
        keptReceivers := fun _ => rfl
        receivers := fun hnot => absurd hhidden hnot
        keptPatterns := fun _ => rfl
        patterns := fun hnot => absurd hhidden hnot
        others := ⟨_, _, _, _, _, rfl⟩ }
    · rename_i hsmsc
      have hopen : ¬ RulesHidden getenv grp := fun hhidden =>
        hhidden.elim (fun hsome => hsome hreroute) fun hsome => hsome hsmsc
      obtain ⟨conn, hconn, h⟩ := bind_eq_ok_iff.mp h
      obtain ⟨dict, rfl, hdict, hrule⟩ := initRerouteReceiver_cases hconn
      obtain ⟨patterns, hpatterns, hnone, hregex⟩ := initRerouteRegex_cases re getenv grp _
      rw [hpatterns] at h
      cases h
      exact {
        reroute := by rw [hreroute]; rfl
        rerouteDlr := rfl
        kept := fun hsome => absurd hreroute hsome
        target := fun _ => by rw [regexOf, hsmsc]
        keptReceivers := fun hkept => hdict (hkept.resolve_left hopen)
        receivers := fun _ => hrule
        keptPatterns := fun hkept => hnone (hkept.resolve_left hopen)
        patterns := fun _ => hregex
        others := ⟨_, _, _, _, _, rfl⟩ }

theorem initReroute_ok {before before' : SmscConn}
    (h : initReroute re getenv before grp = .ok after) :
    ∃ after', initReroute re getenv before' grp = .ok after' := by
  unfold initReroute at h ⊢
  split at h
  · exact ⟨_, rfl⟩
  · split at h
    · exact ⟨_, rfl⟩
    · obtain ⟨conn, hconn, -⟩ := bind_eq_ok_iff.mp h
      unfold initRerouteReceiver at hconn ⊢
      split at hconn
      · exact ⟨_, rfl⟩
      · obtain ⟨dict, hdict, -⟩ := bind_eq_ok_iff.mp hconn
        rw [hdict]
        exact ⟨_, rfl⟩

structure ReadFrom (re : RegexLib) (getenv : Octstr → Option Octstr) (grp : CfgGroup)
    (conn : SmscConn) : Prop where
  chksum : conn.chksum = cfgGetGroupChecksum grp []
  chksumConn : conn.chksumConn = cfgGetGroupChecksum grp routingDirectives
  allowedSmscId : conn.allowedSmscId = splitOptionalVal getenv grp "allowed-smsc-id"
  deniedSmscId : conn.deniedSmscId = splitOptionalVal getenv grp "denied-smsc-id"
  preferredSmscId : conn.preferredSmscId = splitOptionalVal getenv grp "preferred-smsc-id"
  allowedPrefix : conn.allowedPrefix = cfgGet getenv grp (ascii "allowed-prefix")
  deniedPrefix : conn.deniedPrefix = cfgGet getenv grp (ascii "denied-prefix")
  preferredPrefix : conn.preferredPrefix = cfgGet getenv grp (ascii "preferred-prefix")
  allowedSmscIdRegex :
    compileRegex re getenv grp "allowed-smsc-id-regex" = .ok conn.allowedSmscIdRegex
  deniedSmscIdRegex : compileRegex re getenv grp "denied-smsc-id-regex" = .ok conn.deniedSmscIdRegex
  allowedPrefixRegex :
    compileRegex re getenv grp "allowed-prefix-regex" = .ok conn.allowedPrefixRegex
  deniedPrefixRegex : compileRegex re getenv grp "denied-prefix-regex" = .ok conn.deniedPrefixRegex
  preferredPrefixRegex :
    compileRegex re getenv grp "preferred-prefix-regex" = .ok conn.preferredPrefixRegex
  rules : ∃ before : SmscConn, RulesRead re getenv grp before conn ∧
    before.rerouteToSmsc = .null ∧ before.rerouteByReceiver = .null ∧
    before.rerouteByReceiverRegex = .null
  readable : ∃ before after : SmscConn, initReroute re getenv before grp = .ok after

variable {conn : SmscConn}

theorem smscconnCreate_reads {driver : CfgGroup → Bool}
    (h : smscconnCreate re getenv driver grp = .ok (some conn)) : ReadFrom re getenv grp conn := by
  obtain ⟨allowedSmscIdRegex, h1, h⟩ := bind_eq_ok_iff.mp h
  obtain ⟨deniedSmscIdRegex, h2, h⟩ := bind_eq_ok_iff.mp h
  obtain ⟨allowedPrefixRegex, h3, h⟩ := bind_eq_ok_iff.mp h
  obtain ⟨deniedPrefixRegex, h4, h⟩ := bind_eq_ok_iff.mp h
  obtain ⟨preferredPrefixRegex, h5, h⟩ := bind_eq_ok_iff.mp h
  obtain ⟨created, hinit, h⟩ := bind_eq_ok_iff.mp h
  have hcreated : created = conn := by
    split at h
    · cases h
      rfl
    · cases h
  subst hcreated
  have hreads := initReroute_reads hinit
  obtain ⟨reroute, rerouteDlr, toSmsc, byReceiver, byRegex, rfl⟩ := hreads.others
  exact ⟨rfl, rfl, rfl, rfl, rfl, rfl, rfl, rfl, h1, h2, h3, h4, h5, ⟨_, hreads, rfl, rfl, rfl⟩, _,
    _, hinit⟩

theorem compileRegex_cases {name : String} {preg : Ref Octstr}
    (h : compileRegex re getenv grp name = .ok preg) :
    preg = regexOf getenv grp name ∧
      ∀ pattern, cfgGet getenv grp (ascii name) = some pattern → re.regcomp pattern = true := by
  unfold compileRegex at h
  unfold regexOf
  split at h
  · rename_i hnone
    cases h
    rw [hnone]
    exact ⟨rfl, fun pattern hsome => by cases hsome⟩
  · rename_i pattern hsome
    rw [hsome]
    split at h
    · rename_i hcomp
      cases h
      refine ⟨rfl, fun pattern' heq => ?_⟩
      cases heq
      exact hcomp
    · cases h

variable {old new : CfgGroup}

theorem getOptionalRegex_stale {name : String} {preg preg' : Ref Octstr}
    (hold : compileRegex re getenv old name = .ok preg)
    (hnew : compileRegex re getenv new name = .ok preg') :
    StalePattern (goneDirective getenv old new name) (getOptionalRegex re getenv preg new name)
      preg' := by
  obtain ⟨rfl, -⟩ := compileRegex_cases hold
  obtain ⟨rfl, hcomp⟩ := compileRegex_cases hnew
  unfold goneDirective getOptionalRegex regexOf
  cases hnew : cfgGet getenv new (ascii name) with
  | some pattern =>
    dsimp only
    rw [if_pos (hcomp pattern hnew)]
    refine ⟨nofun, fun hgone => ?_, fun _ => rfl⟩
    rw [Option.isNone_some, Bool.and_false] at hgone
    cases hgone
  | none =>
    cases cfgGet getenv old (ascii name) with
    | none => exact ⟨nofun, nofun, fun _ => rfl⟩
    | some pattern => exact ⟨nofun, fun _ => ⟨rfl, rfl⟩, nofun⟩

variable {α : Type}

theorem destroy_eq_null_iff (x : Ref α) : x.destroy = .null ↔ x = .null := by
  cases x <;> simp [Ref.destroy]

theorem StaleRef.destroy (x : Ref α) : StaleRef x.destroy .null := by
  refine ⟨nofun, ?_⟩
  cases x with
  | null => exact .inl rfl
  | live value => exact .inr ⟨rfl, rfl⟩
  | freed => exact .inr ⟨rfl, rfl⟩

theorem StaleRef.refl {x : Ref α} (h : x ≠ .freed) : StaleRef x x := ⟨h, .inl rfl⟩

theorem regexOf_ne_freed (grp : CfgGroup) (name : String) : regexOf getenv grp name ≠ .freed := by
  unfold regexOf
  cases cfgGet getenv grp (ascii name) <;> nofun

theorem regexOf_eq_null_iff (grp : CfgGroup) (name : String) :
    regexOf getenv grp name = .null ↔ cfgGet getenv grp (ascii name) = none := by
  unfold regexOf
  cases cfgGet getenv grp (ascii name) <;> simp

variable (getenv) in
def OwnsTarget (grp : CfgGroup) : Prop :=
  cfgGetBool getenv grp (ascii "reroute") = none ∧
    cfgGet getenv grp (ascii "reroute-smsc-id") ≠ none

variable (getenv) in
def OwnsRules (grp : CfgGroup) (name : String) : Prop :=
  ¬ RulesHidden getenv grp ∧ cfgGet getenv grp (ascii name) ≠ none

variable (getenv) in
def KeepsFreedRules (old new : CfgGroup) : Prop :=
  cfgGetBool getenv new (ascii "reroute") = some false ∧
      (OwnsTarget getenv old ∨ OwnsRules getenv old "reroute-receiver" ∨
        OwnsRules getenv old "reroute-receiver-regex") ∨
    ¬ RulesHidden getenv new ∧
      (OwnsRules getenv old "reroute-receiver" ∧
          cfgGet getenv new (ascii "reroute-receiver") = none ∨
        OwnsRules getenv old "reroute-receiver-regex" ∧
          cfgGet getenv new (ascii "reroute-receiver-regex") = none)

variable {before conn : SmscConn}

theorem RulesRead.owns (h : RulesRead re getenv grp before conn)
    (htarget : before.rerouteToSmsc = .null) (hreceivers : before.rerouteByReceiver = .null)
    (hpatterns : before.rerouteByReceiverRegex = .null) :
    (conn.rerouteToSmsc = .null ↔ ¬ OwnsTarget getenv grp) ∧
      (conn.rerouteByReceiver = .null ↔ ¬ OwnsRules getenv grp "reroute-receiver") ∧
      (conn.rerouteByReceiverRegex = .null ↔ ¬ OwnsRules getenv grp "reroute-receiver-regex") := by
  refine ⟨?_, ?_, ?_⟩
  · by_cases hreroute : cfgGetBool getenv grp (ascii "reroute") = none
    · rw [h.target hreroute, regexOf_eq_null_iff]
      simp [OwnsTarget, hreroute]
    · rw [h.kept hreroute, htarget]
      simp [OwnsTarget, hreroute]
  · by_cases hkept : RulesHidden getenv grp ∨ cfgGet getenv grp (ascii "reroute-receiver") = none
    · rw [h.keptReceivers hkept, hreceivers]
      exact ⟨fun _ howns => hkept.elim howns.1 howns.2, fun _ => rfl⟩
    · rw [not_or] at hkept
      obtain ⟨rule, hrule⟩ := Option.ne_none_iff_exists'.mp hkept.2
      obtain ⟨dict, -, hlive⟩ := h.receivers hkept.1 rule hrule
      rw [hlive]
      exact ⟨nofun, fun hnot => absurd hkept hnot⟩
  · by_cases hkept : RulesHidden getenv grp ∨
        cfgGet getenv grp (ascii "reroute-receiver-regex") = none
    · rw [h.keptPatterns hkept, hpatterns]
      exact ⟨fun _ howns => hkept.elim howns.1 howns.2, fun _ => rfl⟩
    · rw [not_or] at hkept
      obtain ⟨rule, hrule⟩ := Option.ne_none_iff_exists'.mp hkept.2
      rw [h.patterns hkept.1 rule hrule]
      exact ⟨nofun, fun hnot => absurd hkept hnot⟩

theorem staleRules_of_reads {before conn before' fresh : SmscConn}
    (h : RulesRead re getenv grp before conn) (hfresh : RulesRead re getenv grp before' fresh)
    (htarget : StaleRef before.rerouteToSmsc before'.rerouteToSmsc)
    (hreceivers : StaleRef before.rerouteByReceiver before'.rerouteByReceiver)
    (hpatterns : StaleRef before.rerouteByReceiverRegex before'.rerouteByReceiverRegex) :
    StaleRules conn fresh where
  reroute := h.reroute.trans hfresh.reroute.symm
  rerouteDlr := h.rerouteDlr.trans hfresh.rerouteDlr.symm
  rerouteToSmsc := by
    by_cases hreroute : cfgGetBool getenv grp (ascii "reroute") = none
    · rw [h.target hreroute, hfresh.target hreroute]
      exact .refl (regexOf_ne_freed grp _)
    · rw [h.kept hreroute, hfresh.kept hreroute]
      exact htarget
  rerouteByReceiver := by
    by_cases hkept : RulesHidden getenv grp ∨ cfgGet getenv grp (ascii "reroute-receiver") = none
    · rw [h.keptReceivers hkept, hfresh.keptReceivers hkept]
      exact hreceivers
    · rw [not_or] at hkept
      obtain ⟨rule, hrule⟩ := Option.ne_none_iff_exists'.mp hkept.2
      obtain ⟨dict, hdict, hlive⟩ := h.receivers hkept.1 rule hrule
      obtain ⟨dict', hdict', hlive'⟩ := hfresh.receivers hkept.1 rule hrule
      rw [hdict] at hdict'
      cases hdict'
      rw [hlive, hlive']
      exact .refl nofun
  rerouteByReceiverRegex := by
    by_cases hkept : RulesHidden getenv grp ∨
        cfgGet getenv grp (ascii "reroute-receiver-regex") = none
    · rw [h.keptPatterns hkept, hfresh.keptPatterns hkept]
      exact hpatterns
    · rw [not_or] at hkept
      obtain ⟨rule, hrule⟩ := Option.ne_none_iff_exists'.mp hkept.2
      rw [h.patterns hkept.1 rule hrule, hfresh.patterns hkept.1 rule hrule]
      exact .refl nofun

structure BothRead (re : RegexLib) (getenv : Octstr → Option Octstr) (old new : CfgGroup)
    (before conn before' fresh : SmscConn) : Prop where
  reads : RulesRead re getenv new before conn
  freshReads : RulesRead re getenv new before' fresh
  target : (before.rerouteToSmsc = before'.rerouteToSmsc ↔ ¬ OwnsTarget getenv old) ∧
    StaleRef before.rerouteToSmsc before'.rerouteToSmsc ∧ before'.rerouteToSmsc = .null
  receivers : (before.rerouteByReceiver = before'.rerouteByReceiver ↔
      ¬ OwnsRules getenv old "reroute-receiver") ∧
    StaleRef before.rerouteByReceiver before'.rerouteByReceiver
  patterns : (before.rerouteByReceiverRegex = before'.rerouteByReceiverRegex ↔
      ¬ OwnsRules getenv old "reroute-receiver-regex") ∧
    StaleRef before.rerouteByReceiverRegex before'.rerouteByReceiverRegex

section BothRead
variable {old new : CfgGroup} {before conn before' fresh : SmscConn}

section Both
variable (h : BothRead re getenv old new before conn before' fresh)
include h

theorem BothRead.staleRules : StaleRules conn fresh :=
  staleRules_of_reads h.reads h.freshReads h.target.2.1 h.receivers.2 h.patterns.2

theorem BothRead.receivers_iff :
    conn.rerouteByReceiver = fresh.rerouteByReceiver ↔
      ¬ (OwnsRules getenv old "reroute-receiver" ∧ (RulesHidden getenv new ∨
        cfgGet getenv new (ascii "reroute-receiver") = none)) := by
  by_cases hkept : RulesHidden getenv new ∨ cfgGet getenv new (ascii "reroute-receiver") = none
  · rw [h.reads.keptReceivers hkept, h.freshReads.keptReceivers hkept, h.receivers.1]
    simp only [hkept, and_true]
  · simp only [hkept, and_false, not_false_eq_true, iff_true]
    rw [not_or] at hkept
    obtain ⟨rule, hrule⟩ := Option.ne_none_iff_exists'.mp hkept.2
    obtain ⟨dict, -, hlive⟩ := h.reads.receivers hkept.1 rule hrule
    refine h.staleRules.rerouteByReceiver.2.resolve_right fun hfreed => ?_
    rw [hlive] at hfreed
    cases hfreed.1

theorem BothRead.patterns_iff :
    conn.rerouteByReceiverRegex = fresh.rerouteByReceiverRegex ↔
      ¬ (OwnsRules getenv old "reroute-receiver-regex" ∧ (RulesHidden getenv new ∨
        cfgGet getenv new (ascii "reroute-receiver-regex") = none)) := by
  by_cases hkept : RulesHidden getenv new ∨
      cfgGet getenv new (ascii "reroute-receiver-regex") = none
  · rw [h.reads.keptPatterns hkept, h.freshReads.keptPatterns hkept, h.patterns.1]
    simp only [hkept, and_true]
  · simp only [hkept, and_false, not_false_eq_true, iff_true]
    rw [not_or] at hkept
    obtain ⟨rule, hrule⟩ := Option.ne_none_iff_exists'.mp hkept.2
    refine h.staleRules.rerouteByReceiverRegex.2.resolve_right fun hfreed => ?_
    rw [h.reads.patterns hkept.1 rule hrule] at hfreed
    cases hfreed.1

theorem BothRead.rules_iff :
    (conn.reroute = false → conn.rerouteToSmsc = fresh.rerouteToSmsc ∧
      (conn.rerouteToSmsc = .null → conn.rerouteByReceiver = fresh.rerouteByReceiver ∧
        conn.rerouteByReceiverRegex = fresh.rerouteByReceiverRegex)) ↔
      ¬ KeepsFreedRules getenv old new := by
  rw [h.receivers_iff, h.patterns_iff, h.reads.reroute]
  unfold KeepsFreedRules
  cases hreroute : cfgGetBool getenv new (ascii "reroute") with
  | some reroute =>
    have hsome : cfgGetBool getenv new (ascii "reroute") ≠ none := by simp [hreroute]
    have hhidden : RulesHidden getenv new := .inl hsome
    have hnull : conn.rerouteToSmsc = .null ↔ ¬ OwnsTarget getenv old := by
      rw [h.reads.kept hsome, ← h.target.1, h.target.2.2]
    rw [hnull, h.reads.kept hsome, h.freshReads.kept hsome, h.target.1]
    simp only [hhidden, true_or, and_true, not_true_eq_false, false_and, or_false]
    cases reroute with
    | true => simp
    | false =>
      simp only [Option.getD_some, true_and, forall_const, not_or]
      constructor
      · exact fun hkept => ⟨hkept.1, hkept.2 hkept.1⟩
      · exact fun hkept => ⟨hkept.1, fun _ => hkept.2⟩
  | none =>
    have hnull : conn.rerouteToSmsc = .null ↔ ¬ RulesHidden getenv new := by
      rw [h.reads.target hreroute, regexOf_eq_null_iff]
      simp [RulesHidden, hreroute]
    rw [hnull, h.reads.target hreroute, h.freshReads.target hreroute]
    by_cases hhidden : RulesHidden getenv new
    · simp [hhidden]
    · simp [hhidden, not_or]

end Both
end BothRead

theorem smscconnReconfig_cases (h : smscconnReconfig re getenv conn grp = .ok conn') :
    ∃ before after, initReroute re getenv before grp = .ok after ∧
      conn' = { after with chksum := cfgGetGroupChecksum grp [] } ∧
      before.rerouteToSmsc = conn.rerouteToSmsc.destroy ∧
      before.rerouteByReceiver = conn.rerouteByReceiver.destroy ∧
      before.rerouteByReceiverRegex = conn.rerouteByReceiverRegex.destroy := by
  obtain ⟨after, hinit, h⟩ := bind_eq_ok_iff.mp h
  cases h
  exact ⟨_, after, hinit, rfl, rfl, rfl, rfl⟩

theorem smscconnReconfig_chksums (h : smscconnReconfig re getenv conn grp = .ok conn') :
    conn'.chksum = cfgGetGroupChecksum grp [] ∧ conn'.chksumConn = conn.chksumConn := by
  obtain ⟨after, hinit, h⟩ := bind_eq_ok_iff.mp h
  obtain ⟨reroute, rerouteDlr, toSmsc, byReceiver, byRegex, rfl⟩ := (initReroute_reads hinit).others
  cases h
  exact ⟨rfl, rfl⟩

variable {conn fresh : SmscConn}

section
variable (hold : ReadFrom re getenv old conn) (hnew : ReadFrom re getenv new fresh)
  (h : smscconnReconfig re getenv conn new = .ok conn')
include hold hnew h

theorem smscconnReconfig_stale :
    Stale (goneDirective getenv old new) conn' fresh := by
  obtain ⟨after, hinit, h⟩ := bind_eq_ok_iff.mp h
  obtain ⟨reroute, rerouteDlr, toSmsc, byReceiver, byRegex, rfl⟩ := (initReroute_reads hinit).others
  cases h
  exact {
    allowedSmscId := hnew.allowedSmscId.symm
    deniedSmscId := hnew.deniedSmscId.symm
    preferredSmscId := hnew.preferredSmscId.symm
    allowedPrefix := hnew.allowedPrefix.symm
    deniedPrefix := hnew.deniedPrefix.symm
    preferredPrefix := hnew.preferredPrefix.symm
    allowedSmscIdRegex := getOptionalRegex_stale hold.allowedSmscIdRegex hnew.allowedSmscIdRegex
    deniedSmscIdRegex := getOptionalRegex_stale hold.deniedSmscIdRegex hnew.deniedSmscIdRegex
    allowedPrefixRegex := getOptionalRegex_stale hold.allowedPrefixRegex hnew.allowedPrefixRegex
    deniedPrefixRegex := getOptionalRegex_stale hold.deniedPrefixRegex hnew.deniedPrefixRegex
    preferredPrefixRegex :=
      getOptionalRegex_stale hold.preferredPrefixRegex hnew.preferredPrefixRegex }

theorem smscconnReconfig_bothRead :
    ∃ before before' after, BothRead re getenv old new before after before' fresh ∧
      conn' = { after with chksum := cfgGetGroupChecksum new [] } := by
  obtain ⟨before, after, hinit, rfl, htarget, hreceivers, hpatterns⟩ := smscconnReconfig_cases h
  obtain ⟨first, hfirst, hfirstTarget, hfirstReceivers, hfirstPatterns⟩ := hold.rules
  obtain ⟨before', hfresh, hnullTarget, hnullReceivers, hnullPatterns⟩ := hnew.rules
  obtain ⟨hownsTarget, hownsReceivers, hownsPatterns⟩ :=
    hfirst.owns hfirstTarget hfirstReceivers hfirstPatterns
  refine ⟨before, before', after, ?_, rfl⟩
  exact {
    reads := initReroute_reads hinit
    freshReads := hfresh
    target := by
      rw [htarget, hnullTarget, destroy_eq_null_iff]
      exact ⟨hownsTarget, .destroy _, rfl⟩
    receivers := by
      rw [hreceivers, hnullReceivers, destroy_eq_null_iff]
      exact ⟨hownsReceivers, .destroy _⟩
    patterns := by
      rw [hpatterns, hnullPatterns, destroy_eq_null_iff]
      exact ⟨hownsPatterns, .destroy _⟩ }

end

theorem RulesRead.inState (h : RulesRead re getenv grp before conn) (status : SmscconnStatus)
    (whyKilled : SmscconnKilled) :
    RulesRead re getenv grp (before.inState status whyKilled) (conn.inState status whyKilled) where
  reroute := h.reroute
  rerouteDlr := h.rerouteDlr
  kept := h.kept
  target := h.target
  keptReceivers := h.keptReceivers
  receivers := h.receivers
  keptPatterns := h.keptPatterns
  patterns := h.patterns
  others := by
    obtain ⟨reroute, rerouteDlr, toSmsc, byReceiver, byRegex, rfl⟩ := h.others
    exact ⟨reroute, rerouteDlr, toSmsc, byReceiver, byRegex, rfl⟩

theorem ReadFrom.inState (h : ReadFrom re getenv grp conn) (status : SmscconnStatus)
    (whyKilled : SmscconnKilled) :
    ReadFrom re getenv grp (conn.inState status whyKilled) := by
  obtain ⟨before, hreads, htarget, hreceivers, hpatterns⟩ := h.rules
  exact { h with
    rules := ⟨_, hreads.inState status whyKilled, htarget, hreceivers, hpatterns⟩ }

theorem smscconnReconfig_ok {fresh : SmscConn} (h : ReadFrom re getenv grp fresh)
    (conn : SmscConn) : ∃ conn', smscconnReconfig re getenv conn grp = .ok conn' := by
  obtain ⟨before, after, hinit⟩ := h.readable
  obtain ⟨after', hafter'⟩ := initReroute_ok hinit
  exact ⟨_, bind_eq_ok_iff.mpr ⟨after', hafter', rfl⟩⟩

/-- **Changed directives.**  A connection that reads the new group's directives routes as one
created from it, unless a message gets to an expression whose directive is gone, or it keeps
freed rules for incoming messages. -/
theorem smscconnReconfig_routesAlike_iff (re : RegexLib) (getenv : Octstr → Option Octstr)
    (driver : CfgGroup → Bool) {old new : CfgGroup} {conn fresh : SmscConn}
    (hold : smscconnCreate re getenv driver old = .ok (some conn))
    (hnew : smscconnCreate re getenv driver new = .ok (some fresh))
    (status : SmscconnStatus) (whyKilled : SmscconnKilled) :
    ∃ conn', smscconnReconfig re getenv (conn.inState status whyKilled) new = .ok conn' ∧
      (RoutesAlike re conn' fresh ↔
        (∀ smscId number, ¬ RunsRemoved re (goneDirective getenv old new) fresh smscId number) ∧
        ¬ KeepsFreedRules getenv old new) := by
  have hread := (smscconnCreate_reads hold).inState status whyKilled
  have hfresh := smscconnCreate_reads hnew
  obtain ⟨conn', hconn'⟩ := smscconnReconfig_ok hfresh (conn.inState status whyKilled)
  refine ⟨conn', hconn', ?_⟩
  have hstale := smscconnReconfig_stale hread hfresh hconn'
  obtain ⟨before, before', after, hboth, rfl⟩ := smscconnReconfig_bothRead hread hfresh hconn'
  rw [← hboth.rules_iff]
  constructor
  · intro halike
    exact ⟨hstale.usable_iff.mp halike.usable, hboth.staleRules.rerouting_iff.mp halike.rerouting⟩
  · intro hunharmed
    exact ⟨hstale.usable_iff.mpr hunharmed.1, hboth.staleRules.rerouting_iff.mpr hunharmed.2⟩

end Reading

def fakeGroup : CfgGroup :=
  cfgSet (cfgSet { createGroup with name := some (ascii "smsc") } (ascii "smsc") (ascii "fake"))
    (ascii "smsc-id") (ascii "link")

def fakeGroupWith (name : String) : CfgGroup := cfgSet fakeGroup (ascii name) (ascii "1")

def fakeCreate (grp : CfgGroup) : Except Failure (Option SmscConn) :=
  smscconnCreate permissiveRegex (fun _ => none) (fun _ => true) grp

theorem not_runsGonePattern : ∀ allowed denied allowedRegex deniedRegex : Option Bool,
    ¬ RunsGonePattern false false allowed denied allowedRegex deniedRegex := by
  decide

theorem not_runsRemoved {re : RegexLib} {gone : String → Bool} {fresh : SmscConn}
    (h : ∀ name ∈ ["allowed-smsc-id-regex", "denied-smsc-id-regex", "allowed-prefix-regex",
      "denied-prefix-regex", "preferred-prefix-regex"], gone name = false)
    (smscId : Option Octstr) (number : Octstr) : ¬ RunsRemoved re gone fresh smscId number := by
  intro hruns
  cases hruns with
  | allowedId hgone => simp [h "allowed-smsc-id-regex" (by simp)] at hgone
  | deniedId hgone => simp [h "denied-smsc-id-regex" (by simp)] at hgone
  | receiver _ _ hruns =>
    rw [h "allowed-prefix-regex" (by simp), h "denied-prefix-regex" (by simp)] at hruns
    exact not_runsGonePattern _ _ _ _ hruns
  | preferred hgone => simp [h "preferred-prefix-regex" (by simp)] at hgone

theorem allowedPrefix_removed : ∃ conn fresh conn',
    fakeCreate (fakeGroupWith "allowed-prefix") = .ok (some conn) ∧
    fakeCreate fakeGroup = .ok (some fresh) ∧
    smscconnReconfig permissiveRegex (fun _ => none) (conn.inState .active .alive) fakeGroup =
      .ok conn' ∧
    RoutesAlike permissiveRegex conn' fresh := by
  obtain ⟨conn, hconn⟩ : ∃ conn, fakeCreate (fakeGroupWith "allowed-prefix") = .ok (some conn) := by
    decide +kernel
  obtain ⟨fresh, hfresh⟩ : ∃ conn, fakeCreate fakeGroup = .ok (some conn) := by decide +kernel
  obtain ⟨conn', hconn', halike⟩ := smscconnReconfig_routesAlike_iff permissiveRegex
    (fun _ => none) (fun _ => true) hconn hfresh .active .alive
  have hgone : ∀ name ∈ ["allowed-smsc-id-regex", "denied-smsc-id-regex", "allowed-prefix-regex",
      "denied-prefix-regex", "preferred-prefix-regex"],
      goneDirective (fun _ => none) (fakeGroupWith "allowed-prefix") fakeGroup name = false := by
    decide +kernel
  have hrules : ∀ name ∈ ["reroute-receiver", "reroute-receiver-regex"],
      cfgGet (fun _ => none) (fakeGroupWith "allowed-prefix") (ascii name) = none := by
    decide +kernel
  refine ⟨conn, fresh, conn', hconn, hfresh, hconn', halike.mpr ⟨not_runsRemoved hgone, ?_⟩⟩
  rintro (⟨hno, -⟩ | ⟨-, ⟨howns, -⟩ | ⟨howns, -⟩⟩)
  · cases hno
  · exact howns.2 (hrules _ (by simp))
  · exact howns.2 (hrules _ (by simp))

def linkMsg : Sms := messageTo (some (ascii "link")) (some (ascii "100"))

/-- A regular expression cannot: the next message with an smsc id runs the freed pattern. -/
theorem allowedSmscIdRegex_removed : ∃ conn fresh conn',
    (fakeGroupWith "allowed-smsc-id-regex").AgreesExcept fakeGroup routingDirectives ∧
    fakeCreate (fakeGroupWith "allowed-smsc-id-regex") = .ok (some conn) ∧
    fakeCreate fakeGroup = .ok (some fresh) ∧
    smscconnReconfig permissiveRegex (fun _ => none) conn fakeGroup = .ok conn' ∧
    smscconnUsable permissiveRegex (conn'.inState .active .alive) linkMsg = .error .outside ∧
    smscconnUsable permissiveRegex (fresh.inState .active .alive) linkMsg = .ok 0 ∧
    ¬ RoutesAlike permissiveRegex conn' fresh := by
  have hdiffer : (fakeGroupWith "allowed-smsc-id-regex").AgreesExcept fakeGroup
      routingDirectives := cfgSet_agreesExcept fakeGroup _ (by decide +kernel)
  obtain ⟨conn, hconn, conn', hconn', hfails⟩ : ∃ conn,
      fakeCreate (fakeGroupWith "allowed-smsc-id-regex") = .ok (some conn) ∧
        ∃ conn', smscconnReconfig permissiveRegex (fun _ => none) conn fakeGroup = .ok conn' ∧
          smscconnUsable permissiveRegex (conn'.inState .active .alive) linkMsg =
            .error .outside := by
    decide +kernel
  obtain ⟨fresh, hfresh, hdecides⟩ : ∃ fresh, fakeCreate fakeGroup = .ok (some fresh) ∧
      smscconnUsable permissiveRegex (fresh.inState .active .alive) linkMsg = .ok 0 := by
    decide +kernel
  refine ⟨conn, fresh, conn', hdiffer, hconn, hfresh, hconn', hfails, hdecides, fun halike => ?_⟩
  have hsame := halike.usable .active .alive linkMsg
  rw [hfails, hdecides] at hsame
  cases hsame

end Kannel
