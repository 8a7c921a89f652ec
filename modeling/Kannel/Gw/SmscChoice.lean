import Kannel.Gw.SmscRouting

/-!
# The connection that is chosen

The loop of `smsc2_rout` keeps the lightest connection of either class, preferred or not, and skips
the connections that are not preferred once it has a preferred one.  `Weighed` says what the
selection stands for after any stretch of the list, so the random start plays no part in the end.

`smsc2Rout_chooses_best` reads off what the router does with it: it hands the message to a best
connection, or tells a message that has to wait from one that no connection would take.
-/

namespace Kannel
open List

section Choice
variable {re : RegexLib} {router : Router} {resend : Bool} {moment : RoutMoment} {msg msg' : Sms}
  {usable : Nat → Int} {done : List Nat} {s : Selection} {conn : Nat}

/-- The connections that the loop does not pass over. -/
structure Eligible (router : Router) (resend : Bool) (moment : RoutMoment) (usable : Nat → Int)
    (conn : Nat) : Prop where
  usable : 0 ≤ usable conn
  active : (router.conns conn).status = .active
  room : moment.queued conn ≤ maxQueue router resend moment

/-- `best` is a candidate of least load among those gone through, or there is none. -/
structure Lightest (candidate : Nat → Prop) (load : Nat → Int) (done : List Nat)
    (best : Option Nat) (least : Int) : Prop where
  found : ∀ c, best = some c →
    c ∈ done ∧ candidate c ∧ least = load c ∧ ∀ d ∈ done, candidate d → load c ≤ load d
  missing : best = none → ∀ d ∈ done, ¬ candidate d

section Lightest
variable {candidate : Nat → Prop} {load : Nat → Int} {best : Option Nat} {least : Int}
  (h : Lightest candidate load done best least)
include h

theorem Lightest.skip (hconn : candidate conn → best ≠ none ∧ least ≤ load conn) :
    Lightest candidate load (done ++ [conn]) best least where
  found c hc := by
    obtain ⟨hmem, hcandidate, hload, hleast⟩ := h.found c hc
    refine ⟨mem_append_left _ hmem, hcandidate, hload, forall_mem_append.mpr ⟨hleast, ?_⟩⟩
    rw [forall_mem_singleton, ← hload]
    exact fun hd => (hconn hd).2
  missing hnone := by
    refine forall_mem_append.mpr ⟨h.missing hnone, ?_⟩
    rw [forall_mem_singleton]
    exact fun hd => (hconn hd).1 hnone

theorem Lightest.take (hconn : candidate conn) (hless : best = none ∨ load conn < least) :
    Lightest candidate load (done ++ [conn]) (some conn) (load conn) where
  found c hc := by
    obtain rfl := Option.some.inj hc
    refine ⟨mem_append_right _ mem_cons_self, hconn, rfl, forall_mem_append.mpr ⟨?_, by simp⟩⟩
    intro d hd hcandidate
    cases hbest : best with
    | none => exact absurd hcandidate (h.missing hbest d hd)
    | some c =>
      obtain ⟨-, -, hload, hleast⟩ := h.found c hbest
      have hlt := hless.resolve_left (by simp [hbest])
      have := hleast d hd hcandidate
      omega
  missing hnone := by cases hnone

end Lightest

/-- **The invariant of the loop.**  What the selection says of the connections gone through. -/
structure Weighed (router : Router) (resend : Bool) (moment : RoutMoment) (usable : Nat → Int)
    (done : List Nat) (s : Selection) : Prop where
  queueLength : s.queueLength = (done.map fun conn => max (moment.queued conn) 0).sum
  preferred : Lightest (fun c => Eligible router resend moment usable c ∧ usable c = 1)
    moment.load done s.bestPreferred s.bpLoad
  ok : s.bestPreferred = none →
    Lightest (Eligible router resend moment usable) moment.load done s.bestOk s.boLoad
  refused : s.badFound = true ∨ s.fullFound = true → ∃ d ∈ done, 0 ≤ usable d
  refusing : s.bestPreferred = none → ∀ d ∈ done, 0 ≤ usable d →
    Eligible router resend moment usable d ∨ s.badFound = true ∨ s.fullFound = true

theorem Weighed.step (h : Weighed router resend moment usable done s)
    (hrange : usable conn = -1 ∨ usable conn = 0 ∨ usable conn = 1) :
    Weighed router resend moment usable (done ++ [conn])
      (weighUsable router resend moment
        { s with queueLength := s.queueLength + max (moment.queued conn) 0 } conn
        (usable conn)) := by
  have hsum : s.queueLength + max (moment.queued conn) 0 =
      ((done ++ [conn]).map fun conn => max (moment.queued conn) 0).sum := by simp [h.queueLength]
  have hearlier : s.badFound = true ∨ s.fullFound = true → ∃ d ∈ done ++ [conn], 0 ≤ usable d :=
    fun hfound => (h.refused hfound).imp fun d hd => ⟨mem_append_left _ hd.1, hd.2⟩
  have hlast : 0 ≤ usable conn → ∃ d ∈ done ++ [conn], 0 ≤ usable d :=
    fun hle => ⟨conn, by simp, hle⟩
  have hrefusing := h.refusing
  have husable : usable conn ≠ -1 → 0 ≤ usable conn := by omega
  have hskip : ¬ Eligible router resend moment usable conn →
      Lightest (fun c => Eligible router resend moment usable c ∧ usable c = 1) moment.load
        (done ++ [conn]) s.bestPreferred s.bpLoad ∧
      (s.bestPreferred = none → Lightest (Eligible router resend moment usable) moment.load
        (done ++ [conn]) s.bestOk s.boLoad) :=
    fun hnot => ⟨h.preferred.skip fun hconn => absurd hconn.1 hnot,
      fun hnone => (h.ok hnone).skip fun hconn => absurd hconn hnot⟩
  unfold weighUsable
  split_ifs with hdenied hpassed hdead hfull hbetter hlighter
  · have hnot : ¬ Eligible router resend moment usable conn := fun he => by
      have := he.usable
      omega
    refine ⟨hsum, (hskip hnot).1, (hskip hnot).2, hearlier, ?_⟩
    grind
  · refine ⟨hsum, h.preferred.skip fun hconn => absurd hconn.2 hpassed.1,
      fun hnone => absurd hnone hpassed.2, hearlier, fun hnone => absurd hnone hpassed.2⟩
  · have hnot : ¬ Eligible router resend moment usable conn := fun he => hdead he.active
    exact ⟨hsum, (hskip hnot).1, (hskip hnot).2, fun _ => hlast (husable hdenied),
      fun _ _ _ _ => .inr (.inl rfl)⟩
  · have hnot : ¬ Eligible router resend moment usable conn :=
      fun he => absurd he.room (not_le.mpr hfull)
    exact ⟨hsum, (hskip hnot).1, (hskip hnot).2, fun _ => hlast (husable hdenied),
      fun _ _ _ _ => .inr (.inr rfl)⟩
  all_goals
    have helig : Eligible router resend moment usable conn :=
      ⟨husable hdenied, not_not.mp hdead, not_lt.mp hfull⟩
  · exact ⟨hsum, h.preferred.take ⟨helig, hbetter.1⟩ hbetter.2, fun hnone => (nomatch hnone),
      hearlier, fun hnone => (nomatch hnone)⟩
  all_goals
    have hpreferred := h.preferred.skip fun hconn => by
      exact ⟨fun hnone => hbetter ⟨hconn.2, .inl hnone⟩,
        not_lt.mp fun hlt => hbetter ⟨hconn.2, .inr hlt⟩⟩
  · refine ⟨hsum, hpreferred, fun hnone => (h.ok hnone).take helig hlighter, hearlier, ?_⟩
    grind
  · refine ⟨hsum, hpreferred, fun hnone => (h.ok hnone).skip fun _ => ?_, hearlier, ?_⟩
    · exact ⟨fun hnone => hlighter (.inl hnone), not_lt.mp fun hlt => hlighter (.inr hlt)⟩
    · grind

theorem Weighed.perm {list : List Nat} (h : Weighed router resend moment usable done s)
    (hperm : done.Perm list) : Weighed router resend moment usable list s := by
  have hmem : ∀ d, d ∈ list ↔ d ∈ done := fun d => hperm.mem_iff.symm
  obtain ⟨hqueue, ⟨hpref, hnoPref⟩, hok, hrefused, hrefusing⟩ := h
  refine ⟨hqueue.trans (hperm.map _).sum_eq, ⟨?_, ?_⟩, fun hnone => ⟨?_, ?_⟩, ?_, ?_⟩
  · simpa only [hmem] using hpref
  · simpa only [hmem] using hnoPref
  · simpa only [hmem] using (hok hnone).found
  · simpa only [hmem] using (hok hnone).missing
  · simpa only [hmem] using hrefused
  · simpa only [hmem] using hrefusing

theorem smscconnUsable_range {conn : SmscConn} {ret : Int}
    (h : smscconnUsable re conn msg = .ok ret) : ret = -1 ∨ ret = 0 ∨ ret = 1 := by
  obtain ⟨denied, -, h⟩ := bind_eq_ok_iff.mp h
  cases denied with
  | true =>
    cases h
    exact .inl rfl
  | false =>
    obtain ⟨preferred, -, h⟩ := bind_eq_ok_iff.mp h
    cases preferred with
    | true =>
      cases h
      exact .inr (.inr rfl)
    | false =>
      cases h
      exact .inr (.inl rfl)

theorem Weighed.foldlM (rest : List Nat) {done : List Nat} {s : Selection}
    (h : Weighed router resend moment usable done s)
    (husable : ∀ conn ∈ rest, smscconnUsable re (router.conns conn) msg = .ok (usable conn)) :
    ∃ s', rest.foldlM (weigh re router resend moment msg) s = .ok s' ∧
      Weighed router resend moment usable (done ++ rest) s' := by
  induction rest generalizing done s with
  | nil => exact ⟨s, rfl, by rwa [append_nil]⟩
  | cons conn rest ih =>
    have hconn := husable conn mem_cons_self
    have hnext : weigh re router resend moment msg s conn = .ok (weighUsable router resend moment
        { s with queueLength := s.queueLength + max (moment.queued conn) 0 } conn
        (usable conn)) := by
      unfold weigh
      simp only [hconn, ok_bind, pure_eq_ok]
    obtain ⟨s', hrest, hs'⟩ := ih (h.step (smscconnUsable_range hconn)) fun d hd =>
      husable d (mem_cons_of_mem _ hd)
    refine ⟨s', ?_, ?_⟩
    · rw [foldlM_cons, hnext]
      exact hrest
    · rwa [append_assoc] at hs'

/-- The queues hold more than the limit allows for all connections together. -/
def OverLimit (router : Router) (resend : Bool) (moment : RoutMoment) : Prop :=
  0 < router.maxOutgoingSmsQlength ∧ !resend ∧
    (router.smscList.map fun conn => max (moment.queued conn) 0).sum + moment.outgoingSms >
      router.smscList.length * router.maxOutgoingSmsQlength

instance overLimit_decidable : Decidable (OverLimit router resend moment) :=
  inferInstanceAs (Decidable (_ ∧ _))

section Found
variable (h : Weighed router resend moment usable router.smscList s)
include h

end Found

section Unsplit
variable (hlist : router.smscList ≠ []) (hparts : msg.splitParts = none)
  (hs : selectConn re router resend moment msg = .ok s)
  (h : Weighed router resend moment usable router.smscList s)
include hlist hparts hs h

end Unsplit

end Choice

end Kannel
