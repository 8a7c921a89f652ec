import Kannel.Lib.Machine
import Kannel.Gw.UrlTrans

/-!
# The permits of smsbox

`obey_request` takes a permit before it runs a command or hands a request to the HTTP caller;
`url_result_thread` gives one back for every result. Failed requests are started again.
-/

namespace Kannel
open Machine (of_guard)

structure HttpReceiver (α : Type) where
  request : α
  report : Bool
  retries : Nat
  deriving DecidableEq, Repr

inductive Obeying (α : Type)
  | idle
  | wantsRequest (receiver : HttpReceiver α)
  | wantsCommand | executing
  deriving DecidableEq, Repr

/-- `caller` holds the requests whose result has not been received, `timers` the failed ones
that wait, `queue` is `smsbox_http_requests`. -/
structure SmsBoxRequests (α : Type) where
  free : Nat
  obeying : Obeying α
  caller : List (HttpReceiver α)
  timers : List (HttpReceiver α)
  queue : List (HttpReceiver α)
  outstanding : Nat
  signalled : Bool
  receiving : Bool
  deriving DecidableEq, Repr

inductive RequestAction (α : Type)
  | obeyRequest (type : TransType) (report : Bool) (request : α)
  | semaphoreDown | popenFails | pclose
  | result (i : Nat) (status : Int)
  | elapse (i : Nat)
  | retry | signalShutdown | noResult
  deriving DecidableEq, Repr

def httpOk : Int := 200

def httpAccepted : Int := 202

variable {α : Type}

def rememberReceiver (request : α) (report : Bool) (retries : Nat) : HttpReceiver α :=
  ⟨request, report, retries % 2 ^ 32⟩

namespace SmsBoxRequests

def start (maxPending : Nat) : SmsBoxRequests α :=
  ⟨maxPending, .idle, [], [], [], 0, false, true⟩

def obeyRequest (s : SmsBoxRequests α) (type : TransType) (report : Bool) (request : α) :
    SmsBoxRequests α :=
  match if report then .getUrl else type with
  | .text | .file | .sendsms => s
  | .execute => { s with obeying := .wantsCommand }
  | .getUrl | .postUrl | .postXml =>
    { s with
      obeying := .wantsRequest (rememberReceiver request report 0)
      outstanding := s.outstanding + 1 }

def semaphoreDown (s : SmsBoxRequests α) : Option (SmsBoxRequests α) :=
  match s.free, s.obeying with
  | free + 1, .wantsRequest receiver =>
    some { s with free, obeying := .idle, caller := s.caller ++ [receiver] }
  | free + 1, .wantsCommand => some { s with free, obeying := .executing }
  | _, _ => none

def urlResult (maxHttpRetries : Int) (s : SmsBoxRequests α) (i : Nat) (status : Int) :
    Option (SmsBoxRequests α) :=
  match s.caller[i]? with
  | none => none
  | some receiver =>
    let s' := { s with
      free := s.free + 1
      caller := s.caller.eraseIdx i
      outstanding := s.outstanding - 1 }
    if status = httpOk ∨ status = httpAccepted then some s'
    else if receiver.retries < toUlong maxHttpRetries then
      some { s' with
        timers := s.timers ++ [rememberReceiver receiver.request receiver.report receiver.retries]
        outstanding := s'.outstanding + 1 }
    else some s'

def httpQueue (maxHttpRetries : Int) (s : SmsBoxRequests α) : Option (SmsBoxRequests α) :=
  match s.queue with
  | [] => none
  | receiver :: rest =>
    let s' := { s with queue := rest, outstanding := s.outstanding - 1 }
    if receiver.retries < toUlong maxHttpRetries then
      -- no permit is taken here
      some { s' with
        caller := s.caller ++
          [rememberReceiver receiver.request receiver.report (receiver.retries + 1)]
        outstanding := s'.outstanding + 1 }
    else some s'

def step (maxHttpRetries : Int) (s : SmsBoxRequests α) : RequestAction α → Option (SmsBoxRequests α)
  | .obeyRequest type report request =>
    if s.obeying matches .idle && !s.signalled then some (s.obeyRequest type report request)
    else none
  | .semaphoreDown => s.semaphoreDown
  | .popenFails =>
    if s.obeying matches .executing then some { s with obeying := .idle } else none
  | .pclose =>
    if s.obeying matches .executing then
      some { s with obeying := .idle, free := s.free + 1 }
    else none
  | .result i status => if s.receiving then s.urlResult maxHttpRetries i status else none
  | .elapse i =>
    s.timers[i]?.map fun receiver =>
      { s with timers := s.timers.eraseIdx i, queue := s.queue ++ [receiver] }
  | .retry => s.httpQueue maxHttpRetries
  | .signalShutdown =>
    if s.obeying matches .idle then some { s with signalled := true } else none
  | .noResult =>
    if s.signalled && s.receiving then
      some { s with free := s.free + 1, receiving := false }
    else none

def running (s : SmsBoxRequests α) : Nat :=
  s.caller.length + if s.obeying matches .executing then 1 else 0

def Balanced (maxPending : Nat) (s : SmsBoxRequests α) : Prop :=
  s.free + s.running = maxPending

instance decidableBalanced (maxPending : Nat) (s : SmsBoxRequests α) :
    Decidable (s.Balanced maxPending) := inferInstanceAs (Decidable (_ = _))

def lost : RequestAction α → Nat
  | .popenFails => 1
  | _ => 0

def gained (maxHttpRetries : Int) (s : SmsBoxRequests α) : RequestAction α → Nat
  | .retry =>
    match s.queue with
    | [] => 0
    | receiver :: _ => if receiver.retries < toUlong maxHttpRetries then 1 else 0
  | .noResult => 1
  | _ => 0

/-- The actions that keep the account: no command fails to start, no request is
started again and the caller is not shut down. -/
def KeepsPermits (maxHttpRetries : Int) (s : SmsBoxRequests α) : RequestAction α → Prop
  | .popenFails => False
  | .retry => ∀ receiver ∈ s.queue.head?, toUlong maxHttpRetries ≤ receiver.retries
  | .noResult => False
  | _ => True

variable {maxHttpRetries : Int} {s s' : SmsBoxRequests α}

theorem obeyRequest_account (type : TransType) (report : Bool) (request : α)
    (hidle : s.obeying = .idle) :
    (s.obeyRequest type report request).free + (s.obeyRequest type report request).running =
      s.free + s.running := by
  unfold obeyRequest
  split <;> simp [running, hidle]

theorem semaphoreDown_account (h : s.semaphoreDown = some s') :
    s'.free + s'.running = s.free + s.running := by
  unfold semaphoreDown at h
  split at h
  iterate 2
    rename_i hfree hobeying
    obtain rfl := Option.some.inj h
    simp [running, hobeying, hfree]
    omega
  cases h

theorem urlResult_account {i : Nat} {status : Int}
    (h : s.urlResult maxHttpRetries i status = some s') :
    s'.free + s'.running = s.free + s.running := by
  unfold urlResult at h
  split at h
  · cases h
  · rename_i receiver hreceiver
    -- all three outcomes give the permit of the request back
    have hshape : s'.free = s.free + 1 ∧ s'.caller = s.caller.eraseIdx i ∧
        s'.obeying = s.obeying := by
      split_ifs at h <;> (obtain rfl := Option.some.inj h; exact ⟨rfl, rfl, rfl⟩)
    obtain ⟨hfree, hcaller, hobeying⟩ := hshape
    have hi : i < s.caller.length := (List.getElem?_eq_some_iff.mp hreceiver).1
    rw [running, running, hcaller, hobeying, List.length_eraseIdx_of_lt hi]
    omega

theorem httpQueue_account (h : s.httpQueue maxHttpRetries = some s') :
    s'.free + s'.running = s.free + s.running + gained maxHttpRetries s .retry := by
  unfold httpQueue at h
  unfold gained
  split at h
  · cases h
  · split_ifs at h with hretry
    · obtain rfl := Option.some.inj h
      simp [running, hretry]
      omega
    · obtain rfl := Option.some.inj h
      simp [running, hretry]

variable {a : RequestAction α}

theorem step_account (h : s.step maxHttpRetries a = some s') :
    s'.free + s'.running + lost a = s.free + s.running + gained maxHttpRetries s a := by
  cases a with
  | obeyRequest type report request =>
    obtain ⟨hguard, rfl⟩ := of_guard h
    have hidle : s.obeying = .idle := by
      cases hobeying : s.obeying <;> simp_all
    exact obeyRequest_account type report request hidle
  | semaphoreDown => exact semaphoreDown_account h
  | popenFails =>
    obtain ⟨hguard, rfl⟩ := of_guard h
    simp [running, hguard, lost, gained]
    omega
  | pclose =>
    obtain ⟨hguard, rfl⟩ := of_guard h
    simp [running, hguard, lost, gained]
    omega
  | result i status =>
    obtain ⟨-, hresult⟩ := Option.ite_none_right_eq_some.mp h
    exact urlResult_account hresult
  | elapse i =>
    obtain ⟨receiver, -, rfl⟩ := Option.map_eq_some_iff.mp h
    rfl
  | retry => exact httpQueue_account h
  | signalShutdown =>
    obtain ⟨-, rfl⟩ := of_guard h
    rfl
  | noResult =>
    obtain ⟨-, rfl⟩ := of_guard h
    simp [running, lost, gained]
    omega

theorem keepsPermits_iff :
    KeepsPermits maxHttpRetries s a ↔ lost a = 0 ∧ gained maxHttpRetries s a = 0 := by
  cases a with
  | retry =>
    unfold KeepsPermits lost gained
    cases s.queue with
    | nil => simp
    | cons receiver rest => simp
  | _ => simp [KeepsPermits, lost, gained]

theorem lost_eq_zero_or_gained_eq_zero (a : RequestAction α) :
    lost a = 0 ∨ gained maxHttpRetries s a = 0 := by
  cases a with
  | popenFails => exact .inr rfl
  | _ => exact .inl rfl

theorem balanced_step_iff {maxPending : Nat} (hs : s.Balanced maxPending)
    (h : s.step maxHttpRetries a = some s') :
    s'.Balanced maxPending ↔ KeepsPermits maxHttpRetries s a := by
  have haccount := step_account h
  have hone : lost a = 0 ∨ gained maxHttpRetries s a = 0 := lost_eq_zero_or_gained_eq_zero a
  rw [keepsPermits_iff]
  unfold Balanced at hs ⊢
  omega

/-- **The permits balance** throughout a run exactly if no command failed to start, no request
was retried and the caller was not shut down. -/
theorem permits_balanced_iff (maxHttpRetries : Int) (maxPending : Nat)
    {trace : List (SmsBoxRequests α × RequestAction α)} {s : SmsBoxRequests α}
    (hrun : Machine.Run (step maxHttpRetries) (start maxPending) trace s) :
    ((∀ p ∈ trace, p.1.Balanced maxPending) ∧ s.Balanced maxPending) ↔
      ∀ p ∈ trace, KeepsPermits maxHttpRetries p.1 p.2 :=
  hrun.throughout_iff_where rfl fun _ _ _ hs h => balanced_step_iff hs h

def answeredRequest : List (RequestAction Octstr) :=
  [.obeyRequest .getUrl false (ascii "/a"), .semaphoreDown, .result 0 httpOk]

theorem answeredRequest_balanced :
    ∃ trace s, Machine.Run (step 1) (start 1) trace s ∧
      trace.map Prod.snd = answeredRequest ∧
      (∀ p ∈ trace, p.1.Balanced 1) ∧ s.Balanced 1 := by
  obtain ⟨trace, s, hrun, htrace⟩ : ∃ trace s, Machine.Run (step 1) (start 1) trace s ∧
      trace.map Prod.snd = answeredRequest := Machine.exists_run answeredRequest (by decide)
  refine ⟨trace, s, hrun, htrace, ?_⟩
  refine (permits_balanced_iff 1 1 hrun).mpr fun p hp => ?_
  have hmem : p.2 ∈ answeredRequest := htrace ▸ List.mem_map_of_mem hp
  simp only [answeredRequest, List.mem_cons, List.not_mem_nil, or_false] at hmem
  obtain h | h | h := hmem <;> (rw [h]; trivial)

def failedCommand : List (RequestAction Octstr) :=
  [.obeyRequest .execute false (ascii "date"), .semaphoreDown, .popenFails]

def retriedRequest : List (RequestAction Octstr) :=
  [.obeyRequest .getUrl false (ascii "/a"), .semaphoreDown, .result 0 503,
    .obeyRequest .getUrl false (ascii "/b"), .semaphoreDown, .elapse 0, .retry]

/-- A failed command leaves no permit to anybody, and a retried request runs beside another one.
-/
theorem failedCommand_retriedRequest_unbalanced :
    (∃ trace s, Machine.Run (step 1) (start (α := Octstr) 1) trace s ∧
      s.free = 0 ∧ s.running = 0 ∧ ¬ s.Balanced 1) ∧
    ∃ trace s, Machine.Run (step 1) (start (α := Octstr) 1) trace s ∧
      s.running = 2 ∧ ¬ s.Balanced 1 := by
  constructor
  · exact Machine.exists_run failedCommand (by decide)
  · exact Machine.exists_run retriedRequest (by decide)

end SmsBoxRequests
end Kannel
