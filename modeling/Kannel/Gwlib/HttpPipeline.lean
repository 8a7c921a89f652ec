import Kannel.Lib.Machine
import Kannel.Gwlib.HttpMessage
import Kannel.Gwlib.HttpServer

/-!
# Requests that wait in the input buffer

After a reply that was queued `receive_request` looks at the buffer; after one that was written
at once `http_send_reply` registers the connection without looking.
-/

namespace Kannel

structure HttpRequest where
  line : Octstr
  headers : List Octstr
  framing : Framing
  body : Octstr

structure HttpRequest.Valid (r : HttpRequest) : Prop where
  line : 13 ∉ r.line ∧ 10 ∉ r.line
  parses : (parseRequestLine r.line).isSome = true
  headers : ∀ line ∈ r.headers, IsHeaderLine line
  body : Announces .expectBodyIfIndicated r.headers r.body r.framing

def HttpRequest.octets (r : HttpRequest) : Octstr :=
  lineOctets r.line ++ entityOctets r.headers r.framing r.body

def HoldsRequest (buf : Octstr) : Prop := ∃ r : HttpRequest, r.Valid ∧ r.octets <+: buf

def Waiting (s : ServerState) : Prop :=
  s.holder = .fdset ∧ s.client.conn.registered = true ∧ s.client.state = .readingRequestLine

def NoRequestWaits (s : ServerState) : Prop := Waiting s → ¬ HoldsRequest s.client.conn.unread

def RepliesInTime (s : ServerState) : ServerAction → Prop
  | .reply reply =>
    s.client.persistentConn = true →
      (connWrite s.client.conn (replyText s.client reply)).1 = .emptied →
      ¬ HoldsRequest s.client.conn.unread
  | _ => True

theorem not_holdsRequest_of_no_line {buf : Octstr} (h : splitLine buf = none) :
    ¬ HoldsRequest buf := by
  rintro ⟨r, hvalid, more, hbuf⟩
  have hline := splitLine_crlf hvalid.line.2 (entityOctets r.headers r.framing r.body ++ more)
  rw [← hbuf, HttpRequest.octets, lineOctets, List.append_assoc, hline] at h
  cases h

variable (client : HTTPClient)

theorem noRequestWaits_destroyed : NoRequestWaits ⟨client, .destroyed⟩ := by
  rintro ⟨hholder, -⟩
  cases hholder

theorem noRequestWaits_of_state {client : HTTPClient} {holder : Holder}
    (h : client.state ≠ .readingRequestLine) : NoRequestWaits ⟨client, holder⟩ := by
  rintro ⟨-, -, hstate⟩
  exact absurd hstate h

theorem httpSendReply_noRequestWaits (reply : Reply) :
    NoRequestWaits (httpSendReply client reply) ↔
      (client.persistentConn = true →
        (connWrite client.conn (replyText client reply)).1 = .emptied →
        ¬ HoldsRequest client.conn.unread) := by
  have hunread := unread_connWrite client.conn (replyText client reply)
  unfold httpSendReply
  split <;> rename_i conn hwrite <;> rw [hwrite] at hunread <;> rw [hwrite]
  · cases hpersistent : client.persistentConn with
    | false => simpa [hpersistent] using noRequestWaits_destroyed _
    | true => simp [NoRequestWaits, Waiting, clientReset, hunread]
  · simpa using noRequestWaits_of_state (by simp)
  · simpa using noRequestWaits_destroyed _

theorem receiveEntity_noRequestWaits (request : HTTPEntity) :
    NoRequestWaits (receiveEntity client request) := by
  unfold receiveEntity
  split
  · exact noRequestWaits_destroyed _
  · exact noRequestWaits_of_state (by simp)
  · exact noRequestWaits_of_state (by simp)

theorem receiveLine_noRequestWaits (stamp : Octstr) :
    NoRequestWaits (receiveLine client stamp) := by
  have hread := connReadLine_readsBy client.conn
  unfold receiveLine
  split <;> rename_i hline <;> rw [hline] at hread
  · split
    · exact noRequestWaits_destroyed _
    · cases hread with
      | short _ hnone =>
        intro _
        exact not_holdsRequest_of_no_line hnone
  · split
    · rw [httpSendReply_noRequestWaits]
      intro hpersistent
      cases hpersistent
    · exact receiveEntity_noRequestWaits _ _

theorem receiveRequest_noRequestWaits {client : HTTPClient} {stamp : Octstr} {s' : ServerState}
    (h : receiveRequest client stamp = some s') : NoRequestWaits s' := by
  unfold receiveRequest at h
  split at h
  · cases h
    exact receiveLine_noRequestWaits _ _
  · obtain ⟨request, -, rfl⟩ := Option.map_eq_some_iff.mp h
    exact receiveEntity_noRequestWaits _ _
  · rename_i hstate
    split at h
    · cases h
      exact noRequestWaits_destroyed _
    · split at h
      · cases h
        exact noRequestWaits_of_state (by rw [hstate]; simp)
      · split at h
        · cases h
          exact noRequestWaits_destroyed _
        · cases h
          exact receiveLine_noRequestWaits _ _
  · cases h

theorem unread_pollCallback {conn : Connection} {revents : PollEvents}
    (h : (pollCallback conn revents).2 = false) :
    (pollCallback conn revents).1.unread = conn.unread := by
  simp only [pollCallback, Bool.or_eq_false_iff] at h
  obtain ⟨⟨hhangup, -⟩, hpollin⟩ := h
  simp only [pollCallback, hhangup, hpollin]
  simp only [Bool.false_eq_true, if_false]
  split
  · exact unread_unlockedWrite conn
  · rfl

theorem serverStep_noRequestWaits {s s' : ServerState} {a : ServerAction}
    (hs : NoRequestWaits s) (h : serverStep s a = some s') :
    NoRequestWaits s' ↔ RepliesInTime s a := by
  cases a with
  | poll revents stamp =>
    refine ⟨fun _ => trivial, fun _ => ?_⟩
    simp only [serverStep] at h
    split at h
    · rename_i hheld
      split at h
      · exact receiveRequest_noRequestWaits h
      · rename_i hquiet
        cases h
        rintro ⟨-, hregistered, hstate⟩
        rw [unread_pollCallback (by simpa using hquiet)]
        rw [registered_pollCallback] at hregistered
        exact hs ⟨hheld.1, hregistered, hstate⟩
    · cases h
  | accept polled =>
    refine ⟨fun _ => trivial, fun _ => ?_⟩
    simp only [serverStep] at h
    split at h
    · cases h
      rintro ⟨hholder, -⟩
      unfold httpAcceptRequest at hholder
      dsimp only at hholder
      split at hholder <;> cases hholder
    · cases h
  | reply reply =>
    simp only [serverStep] at h
    split at h
    · cases h
      exact httpSendReply_noRequestWaits _ _
    · cases h
  | close =>
    refine ⟨fun _ => trivial, fun _ => ?_⟩
    simp only [serverStep] at h
    split at h
    · cases h
      exact noRequestWaits_destroyed _
    · cases h

theorem acceptedClient_noRequestWaits (fd : Descriptor) : NoRequestWaits (acceptedClient fd) := by
  intro _
  apply not_holdsRequest_of_no_line
  rfl

def plainRequest : HttpRequest where
  line := ascii "GET / HTTP/1.1"
  headers := []
  framing := .none
  body := []

theorem plainRequest_valid : plainRequest.Valid where
  line := by decide
  parses := by decide
  headers := by simp [plainRequest]
  body := ⟨rfl, .inr ⟨rfl, rfl, rfl⟩⟩

def plainReply : Reply where
  status := 200
  stamp := []
  headers := []
  body := none

/-- **When requests wait.**  In no state of a run does a request that has been read wait under
the poller, if and only if every reply meets the condition. -/
theorem no_request_waits_iff (fd : Descriptor) (trace : List (ServerState × ServerAction))
    (s : ServerState) (hrun : Machine.Run serverStep (acceptedClient fd) trace s) :
    ((∀ p ∈ trace, NoRequestWaits p.1) ∧ NoRequestWaits s) ↔
      ∀ p ∈ trace, RepliesInTime p.1 p.2 :=
  hrun.throughout_iff_where (acceptedClient_noRequestWaits fd)
    fun _ _ _ hs hstep => serverStep_noRequestWaits hs hstep

theorem no_request_waits_single : ∃ trace s,
    Machine.Run serverStep
      (acceptedClient
        { reads := [.octets plainRequest.octets], writes := [.wrote 1000], wire := [] }) trace s ∧
      trace.length = 3 ∧ (∀ p ∈ trace, NoRequestWaits p.1) ∧ NoRequestWaits s := by
  obtain ⟨trace, s, hrun, hlength, hunread⟩ : ∃ trace s, Machine.Run serverStep (acceptedClient
        { reads := [.octets plainRequest.octets], writes := [.wrote 1000], wire := [] }) trace s ∧
      trace.length = 3 ∧ ∀ p ∈ trace, p.1.client.conn.unread = [] :=
    Machine.exists_run [.poll ⟨true, false, false⟩ [], .accept none, .reply plainReply]
      (by decide +kernel)
  refine ⟨trace, s, hrun, hlength, (no_request_waits_iff _ trace s hrun).mpr ?_⟩
  rintro ⟨t, a⟩ hp
  cases a with
  | reply reply =>
    intro _ _
    have hempty : t.client.conn.unread = [] := hunread _ hp
    rw [hempty]
    exact not_holdsRequest_of_no_line rfl
  | poll revents stamp => trivial
  | accept polled => trivial
  | close => trivial

def twoRequests : Descriptor where
  reads := [.octets (plainRequest.octets ++ plainRequest.octets)]
  writes := [.wrote 1000]
  wire := []

/-- **Two requests in one piece**: after the first reply the connection waits with the second
request in its buffer. -/
theorem pipelined_request_waits :
    ∃ trace s, Machine.Run serverStep (acceptedClient twoRequests) trace s ∧ Waiting s ∧
      s.client.conn.fd.pending = [] ∧ HoldsRequest s.client.conn.unread := by
  obtain ⟨trace, s, hrun, hwaiting, hpending, hunread⟩ : ∃ trace s,
      Machine.Run serverStep (acceptedClient twoRequests) trace s ∧
        (s.holder = .fdset ∧ s.client.conn.registered = true ∧
          s.client.state = .readingRequestLine) ∧
        s.client.conn.fd.pending = [] ∧ s.client.conn.unread = plainRequest.octets :=
    Machine.exists_run [.poll ⟨true, false, false⟩ [], .accept none, .reply plainReply]
      (by decide +kernel)
  exact ⟨trace, s, hrun, hwaiting, hpending, plainRequest, plainRequest_valid, by rw [hunread]⟩

end Kannel
