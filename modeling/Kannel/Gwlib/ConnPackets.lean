import Kannel.Gwlib.Conn

/-!
# Packets with a length in front

One side writes with `conn_write_withlen`, the other reads with `conn_read_withlen`; the sockets
cut the stream anywhere.
-/

namespace Kannel
open List

def frame (packet : Octstr) : Octstr := encodeNetworkLong packet.length ++ packet

theorem length_frame (packet : Octstr) : (frame packet).length = 4 + packet.length := by
  simp [frame]

inductive SendEvent
  | packet (data : Octstr)
  | writable
  deriving DecidableEq, Repr

def sendEvent (conn : Connection) : SendEvent → Connection
  | .packet data => (connWriteWithlen conn data).2
  | .writable => (unlockedWrite conn).2

def packetsOf (events : List SendEvent) : List Octstr :=
  events.filterMap fun
    | .packet data => some data
    | .writable => none

variable (conn : Connection)

theorem stream_countWritten (fd : Descriptor) (count : Nat)
    (h : count ≤ conn.outbuf.length - conn.outbufpos) :
    (discardWritten (countWritten conn fd count h)).fd = fd ∧
      (discardWritten (countWritten conn fd count h)).unwritten = conn.unwritten.drop count := by
  unfold discardWritten
  split <;> simp [countWritten, Connection.unwritten, octstrDelete, drop_drop]

def Connection.stream (conn : Connection) : Octstr := conn.fd.wire ++ conn.unwritten

section
variable (conn : Connection)

theorem stream_unlockedWrite : (unlockedWrite conn).2.stream = conn.stream := by
  unfold unlockedWrite
  split
  · rename_i fd hdata
    have hwire : fd.wire = conn.fd.wire := by grind [octstrWriteData]
    simp [hwire, Connection.stream, Connection.unwritten]
  · rename_i ret fd hdata
    have hwire : fd.wire = conn.fd.wire ++ conn.unwritten.take ret := by
      grind [octstrWriteData, Connection.unwritten]
    have hle : ret ≤ conn.outbuf.length - conn.outbufpos := octstrWriteData_le (by rw [hdata])
    obtain ⟨hfd, hrest⟩ := stream_countWritten conn fd ret hle
    have hrest' : List.drop (discardWritten (countWritten conn fd ret hle)).outbufpos
      (discardWritten (countWritten conn fd ret hle)).outbuf = conn.unwritten.drop ret := hrest
    simp [Connection.stream, Connection.unwritten, hfd, hwire, hrest']

theorem stream_unlockedTryWrite : (unlockedTryWrite conn).2.stream = conn.stream := by
  have hwrite := stream_unlockedWrite conn
  grind [unlockedTryWrite]

theorem stream_appendOut (data : Octstr) : (appendOut conn data).stream = conn.stream ++ data := by
  simp [appendOut, Connection.stream, Connection.unwritten,
    drop_append_of_le_length conn.outbufpos_le]

theorem stream_connWriteWithlen (data : Octstr) :
    (connWriteWithlen conn data).2.stream = conn.stream ++ frame data := by
  rw [connWriteWithlen, stream_unlockedTryWrite, stream_appendOut, stream_appendOut, append_assoc,
    frame]

theorem stream_sendAll (events : List SendEvent) :
    (events.foldl sendEvent conn).stream = conn.stream ++ (packetsOf events).flatMap frame := by
  induction events generalizing conn with
  | nil => simp [packetsOf]
  | cons event events ih =>
    rw [foldl_cons, ih]
    cases event with
    | packet data =>
      rw [sendEvent, stream_connWriteWithlen]
      simp [packetsOf]
    | writable =>
      rw [sendEvent, stream_unlockedWrite]
      simp [packetsOf]

end

def connSetOutputBuffering (conn : Connection) (size : Nat) : Connection :=
  (unlockedTryWrite { conn with outputBuffering := size }).2

inductive FlushPoll
  | failed (eintr : Bool)
  | woken
  | events (pollnval ready : Bool)
  deriving DecidableEq, Repr

def flushWrite (next : Connection → Option TryWrite × Connection) (conn : Connection) :
    Option TryWrite × Connection :=
  match unlockedWrite conn with
  | (none, conn) => (some .failed, conn)
  | (some _, conn) => next conn

def connFlushLoop : List FlushPoll → Connection → Option TryWrite × Connection
  | [], conn => (if unlockedOutbufLen conn = 0 then some .emptied else none, conn)
  | poll :: polls, conn =>
    if unlockedOutbufLen conn = 0 then (some .emptied, conn)
    else match poll with
      | .failed eintr => (some (if eintr then .left else .failed), conn)
      | .woken => (some .left, conn)
      | .events true _ => (some .failed, conn)
      | .events false false => connFlushLoop polls conn
      | .events false true => flushWrite (fun conn => connFlushLoop polls conn) conn

/-- Without an answer it still waits in `poll`. -/
def connFlush (conn : Connection) (polls : List FlushPoll) : Option TryWrite × Connection :=
  flushWrite (connFlushLoop polls) conn

inductive OutputCall
  | write (data : Octstr)
  | writeWithlen (data : Octstr)
  | flush (polls : List FlushPoll)
  | setOutputBuffering (size : Nat)
  | writable
  deriving DecidableEq, Repr

def outputCall (conn : Connection) : OutputCall → Connection
  | .write data => (connWrite conn data).2
  | .writeWithlen data => (connWriteWithlen conn data).2
  | .flush polls => (connFlush conn polls).2
  | .setOutputBuffering size => connSetOutputBuffering conn size
  | .writable => (unlockedWrite conn).2

def OutputCall.data : OutputCall → Octstr
  | .write data => data
  | .writeWithlen data => frame data
  | .flush _ | .setOutputBuffering _ | .writable => []

theorem stream_flushWrite {next : Connection → Option TryWrite × Connection}
    (hnext : ∀ conn, (next conn).2.stream = conn.stream) (conn : Connection) :
    (flushWrite next conn).2.stream = conn.stream := by
  rw [← stream_unlockedWrite conn, flushWrite]
  split
  · rename_i hwrite
    rw [hwrite]
  · rename_i hwrite
    rw [hwrite, hnext]

theorem stream_connFlushLoop (polls : List FlushPoll) (conn : Connection) :
    (connFlushLoop polls conn).2.stream = conn.stream := by
  induction polls generalizing conn with
  | nil => rfl
  | cons poll polls ih =>
    unfold connFlushLoop
    split_ifs
    · rfl
    · match poll with
      | .failed _ | .woken | .events true _ => rfl
      | .events false false => exact ih conn
      | .events false true => exact stream_flushWrite ih conn

theorem stream_outputCall (call : OutputCall) :
    (outputCall conn call).stream = conn.stream ++ call.data := by
  cases call with
  | write data => exact (stream_unlockedTryWrite _).trans (stream_appendOut conn data)
  | writeWithlen data => exact stream_connWriteWithlen conn data
  | flush polls =>
    exact (stream_flushWrite (stream_connFlushLoop polls) conn).trans (append_nil _).symm
  | setOutputBuffering size => exact (stream_unlockedTryWrite _).trans (append_nil _).symm
  | writable => exact (stream_unlockedWrite conn).trans (append_nil _).symm

theorem stream_outputCalls (calls : List OutputCall) :
    (calls.foldl outputCall conn).stream = conn.stream ++ calls.flatMap OutputCall.data := by
  induction calls generalizing conn with
  | nil => exact (append_nil _).symm
  | cons call calls ih => rw [foldl_cons, ih, stream_outputCall, flatMap_cons, append_assoc]

/-- **No octet is lost or repeated**: what the kernel took and what is left in the buffer are the
data of the calls. -/
theorem outputCalls_wire (fd : Descriptor) (calls : List OutputCall) :
    (calls.foldl outputCall (connWrapFd fd)).fd.wire ++
        (calls.foldl outputCall (connWrapFd fd)).unwritten =
      fd.wire ++ calls.flatMap OutputCall.data := by
  refine (stream_outputCalls (connWrapFd fd) calls).trans ?_
  rw [Connection.stream, connWrapFd]
  simp [Connection.unwritten]

variable {more packet : Octstr}

theorem skipNegative_frame {buf : Octstr} (hsmall : packet.length < 2 ^ 31)
    (h : buf <+: frame packet ++ more) (length : Nat) :
    skipNegative length buf = (0, if 4 ≤ buf.length then packet.length else length) := by
  match buf with
  | [] | [_] | [_, _] | [_, _, _] => simp [skipNegative]
  | a :: b :: c :: d :: rest =>
    have hhead : [a, b, c, d] = encodeNetworkLong packet.length := by
      obtain ⟨tail, htail⟩ := h
      have htake := congrArg (List.take 4) htail
      rw [frame, append_assoc] at htake
      simpa using htake
    have hdecode : decodeNetworkLong [a, b, c, d] = packet.length := by
      have hulong : toUlong packet.length = packet.length := by
        unfold toUlong
        omega
      rw [hhead, ← hulong, decode_encodeNetworkLong, toInt_of_fits] <;> omega
    have hnonneg : ¬ (packet.length : Int) < 0 := by omega
    simp [skipNegative, hdecode, hnonneg]

def splitPacket (packet buf : Octstr) : Option (Octstr × Octstr) :=
  if (frame packet).length ≤ buf.length then some (packet, buf.drop (frame packet).length)
  else none

variable {conn : Connection}

theorem withlenTry_frame (hsmall : packet.length < 2 ^ 31)
    (h : conn.unread <+: frame packet ++ more) (length : Nat) :
    (∃ rest conn' length', splitPacket packet conn.unread = some (packet, rest) ∧
        Took conn rest conn' ∧ withlenTry conn length = (some packet, conn', length')) ∨
      (splitPacket packet conn.unread = none ∧
        ∃ length', withlenTry conn length = (none, conn, length')) := by
  have hscan := skipNegative_frame hsmall h length
  have hskip : ∀ h0, conn.skip 0 h0 = conn := fun h0 => rfl
  by_cases hfits : 4 + packet.length ≤ unlockedInbufLen conn
  · have hfour : 4 ≤ unlockedInbufLen conn := by omega
    have hunread : conn.unread.take (4 + packet.length) = frame packet := by
      rw [← length_frame]
      obtain ⟨tail, htail⟩ := h
      have htake := congrArg (List.take (frame packet).length) htail
      rwa [take_left, take_append_of_le_length
        (by rw [length_frame, length_unread]; exact hfits)] at htake
    have hpacket : (conn.unread.drop 4).take packet.length = packet := by
      rw [take_drop, hunread, frame, drop_left' (length_encodeNetworkLong _)]
    refine .inl ⟨conn.unread.drop (4 + packet.length), conn.skip (4 + packet.length) hfits,
      packet.length, ?_, ⟨_, hfits, rfl, rfl⟩, ?_⟩
    · simp [splitPacket, length_frame, hfits]
    · simp only [length_unread, hfour, if_true] at hscan
      simp only [withlenTry, hscan, hskip, hfits, dif_pos]
      simp only [unlockedGet, octstrGetManyChars, Connection.skip, ← drop_drop]
      rw [← Connection.unread, hpacket]
      simp [Nat.add_assoc]
  · refine .inr
      ⟨by simp [splitPacket, length_frame, hfits], (skipNegative length conn.unread).2, ?_⟩
    have hshort : ¬ 4 + (skipNegative length conn.unread).2 ≤ unlockedInbufLen conn := by
      rw [hscan, length_unread]
      split <;> omega
    have hzero : (skipNegative length conn.unread).1 = 0 := by rw [hscan]
    simp only [withlenTry, hzero, hskip, hshort, dif_neg, not_false_eq_true]

theorem connReadWithlen_readsBy (hsmall : packet.length < 2 ^ 31)
    (h : conn.unread ++ conn.fd.pending <+: frame packet ++ more) :
    ReadsBy (splitPacket packet) conn (connReadWithlen conn) := by
  have hfirst := withlenTry_frame hsmall ((prefix_append _ _).trans h) 0
  have hread : (unlockedRead conn).unread <+: frame packet ++ more := by
    rw [← stream_unlockedRead conn] at h
    exact (prefix_append _ _).trans h
  unfold connReadWithlen
  rcases hfirst with ⟨rest, conn', length', hsplit, htook, htry⟩ | ⟨hnone, length', htry⟩
  · rw [htry]
    exact .buffered hsplit htook
  · simp only [htry]
    rcases withlenTry_frame hsmall hread length' with
      ⟨rest, conn', length'', hsplit, htook, htry'⟩ | ⟨hnone', length'', htry'⟩
    · rw [htry']
      exact .afterRead hnone hsplit htook
    · rw [htry']
      exact .short hnone hnone'

structure Receiver where
  conn : Connection
  results : List (Option Octstr)

inductive ReceiveEvent
  | call | readable
  deriving DecidableEq, Repr

def receiveEvent (r : Receiver) : ReceiveEvent → Receiver
  | .call =>
    let out := connReadWithlen r.conn
    { conn := out.2, results := r.results ++ [out.1] }
  | .readable => { r with conn := unlockedRead r.conn }

def Receiver.returned (r : Receiver) : List Octstr := r.results.filterMap id

def Framed (packets : List Octstr) (missing : Octstr) (r : Receiver) : Prop :=
  ∃ rest, packets = r.returned ++ rest ∧
    r.conn.unread ++ r.conn.fd.pending ++ missing = rest.flatMap frame

inductive CallOutcome (rest : List Octstr) (conn : Connection) :
    Option Octstr × Connection → Prop
  | returned {packet : Octstr} {later : List Octstr} {conn' : Connection} :
      rest = packet :: later →
      conn.unread ++ conn.fd.pending = frame packet ++ (conn'.unread ++ conn'.fd.pending) →
      conn'.fd.pending <:+ conn.fd.pending →
      CallOutcome rest conn (some packet, conn')
  | waiting :
      (∀ packet later, rest = packet :: later →
        ¬ frame packet <+: conn.unread ∧ ¬ frame packet <+: (unlockedRead conn).unread) →
      CallOutcome rest conn (none, unlockedRead conn)

private theorem stream_of_took {rest : Octstr} {conn' : Connection}
    (h : conn.unread ++ conn.fd.pending <+: frame packet ++ more)
    (hsplit : splitPacket packet conn.unread = some (packet, rest)) (htook : Took conn rest conn') :
    conn.unread ++ conn.fd.pending = frame packet ++ (conn'.unread ++ conn'.fd.pending) := by
  have hsome : (frame packet).length ≤ conn.unread.length ∧
      conn.unread.drop (frame packet).length = rest := by
    grind [splitPacket]
  obtain ⟨hle, hrest⟩ := hsome
  have hhead : conn.unread.take (frame packet).length = frame packet := by
    obtain ⟨tail, htail⟩ := h
    have htake := congrArg (List.take (frame packet).length) htail
    rwa [take_left, append_assoc, take_append_of_le_length hle] at htake
  rw [htook.unread_eq, htook.fd_eq, ← hrest, ← append_assoc]
  congr 1
  calc conn.unread
      = conn.unread.take (frame packet).length ++ conn.unread.drop (frame packet).length :=
        (take_append_drop _ _).symm
    _ = frame packet ++ conn.unread.drop (frame packet).length := by rw [hhead]

private theorem not_complete_of_splitPacket {buf : Octstr} (h : splitPacket packet buf = none) :
    ¬ frame packet <+: buf := by
  intro hpre
  grind [splitPacket]

theorem connReadWithlen_outcome {rest : List Octstr}
    (hsmall : ∀ packet ∈ rest, packet.length < 2 ^ 31)
    (h : conn.unread ++ conn.fd.pending <+: rest.flatMap frame) :
    CallOutcome rest conn (connReadWithlen conn) := by
  cases rest with
  | nil =>
    -- nothing is buffered and nothing will come: both rounds fail
    have hempty : conn.unread ++ conn.fd.pending = [] := by simpa using h
    have hpre : conn.unread ++ conn.fd.pending <+: frame [] ++ [] := by
      rw [hempty]
      exact nil_prefix
    have hshort : ∀ c : Connection, c.unread = [] → splitPacket [] c.unread = none := by
      intro c hc
      simp [splitPacket, hc, length_frame]
    have hread : (unlockedRead conn).unread = [] := by
      have hstream := stream_unlockedRead conn
      rw [hempty] at hstream
      exact (append_eq_nil_iff.mp hstream).1
    have hbuf : conn.unread = [] := (append_eq_nil_iff.mp hempty).1
    generalize hout : connReadWithlen conn = out
    have hreads := connReadWithlen_readsBy (by simp) hpre
    rw [hout] at hreads
    cases hreads with
    | buffered hsplit _ => simp [hshort conn hbuf] at hsplit
    | afterRead _ hsplit _ => simp [hshort _ hread] at hsplit
    | short _ _ => exact .waiting (by simp)
  | cons packet later =>
    have hread := h
    rw [← stream_unlockedRead conn] at hread
    generalize hout : connReadWithlen conn = out
    have hreads := connReadWithlen_readsBy (hsmall packet mem_cons_self) h
    rw [hout] at hreads
    cases hreads with
    | @buffered result rest conn' hsplit htook =>
      obtain rfl : result = packet := by grind [splitPacket]
      refine .returned rfl (stream_of_took h hsplit htook) ?_
      rw [htook.fd_eq]
    | @afterRead result rest conn' _ hsplit htook =>
      obtain rfl : result = packet := by grind [splitPacket]
      refine .returned rfl ?_ ?_
      · rw [← stream_unlockedRead conn]
        exact stream_of_took hread hsplit htook
      · rw [htook.fd_eq, pending_unlockedRead conn]
        exact suffix_append _ _
    | short hfirst hsecond =>
      refine .waiting ?_
      rintro _ _ ⟨⟩
      exact ⟨not_complete_of_splitPacket hfirst, not_complete_of_splitPacket hsecond⟩

section Run
variable {packets : List Octstr} {missing : Octstr} {r : Receiver}

section
variable (h : Framed packets missing r) (hsmall : ∀ packet ∈ packets, packet.length < 2 ^ 31)
include h hsmall

theorem Framed.outcome :
    CallOutcome (packets.drop r.returned.length) r.conn (connReadWithlen r.conn) := by
  obtain ⟨rest, rfl, hstream⟩ := h
  rw [drop_left]
  apply connReadWithlen_outcome
  · intro packet hpacket
    exact hsmall packet (mem_append_right _ hpacket)
  · exact ⟨missing, hstream⟩

theorem Framed.receiveEvent (event : ReceiveEvent) :
    Framed packets missing (receiveEvent r event) := by
  have hcall := h.outcome hsmall
  obtain ⟨rest, rfl, hstream⟩ := h
  cases event with
  | readable =>
    refine ⟨rest, rfl, ?_⟩
    rw [Kannel.receiveEvent, stream_unlockedRead]
    exact hstream
  | call =>
    rw [drop_left] at hcall
    simp only [Kannel.receiveEvent, Framed, Receiver.returned, filterMap_append]
    generalize connReadWithlen r.conn = out at hcall ⊢
    cases hcall with
    | @returned packet later conn' hcons hframe _ =>
      refine ⟨later, by simp [hcons], ?_⟩
      rw [hframe, hcons, flatMap_cons, append_assoc] at hstream
      exact append_cancel_left hstream
    | waiting _ =>
      refine ⟨rest, by simp, ?_⟩
      rw [stream_unlockedRead]
      exact hstream

theorem Framed.receiveAll (events : List ReceiveEvent) :
    Framed packets missing (events.foldl Kannel.receiveEvent r) := by
  induction events generalizing r with
  | nil => exact h
  | cons event events ih => exact ih (h.receiveEvent hsmall event)

end

theorem Framed.returned_calls (h : Framed packets [] r)
    (hsmall : ∀ packet ∈ packets, packet.length < 2 ^ 31) (hread : r.conn.fd.pending = [])
    (n : Nat) (hn : packets.length ≤ r.returned.length + n) :
    ((replicate n ReceiveEvent.call).foldl Kannel.receiveEvent r).returned = packets := by
  induction n generalizing r with
  | zero =>
    obtain ⟨rest, rfl, -⟩ := h
    have hnil : rest = [] := by simpa using hn
    simp [hnil]
  | succ n ih =>
    have hcall := h.outcome hsmall
    have hnext := h.receiveEvent hsmall .call
    obtain ⟨rest, rfl, hstream⟩ := h
    rw [drop_left] at hcall
    have hpending : (connReadWithlen r.conn).2.fd.pending = [] ∧
        (r.returned ++ rest).length ≤ (Kannel.receiveEvent r .call).returned.length + n := by
      simp only [Kannel.receiveEvent, Receiver.returned, filterMap_append] at hn ⊢
      generalize connReadWithlen r.conn = out at hcall ⊢
      cases hcall with
      | @returned packet later conn' hcons hframe hsuffix =>
        rw [hread] at hsuffix
        refine ⟨suffix_nil.mp hsuffix, ?_⟩
        simp only [length_append, hcons, length_cons] at hn ⊢
        simp
        omega
      | waiting hwait =>
        -- a packet that is left would be complete in the buffer
        have hnil : rest = [] := by
          cases rest with
          | nil => rfl
          | cons packet later =>
            refine absurd ?_ (hwait packet later rfl).1
            rw [hread, append_nil, append_nil] at hstream
            rw [hstream]
            exact prefix_append _ _
        refine ⟨?_, by simp [hnil]⟩
        have hpending := pending_unlockedRead r.conn
        rw [hread] at hpending
        exact (append_eq_nil_iff.mp hpending.symm).2
    exact ih hnext hpending.1 hpending.2

end Run

def sendAll (writes : List WriteResult) (events : List SendEvent) : Connection :=
  events.foldl sendEvent (connWrapFd { reads := [], writes := writes, wire := [] })

def receiveAll (reads : List ReadResult) (events : List ReceiveEvent) : Receiver :=
  events.foldl receiveEvent
    { conn := connWrapFd { reads := reads, writes := [], wire := [] }, results := [] }

theorem sendAll_wire (writes : List WriteResult) (events : List SendEvent) :
    (sendAll writes events).fd.wire <+: (packetsOf events).flatMap frame :=
  ⟨(sendAll writes events).unwritten, stream_sendAll _ events⟩

/-- **Packets survive any fragmentation.**  What has been returned is the first packets in
order; a call returns the next one as soon as its frame is buffered; and once all frames have
been read, as many calls as packets are left return them all. -/
theorem connReadWithlen_returns_packets (writes : List WriteResult) (sends : List SendEvent)
    (reads : List ReadResult) (events : List ReceiveEvent)
    (hsmall : ∀ packet ∈ packetsOf sends, packet.length < 2 ^ 31)
    (hcut : reads.flatMap ReadResult.data <+: (sendAll writes sends).fd.wire) :
    let packets := packetsOf sends
    let r := receiveAll reads events
    r.returned = packets.take r.returned.length ∧
      (∀ packet, packets[r.returned.length]? = some packet →
        (frame packet <+: r.conn.unread → (connReadWithlen r.conn).1 = some packet) ∧
        ((connReadWithlen r.conn).1 = none →
          ¬ frame packet <+: (connReadWithlen r.conn).2.unread)) ∧
      (reads.flatMap ReadResult.data = packets.flatMap frame → r.conn.fd.pending = [] →
        ∀ n, packets.length ≤ r.returned.length + n →
          (receiveAll reads (events ++ replicate n .call)).returned = packets) := by
  intro packets r
  obtain ⟨missing, hmissing⟩ := hcut.trans (sendAll_wire writes sends)
  have hframed : ∀ gap, reads.flatMap ReadResult.data ++ gap = packets.flatMap frame →
      Framed packets gap r := by
    intro gap hgap
    have hstart : Framed packets gap (receiveAll reads []) := ⟨packets, rfl, hgap⟩
    exact hstart.receiveAll hsmall events
  have hcall := (hframed missing hmissing).outcome hsmall
  refine ⟨?_, ?_, ?_⟩
  · obtain ⟨rest, hrest, -⟩ := hframed missing hmissing
    rw [hrest, take_left]
  · intro packet hpacket
    have hcons : packets.drop r.returned.length
        = packet :: packets.drop (r.returned.length + 1) := by
      obtain ⟨hlt, hget⟩ := List.getElem?_eq_some_iff.mp hpacket
      rw [drop_eq_getElem_cons hlt, hget]
    rw [hcons] at hcall
    generalize connReadWithlen r.conn = out at hcall ⊢
    cases hcall with
    | returned heq _ _ =>
      cases heq
      simp
    | waiting hwait =>
      obtain ⟨hbefore, hafter⟩ := hwait packet _ rfl
      exact ⟨fun hpre => absurd hpre hbefore, fun _ => hafter⟩
  · intro hall hread n hn
    have hdone := (hframed [] (by rw [append_nil]; exact hall)).returned_calls hsmall hread n hn
    rw [receiveAll, foldl_append]
    exact hdone

theorem connReadWithlen_returns_two :
    (receiveAll [.octets [0, 0], .again, .octets [0, 0, 0], .octets [0, 0, 2, 7, 8]]
      ([.call, .readable, .call, .readable] ++ replicate 2 .call)).returned =
        [[], [7, 8]] := by
  have h := connReadWithlen_returns_packets [.wrote 3, .again, .wrote 10]
    [.packet [], .packet [7, 8], .writable]
    [.octets [0, 0], .again, .octets [0, 0, 0], .octets [0, 0, 2, 7, 8]]
    [.call, .readable, .call, .readable] (by decide) (by decide)
  have hrest := h.2.2 (by decide) (by decide) 2 (by decide)
  exact hrest

end Kannel
