import Kannel.Gwlib.Octstr

/-!
# Connections

The positions stay inside the two buffers by type. A descriptor is the list of what its next
calls return. `ReadsBy`: try to split the unread octets, otherwise `read` once and try again.
-/

namespace Kannel
open List

/-- No octets are the end of the file, `again` stands for `EINTR`, `EAGAIN` and `EWOULDBLOCK`.
-/
inductive ReadResult
  | octets (data : Octstr)
  | again | error
  deriving DecidableEq, Repr

inductive WriteResult
  | wrote (count : Nat)
  | again | error
  deriving DecidableEq, Repr

structure Descriptor where
  reads : List ReadResult
  writes : List WriteResult
  wire : Octstr
  deriving DecidableEq, Repr

structure Connection where
  fd : Descriptor
  outbuf : Octstr
  outbufpos : Nat
  outputBuffering : Nat
  inbuf : Octstr
  inbufpos : Nat
  readEof : Bool
  ioError : Bool
  registered : Bool
  listeningPollin : Bool
  listeningPollout : Bool
  outbufpos_le : outbufpos ≤ outbuf.length
  inbufpos_le : inbufpos ≤ inbuf.length
  deriving DecidableEq, Repr

def connWrapFd (fd : Descriptor) : Connection where
  fd := fd
  outbuf := []
  outbufpos := 0
  outputBuffering := 0
  inbuf := []
  inbufpos := 0
  readEof := false
  ioError := false
  registered := false
  listeningPollin := false
  listeningPollout := false
  outbufpos_le := Nat.le_refl 0
  inbufpos_le := Nat.le_refl 0

def unlockedOutbufLen (conn : Connection) : Nat := conn.outbuf.length - conn.outbufpos

def unlockedInbufLen (conn : Connection) : Nat := conn.inbuf.length - conn.inbufpos

def octstrWriteData (conn : Connection) : Option Nat × Descriptor :=
  let unwritten := conn.outbuf.drop conn.outbufpos
  if conn.outbuf.length ≤ conn.outbufpos then (some 0, conn.fd)
  else
    match conn.fd.writes with
    | [] => (some 0, conn.fd)
    | .again :: writes => (some 0, { conn.fd with writes := writes })
    | .error :: writes => (none, { conn.fd with writes := writes })
    | .wrote count :: writes =>
      let accepted := min count unwritten.length
      (some accepted,
        { conn.fd with writes := writes, wire := conn.fd.wire ++ unwritten.take accepted })

variable {conn : Connection}

theorem octstrWriteData_le {count : Nat} (h : (octstrWriteData conn).1 = some count) :
    count ≤ conn.outbuf.length - conn.outbufpos := by
  grind [octstrWriteData, length_drop]

def discardWritten (conn : Connection) : Connection :=
  if conn.outbuf.length / 2 < conn.outbufpos then
    { conn with
      outbuf := octstrDelete conn.outbuf 0 conn.outbufpos
      outbufpos := 0
      outbufpos_le := Nat.zero_le _ }
  else conn

def countWritten (conn : Connection) (fd : Descriptor) (count : Nat)
    (h : count ≤ conn.outbuf.length - conn.outbufpos) : Connection :=
  { conn with
    fd := fd
    outbufpos := conn.outbufpos + count
    outbufpos_le := by have := conn.outbufpos_le; omega }

def unlockedWrite (conn : Connection) : Option Nat × Connection :=
  match h : octstrWriteData conn with
  | (none, fd) => (none, { conn with fd := fd, ioError := true })
  | (some ret, fd) =>
    let conn := discardWritten (countWritten conn fd ret (octstrWriteData_le (by rw [h])))
    (some ret,
      { conn with
        listeningPollout :=
          if conn.registered then decide (0 < unlockedOutbufLen conn)
          else conn.listeningPollout })

inductive TryWrite
  | emptied | left | failed
  deriving DecidableEq, Repr

def unlockedTryWrite (conn : Connection) : TryWrite × Connection :=
  let len := unlockedOutbufLen conn
  if len = 0 then (.emptied, conn)
  else if len < conn.outputBuffering then (.left, conn)
  else
    match unlockedWrite conn with
    | (none, conn) => (.failed, conn)
    | (some _, conn) => (if 0 < unlockedOutbufLen conn then .left else .emptied, conn)

def appendOut (conn : Connection) (data : Octstr) : Connection :=
  { conn with
    outbuf := conn.outbuf ++ data
    outbufpos_le := by
      have := conn.outbufpos_le
      rw [length_append]
      omega }

def connWrite (conn : Connection) (data : Octstr) : TryWrite × Connection :=
  unlockedTryWrite (appendOut conn data)

def connWriteWithlen (conn : Connection) (data : Octstr) : TryWrite × Connection :=
  unlockedTryWrite (appendOut (appendOut conn (encodeNetworkLong data.length)) data)

def Connection.skip (conn : Connection) (count : Nat) (h : count ≤ unlockedInbufLen conn) :
    Connection :=
  { conn with
    inbufpos := conn.inbufpos + count
    inbufpos_le := by
      have := conn.inbufpos_le
      unfold unlockedInbufLen at h
      omega }

def Connection.unread (conn : Connection) : Octstr := conn.inbuf.drop conn.inbufpos

def discardConsumed (conn : Connection) : Connection :=
  if 0 < conn.inbufpos then
    { conn with
      inbuf := octstrDelete conn.inbuf 0 conn.inbufpos
      inbufpos := 0
      inbufpos_le := Nat.zero_le _ }
  else conn

def unlockedRead (conn : Connection) : Connection :=
  let conn := discardConsumed conn
  match conn.fd.reads with
  | [] => conn
  | .again :: reads => { conn with fd := { conn.fd with reads := reads } }
  | .error :: reads =>
    { conn with
      fd := { conn.fd with reads := reads }
      ioError := true
      listeningPollin := !conn.registered && conn.listeningPollin }
  | .octets [] :: reads =>
    { conn with
      fd := { conn.fd with reads := reads }
      readEof := true
      listeningPollin := !conn.registered && conn.listeningPollin }
  | .octets (c :: data) :: reads =>
    { conn with
      fd := { conn.fd with reads := reads }
      inbuf := conn.inbuf ++ c :: data
      inbufpos_le := by
        have := conn.inbufpos_le
        rw [length_append]
        omega }

def unlockedGet (conn : Connection) (length : Nat) (h : length ≤ unlockedInbufLen conn) :
    Octstr × Connection :=
  (octstrGetManyChars conn.inbuf conn.inbufpos length, conn.skip length h)

def connReadEverything (conn : Connection) : Option Octstr × Connection :=
  let conn := if unlockedInbufLen conn = 0 then unlockedRead conn else conn
  if unlockedInbufLen conn = 0 then (none, conn)
  else
    let got := unlockedGet conn (unlockedInbufLen conn) (Nat.le_refl _)
    (some got.1, got.2)

def connReadFixed (conn : Connection) (length : Int) : Option Octstr × Connection :=
  if length < 1 then (none, conn)
  else
    let conn := if unlockedInbufLen conn < length.toNat then unlockedRead conn else conn
    if h : length.toNat ≤ unlockedInbufLen conn then
      let got := unlockedGet conn length.toNat h
      (some got.1, got.2)
    else (none, conn)

theorem octstrSearchChar_range {ostr : Octstr} {ch : UInt8} {pos found : Nat}
    (h : octstrSearchChar ostr ch pos = some found) : pos ≤ found ∧ found < ostr.length := by
  obtain ⟨i, hi, rfl⟩ := Option.map_eq_some_iff.mp h
  have hlt := (List.findIdx?_eq_some_iff_findIdx_eq.mp hi).1
  rw [length_drop] at hlt
  omega

def searchLinefeed (conn : Connection) :
    Option { pos : Nat // conn.inbufpos ≤ pos ∧ pos < conn.inbuf.length } :=
  match h : octstrSearchChar conn.inbuf 10 conn.inbufpos with
  | none => none
  | some pos => some ⟨pos, octstrSearchChar_range h⟩

def stripCr (line : Octstr) : Octstr :=
  if line.getLast? = some 13 then line.dropLast else line

def getLine (conn : Connection) (pos : Nat) (h : conn.inbufpos ≤ pos ∧ pos < conn.inbuf.length) :
    Octstr × Connection :=
  let length := pos - conn.inbufpos
  (stripCr (octstrGetManyChars conn.inbuf conn.inbufpos length),
    conn.skip (length + 1) (by unfold unlockedInbufLen; omega))

def connReadLine (conn : Connection) : Option Octstr × Connection :=
  match searchLinefeed conn with
  | some pos =>
    let got := getLine conn pos.1 pos.2
    (some got.1, got.2)
  | none =>
    let conn := unlockedRead conn
    match searchLinefeed conn with
    | some pos =>
      let got := getLine conn pos.1 pos.2
      (some got.1, got.2)
    | none => (none, conn)

def skipNegative : Nat → Octstr → Nat × Nat
  | _, a :: b :: c :: d :: rest =>
    let length := decodeNetworkLong [a, b, c, d]
    if length < 0 then
      let scan := skipNegative 0 rest
      (4 + scan.1, scan.2)
    else (0, length.toNat)
  | length, _ => (0, length)

theorem skipNegative_le (length : Nat) (buf : Octstr) :
    (skipNegative length buf).1 ≤ buf.length := by
  fun_induction skipNegative length buf <;> grind

def withlenTry (conn : Connection) (length : Nat) : Option Octstr × Connection × Nat :=
  let scan := skipNegative length conn.unread
  let conn := conn.skip scan.1 <| by
    have := skipNegative_le length conn.unread
    rwa [Connection.unread, length_drop] at this
  if h : 4 + scan.2 ≤ unlockedInbufLen conn then
    let got := unlockedGet (conn.skip 4 (by omega)) scan.2 <| by
      simp only [unlockedInbufLen, Connection.skip] at h ⊢
      omega
    (some got.1, got.2, scan.2)
  else (none, conn, scan.2)

def connReadWithlen (conn : Connection) : Option Octstr × Connection :=
  match withlenTry conn 0 with
  | (some result, conn, _) => (some result, conn)
  | (none, conn, length) =>
    let last := withlenTry (unlockedRead conn) length
    (last.1, last.2.1)

def ReadResult.data : ReadResult → Octstr
  | .octets data => data
  | .again => []
  | .error => []

def Descriptor.next (fd : Descriptor) : Octstr := (fd.reads.headD .again).data

def Descriptor.pending (fd : Descriptor) : Octstr := fd.reads.flatMap ReadResult.data

def Connection.unwritten (conn : Connection) : Octstr := conn.outbuf.drop conn.outbufpos

section
variable (conn : Connection)

@[simp] theorem length_unread : conn.unread.length = unlockedInbufLen conn :=
  length_drop

@[simp] theorem unread_skip (count : Nat) (h : count ≤ unlockedInbufLen conn) :
    (conn.skip count h).unread = conn.unread.drop count := by
  simp [Connection.skip, Connection.unread, drop_drop]

@[simp] theorem unread_discardConsumed : (discardConsumed conn).unread = conn.unread := by
  unfold discardConsumed
  split <;> simp [Connection.unread, octstrDelete]

@[simp] theorem fd_discardConsumed : (discardConsumed conn).fd = conn.fd := by
  unfold discardConsumed
  split <;> rfl

theorem unread_unlockedRead : (unlockedRead conn).unread = conn.unread ++ conn.fd.next := by
  rw [← unread_discardConsumed conn]
  simp only [unlockedRead, Descriptor.next]
  split <;> rename_i hreads <;> rw [fd_discardConsumed] at hreads <;>
    simp [hreads, ReadResult.data, Connection.unread,
      drop_append_of_le_length (discardConsumed conn).inbufpos_le]

theorem reads_unlockedRead : (unlockedRead conn).fd.reads = conn.fd.reads.tail := by
  simp only [unlockedRead]
  split <;> rename_i hreads <;> rw [fd_discardConsumed] at hreads <;> simp [hreads]

theorem pending_unlockedRead :
    conn.fd.pending = conn.fd.next ++ (unlockedRead conn).fd.pending := by
  simp only [Descriptor.pending, Descriptor.next, reads_unlockedRead]
  cases conn.fd.reads with
  | nil => rfl
  | cons r reads => rfl

theorem stream_unlockedRead :
    (unlockedRead conn).unread ++ (unlockedRead conn).fd.pending
      = conn.unread ++ conn.fd.pending := by
  rw [unread_unlockedRead, pending_unlockedRead conn, append_assoc]

end

def Connection.ahead (conn : Connection) : Nat := conn.unread.length + conn.fd.pending.length

theorem ahead_unlockedRead (conn : Connection) : (unlockedRead conn).ahead = conn.ahead := by
  have h := congrArg List.length (stream_unlockedRead conn)
  rwa [length_append, length_append] at h

def Took (conn : Connection) (rest : Octstr) (conn' : Connection) : Prop :=
  ∃ count, ∃ h : count ≤ unlockedInbufLen conn,
    conn' = conn.skip count h ∧ conn.unread.drop count = rest

variable {conn' : Connection}

theorem Took.unread_eq {rest : Octstr} (h : Took conn rest conn') : conn'.unread = rest := by
  obtain ⟨count, hcount, rfl, hrest⟩ := h
  rw [unread_skip, hrest]

theorem Took.fd_eq {rest : Octstr} (h : Took conn rest conn') : conn'.fd = conn.fd := by
  obtain ⟨count, hcount, rfl, -⟩ := h
  rfl

inductive ReadsBy (split : Octstr → Option (Octstr × Octstr)) (conn : Connection) :
    Option Octstr × Connection → Prop
  | buffered {result rest : Octstr} {conn' : Connection} :
      split conn.unread = some (result, rest) → Took conn rest conn' →
      ReadsBy split conn (some result, conn')
  | afterRead {result rest : Octstr} {conn' : Connection} :
      split conn.unread = none → split (unlockedRead conn).unread = some (result, rest) →
      Took (unlockedRead conn) rest conn' → ReadsBy split conn (some result, conn')
  | short :
      split conn.unread = none → split (unlockedRead conn).unread = none →
      ReadsBy split conn (none, unlockedRead conn)

def splitFixed (length : Nat) (buf : Octstr) : Option (Octstr × Octstr) :=
  if length ≤ buf.length then some (buf.take length, buf.drop length) else none

def splitLine (buf : Octstr) : Option (Octstr × Octstr) :=
  (octstrSearchChar buf 10 0).map fun pos => (stripCr (buf.take pos), buf.drop (pos + 1))

theorem connReadFixed_readsBy (conn : Connection) {length : Int} (h : 1 ≤ length) :
    ReadsBy (splitFixed length.toNat) conn (connReadFixed conn length) := by
  have hpos : ¬ length < 1 := by omega
  have htook : ∀ c : Connection, ∀ hc : length.toNat ≤ unlockedInbufLen c,
      Took c (c.unread.drop length.toNat) (c.skip length.toNat hc) :=
    fun c hc => ⟨length.toNat, hc, rfl, rfl⟩
  simp only [connReadFixed, hpos, if_false]
  by_cases hfirst : length.toNat ≤ unlockedInbufLen conn
  · have hlt : ¬ unlockedInbufLen conn < length.toNat := by omega
    simp only [hlt, if_false, hfirst, dif_pos]
    exact .buffered (by simp [splitFixed, hfirst]; rfl) (htook conn hfirst)
  · have hlt : unlockedInbufLen conn < length.toNat := by omega
    simp only [hlt, if_true]
    split
    · rename_i hsecond
      refine .afterRead (by simp [splitFixed, hfirst]) ?_ (htook _ hsecond)
      simp [splitFixed, hsecond]
      rfl
    · rename_i hsecond
      exact .short (by simp [splitFixed, hfirst]) (by simp [splitFixed, hsecond])

def splitEverything (buf : Octstr) : Option (Octstr × Octstr) :=
  if buf = [] then none else some (buf, [])

private theorem splitEverything_unread (h : unlockedInbufLen conn ≠ 0) :
    splitEverything conn.unread = some (conn.unread, []) := by
  have hne : conn.unread ≠ [] := by
    intro hnil
    rw [← length_unread, hnil] at h
    exact h rfl
  simp [splitEverything, hne]

private theorem splitEverything_unread_none (h : unlockedInbufLen conn = 0) :
    splitEverything conn.unread = none := by
  rw [← length_unread] at h
  simp [splitEverything, length_eq_zero_iff.mp h]

theorem connReadEverything_readsBy (conn : Connection) :
    ReadsBy splitEverything conn (connReadEverything conn) := by
  have hgot : ∀ c : Connection, octstrGetManyChars c.inbuf c.inbufpos (unlockedInbufLen c)
      = c.unread := by
    intro c
    exact take_of_length_le (Nat.le_of_eq (length_unread c))
  have htook : ∀ c : Connection, Took c [] (c.skip (unlockedInbufLen c) (Nat.le_refl _)) := by
    intro c
    exact ⟨_, Nat.le_refl _, rfl, drop_of_length_le (Nat.le_of_eq (length_unread c))⟩
  unfold connReadEverything
  by_cases hfirst : unlockedInbufLen conn = 0
  · simp only [hfirst, if_true]
    by_cases hsecond : unlockedInbufLen (unlockedRead conn) = 0
    · simp only [hsecond, if_true]
      exact .short (splitEverything_unread_none hfirst) (splitEverything_unread_none hsecond)
    · simp only [hsecond, if_false, unlockedGet, hgot]
      exact .afterRead (splitEverything_unread_none hfirst) (splitEverything_unread hsecond)
        (htook _)
  · simp only [hfirst, if_false, unlockedGet, hgot]
    exact .buffered (splitEverything_unread hfirst) (htook _)

private theorem octstrSearchChar_drop (ostr : Octstr) (ch : UInt8) (pos : Nat) :
    octstrSearchChar ostr ch pos = (octstrSearchChar (ostr.drop pos) ch 0).map (pos + ·) := by
  simp [octstrSearchChar]

theorem searchLinefeed_val (conn : Connection) :
    (searchLinefeed conn).map Subtype.val
      = (octstrSearchChar conn.unread 10 0).map (conn.inbufpos + ·) := by
  rw [Connection.unread, ← octstrSearchChar_drop]
  unfold searchLinefeed
  split
  · rename_i hsearch
    exact hsearch.symm
  · rename_i pos hsearch
    exact hsearch.symm

theorem splitLine_of_searchLinefeed_none (h : searchLinefeed conn = none) :
    splitLine conn.unread = none := by
  have hval := searchLinefeed_val conn
  rw [h, Option.map_none, eq_comm, Option.map_eq_none_iff] at hval
  rw [splitLine, hval, Option.map_none]

theorem splitLine_of_searchLinefeed
    {pos : { pos : Nat // conn.inbufpos ≤ pos ∧ pos < conn.inbuf.length }}
    (h : searchLinefeed conn = some pos) :
    ∃ rest, splitLine conn.unread = some ((getLine conn pos.1 pos.2).1, rest) ∧
      Took conn rest (getLine conn pos.1 pos.2).2 := by
  have hval := searchLinefeed_val conn
  rw [h, Option.map_some, eq_comm, Option.map_eq_some_iff] at hval
  obtain ⟨i, hi, hpos⟩ := hval
  obtain ⟨pos, hrange⟩ := pos
  subst hpos
  refine ⟨conn.unread.drop (i + 1), ?_, i + 1, ?_, ?_, rfl⟩
  · rw [splitLine, hi]
    simp [getLine, octstrGetManyChars, Connection.unread]
  · unfold unlockedInbufLen
    omega
  · simp [getLine]

theorem connReadLine_readsBy (conn : Connection) : ReadsBy splitLine conn (connReadLine conn) := by
  unfold connReadLine
  split
  · rename_i pos hpos
    obtain ⟨rest, hsplit, htook⟩ := splitLine_of_searchLinefeed hpos
    exact .buffered hsplit htook
  · rename_i hfirst
    have hnone := splitLine_of_searchLinefeed_none hfirst
    dsimp only
    split
    · rename_i pos hpos
      obtain ⟨rest, hsplit, htook⟩ := splitLine_of_searchLinefeed hpos
      exact .afterRead hnone hsplit htook
    · rename_i hsecond
      exact .short hnone (splitLine_of_searchLinefeed_none hsecond)

end Kannel
