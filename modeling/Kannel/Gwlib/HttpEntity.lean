import Kannel.Gwlib.Conn
import Kannel.Gwlib.OctstrText

/-!
# HTTP entities: headers and body

What has been understood is in the `HTTPEntity`, the rest in the connection's input buffer.
-/

namespace Kannel

def headerIsCalled (header name : Octstr) : Bool :=
  match octstrSearchChar header 58 0 with
  | none => false
  | some colon => decide (name.length = colon) && equalIgnoringCase (header.take colon) name

def httpHeaderFindFirst (headers : List Octstr) (name : Octstr) : Option Octstr :=
  (headers.find? (headerIsCalled · name)).map fun h => octstrStripBlanks (h.drop (name.length + 1))

inductive ReadStatus
  | failed | complete | more
  deriving DecidableEq, Repr

def Connection.ended (conn : Connection) : Bool := conn.readEof || conn.ioError

def addHeaderLine (headers : List Octstr) (line : Octstr) : List Octstr :=
  match headers.getLast? with
  | some prev =>
    if (line.head?.map isspace).getD false then headers.dropLast ++ [prev ++ line]
    else headers ++ [line]
  | none => headers ++ [line]

def readSomeHeadersLoop : Nat → Connection → List Octstr →
    Option (ReadStatus × Connection × List Octstr)
  | 0, _, _ => none
  | rounds+1, conn, headers =>
    match connReadLine conn with
    | (none, conn) => some (if conn.ended then .failed else .more, conn, headers)
    | (some line, conn) =>
      if line = [] then some (.complete, conn, headers)
      else readSomeHeadersLoop rounds conn (addHeaderLine headers line)

variable {buf rest : Octstr}
variable {conn conn' : Connection}

theorem splitLine_length {line : Octstr} (h : splitLine buf = some (line, rest)) :
    rest.length < buf.length := by
  obtain ⟨pos, hpos, heq⟩ := Option.map_eq_some_iff.mp h
  have hrange := octstrSearchChar_range hpos
  cases heq
  rw [List.length_drop]
  omega

theorem splitFixed_length {length : Nat} {data : Octstr} (hpos : 0 < length)
    (h : splitFixed length buf = some (data, rest)) : rest.length < buf.length := by
  grind [splitFixed, List.length_drop]

section Ahead
variable {split : Octstr → Option (Octstr × Octstr)}

theorem ReadsBy.ahead_none (h : ReadsBy split conn (none, conn')) : conn'.ahead = conn.ahead := by
  cases h with
  | short _ _ => exact ahead_unlockedRead conn

theorem ReadsBy.ahead_some {result : Octstr} (h : ReadsBy split conn (some result, conn'))
    (hsplit : ∀ {buf r rest}, split buf = some (r, rest) → rest.length < buf.length) :
    conn'.ahead < conn.ahead := by
  have htook : ∀ {c : Connection} {rest : Octstr}, split c.unread = some (result, rest) →
      Took c rest conn' → conn'.ahead < c.ahead := by
    intro c rest hc htook
    have hlt := hsplit hc
    rw [Connection.ahead, Connection.ahead, htook.unread_eq, htook.fd_eq]
    omega
  cases h with
  | buffered hc ht => exact htook hc ht
  | afterRead _ hc ht =>
    rw [← ahead_unlockedRead conn]
    exact htook hc ht

end Ahead

variable {rounds : Nat}

theorem readSomeHeadersLoop_isSome (headers : List Octstr) (h : conn.ahead < rounds) :
    (readSomeHeadersLoop rounds conn headers).isSome := by
  induction rounds generalizing conn headers with
  | zero => omega
  | succ rounds ih =>
    have hread := connReadLine_readsBy conn
    unfold readSomeHeadersLoop
    split
    · rfl
    · rename_i line conn' heq
      rw [heq] at hread
      have hlt := hread.ahead_some splitLine_length
      split
      · rfl
      · exact ih _ (by omega)

def readSomeHeaders (conn : Connection) (headers : List Octstr) :
    ReadStatus × Connection × List Octstr :=
  (readSomeHeadersLoop (conn.ahead + 1) conn headers).get
    (readSomeHeadersLoop_isSome headers (Nat.lt_succ_self _))

inductive BodyExpectation
  | expectNoBody | expectBodyIfIndicated | expectBody
  deriving DecidableEq, Repr

inductive EntityState
  | readingHeaders | readingChunkedBodyLen | readingChunkedBodyData | readingChunkedBodyCrlf
  | readingChunkedBodyTrailer | readingBodyUntilEof | readingBodyWithLength | bodyError | entityDone
  deriving DecidableEq, Repr

structure HTTPEntity where
  headers : List Octstr
  body : Octstr
  expectState : BodyExpectation
  state : EntityState
  chunkedBodyChunkLen : Int
  expectedBodyLen : Int
  deriving DecidableEq, Repr

def entityCreate (exp : BodyExpectation) : HTTPEntity where
  headers := []
  body := []
  expectState := exp
  state := .readingHeaders
  chunkedBodyChunkLen := -1
  expectedBodyLen := -1

def deduceBodyState (ent : HTTPEntity) : HTTPEntity :=
  if ent.expectState = .expectNoBody then { ent with state := .entityDone }
  else
    match httpHeaderFindFirst ent.headers (ascii "Transfer-Encoding") with
    | some h =>
      if octstrGetCstr (some (octstrStripBlanks h)) = ascii "chunked" then
        { ent with state := .readingChunkedBodyLen }
      else { ent with state := .bodyError }
    | none =>
      match httpHeaderFindFirst ent.headers (ascii "Content-Length") with
      | some h =>
        match octstrParseLong h 0 10 with
        | none => { ent with state := .bodyError }
        | some (len, _) =>
          { ent with
            expectedBodyLen := len
            state :=
              if len < 0 then .bodyError
              else if len = 0 then .entityDone
              else .readingBodyWithLength }
      | none =>
        if ent.expectState = .expectBody then { ent with state := .readingBodyUntilEof }
        else { ent with state := .entityDone }

def HTTPEntity.chunkLenLine (ent : HTTPEntity) (line : Octstr) : HTTPEntity :=
  match octstrParseLong line 0 16 with
  | none => { ent with state := .bodyError }
  | some (len, _) =>
    if len = 0 then { ent with state := .readingChunkedBodyTrailer }
    else { ent with state := .readingChunkedBodyData, chunkedBodyChunkLen := len }

def HTTPEntity.failIfEnded (ent : HTTPEntity) (conn : Connection) : HTTPEntity :=
  if conn.ended then { ent with state := .bodyError } else ent

def readChunkedBodyLen (ent : HTTPEntity) (conn : Connection) : HTTPEntity × Connection :=
  match connReadLine conn with
  | (none, conn) => (ent.failIfEnded conn, conn)
  | (some os, conn) => (ent.chunkLenLine os, conn)

def readChunkedBodyData (ent : HTTPEntity) (conn : Connection) : HTTPEntity × Connection :=
  match connReadFixed conn ent.chunkedBodyChunkLen with
  | (none, conn) => (ent.failIfEnded conn, conn)
  | (some os, conn) => ({ ent with body := ent.body ++ os, state := .readingChunkedBodyCrlf }, conn)

def readChunkedBodyCrlf (ent : HTTPEntity) (conn : Connection) : HTTPEntity × Connection :=
  match connReadLine conn with
  | (none, conn) => (ent.failIfEnded conn, conn)
  | (some _, conn) => ({ ent with state := .readingChunkedBodyLen }, conn)

def readChunkedBodyTrailer (ent : HTTPEntity) (conn : Connection) : HTTPEntity × Connection :=
  match readSomeHeaders conn ent.headers with
  | (.failed, conn, headers) => ({ ent with headers := headers, state := .bodyError }, conn)
  | (.complete, conn, headers) => ({ ent with headers := headers, state := .entityDone }, conn)
  | (.more, conn, headers) => ({ ent with headers := headers }, conn)

def readEverythingLoop : Nat → Connection → Octstr → Option (Connection × Octstr)
  | 0, _, _ => none
  | rounds+1, conn, body =>
    match connReadEverything conn with
    | (none, conn) => some (conn, body)
    | (some os, conn) => readEverythingLoop rounds conn (body ++ os)

theorem splitEverything_length {data : Octstr} (h : splitEverything buf = some (data, rest)) :
    rest.length < buf.length := by
  grind [splitEverything, List.length_pos_iff]

theorem readEverythingLoop_isSome (body : Octstr) (h : conn.ahead < rounds) :
    (readEverythingLoop rounds conn body).isSome := by
  induction rounds generalizing conn body with
  | zero => omega
  | succ rounds ih =>
    have hread := connReadEverything_readsBy conn
    unfold readEverythingLoop
    split
    · rfl
    · rename_i os conn' heq
      rw [heq] at hread
      have hlt := hread.ahead_some splitEverything_length
      exact ih _ (by omega)

def readBodyUntilEof (ent : HTTPEntity) (conn : Connection) : HTTPEntity × Connection :=
  let got := (readEverythingLoop (conn.ahead + 1) conn ent.body).get
    (readEverythingLoop_isSome ent.body (Nat.lt_succ_self _))
  ({ ent with
      body := got.2
      state :=
        if got.1.readEof then .entityDone
        else if got.1.ioError then .bodyError
        else ent.state },
    got.1)

def readBodyWithLength (ent : HTTPEntity) (conn : Connection) : HTTPEntity × Connection :=
  match connReadFixed conn ent.expectedBodyLen with
  | (none, conn) => (ent.failIfEnded conn, conn)
  | (some os, conn) => ({ ent with body := os, state := .entityDone }, conn)

def entitySwitch (ent : HTTPEntity) (conn : Connection) :
    Option ReadStatus × HTTPEntity × Connection :=
  match ent.state with
  | .readingHeaders =>
    match readSomeHeaders conn ent.headers with
    | (.failed, conn, headers) => (some .failed, { ent with headers := headers }, conn)
    | (.complete, conn, headers) => (none, deduceBodyState { ent with headers := headers }, conn)
    | (.more, conn, headers) => (none, { ent with headers := headers }, conn)
  | .readingChunkedBodyLen => (none, readChunkedBodyLen ent conn)
  | .readingChunkedBodyData => (none, readChunkedBodyData ent conn)
  | .readingChunkedBodyCrlf => (none, readChunkedBodyCrlf ent conn)
  | .readingChunkedBodyTrailer => (none, readChunkedBodyTrailer ent conn)
  | .readingBodyUntilEof => (none, readBodyUntilEof ent conn)
  | .readingBodyWithLength => (none, readBodyWithLength ent conn)
  | .bodyError => (some .failed, ent, conn)
  | .entityDone => (some .complete, ent, conn)

def entityReadLoop : Nat → HTTPEntity → Connection → Option (ReadStatus × HTTPEntity × Connection)
  | 0, _, _ => none
  | rounds+1, ent, conn =>
    match entitySwitch ent conn with
    | (some status, ent', conn') => some (status, ent', conn')
    | (none, ent', conn') =>
      if ent'.state ≠ ent.state then entityReadLoop rounds ent' conn'
      else some (.more, ent', conn')

def EntityState.final : EntityState → Bool
  | .bodyError => true
  | .entityDone => true
  | _ => false

def Advances (ent : HTTPEntity) (conn : Connection) (out : HTTPEntity × Connection) : Prop :=
  out.2.ahead ≤ conn.ahead ∧
    (out.1.state = ent.state ∨ out.1.state.final = true ∨ out.2.ahead < conn.ahead)

variable {ent : HTTPEntity} {split : Octstr → Option (Octstr × Octstr)}

theorem advances_failIfEnded (h : conn'.ahead ≤ conn.ahead) :
    Advances ent conn (ent.failIfEnded conn', conn') := by
  refine ⟨h, ?_⟩
  unfold HTTPEntity.failIfEnded
  split
  · exact .inr (.inl rfl)
  · exact .inl rfl

variable {ent' : HTTPEntity}

theorem advances_read {r : Option Octstr × Connection} (next : Octstr → HTTPEntity)
    (hsplit : ∀ {buf r rest}, split buf = some (r, rest) → rest.length < buf.length) :
    ReadsBy split conn r → Advances ent conn (match r with
      | (none, conn) => (ent.failIfEnded conn, conn)
      | (some os, conn) => (next os, conn)) := by
  intro h
  match r with
  | (none, c) => exact advances_failIfEnded (Nat.le_of_eq h.ahead_none)
  | (some os, c) =>
    have hlt := h.ahead_some hsplit
    exact ⟨Nat.le_of_lt hlt, .inr (.inr hlt)⟩

theorem readSomeHeadersLoop_ahead {headers headers' : List Octstr} {status : ReadStatus}
    (h : readSomeHeadersLoop rounds conn headers = some (status, conn', headers')) :
    conn'.ahead ≤ conn.ahead ∧ (status = .complete → conn'.ahead < conn.ahead) := by
  induction rounds generalizing conn headers with
  | zero => cases h
  | succ rounds ih =>
    have hread := connReadLine_readsBy conn
    unfold readSomeHeadersLoop at h
    split at h
    · rename_i c heq
      rw [heq] at hread
      have hsame := hread.ahead_none
      cases h
      refine ⟨Nat.le_of_eq hsame, ?_⟩
      split <;> simp
    · rename_i line c heq
      rw [heq] at hread
      have hlt := hread.ahead_some splitLine_length
      split at h
      · cases h
        exact ⟨Nat.le_of_lt hlt, fun _ => hlt⟩
      · obtain ⟨hle, -⟩ := ih h
        exact ⟨by omega, fun _ => by omega⟩

theorem readSomeHeaders_ahead (conn : Connection) (headers : List Octstr) :
    (readSomeHeaders conn headers).2.1.ahead ≤ conn.ahead ∧
      ((readSomeHeaders conn headers).1 = .complete →
        (readSomeHeaders conn headers).2.1.ahead < conn.ahead) :=
  readSomeHeadersLoop_ahead (Option.some_get _).symm

theorem readEverythingLoop_ahead {body body' : Octstr}
    (h : readEverythingLoop rounds conn body = some (conn', body')) : conn'.ahead ≤ conn.ahead := by
  induction rounds generalizing conn body with
  | zero => cases h
  | succ rounds ih =>
    have hread := connReadEverything_readsBy conn
    unfold readEverythingLoop at h
    split at h
    · rename_i c heq
      rw [heq] at hread
      cases h
      exact Nat.le_of_eq hread.ahead_none
    · rename_i os c heq
      rw [heq] at hread
      have hlt := hread.ahead_some splitEverything_length
      have hle := ih h
      omega

theorem readFixed_advances (length : Int) (next : Octstr → HTTPEntity) :
    Advances ent conn (match connReadFixed conn length with
      | (none, conn) => (ent.failIfEnded conn, conn)
      | (some os, conn) => (next os, conn)) := by
  by_cases hpos : length < 1
  · have hnone : connReadFixed conn length = (none, conn) := by simp [connReadFixed, hpos]
    rw [hnone]
    exact advances_failIfEnded (Nat.le_refl _)
  · exact advances_read next (splitFixed_length (by omega)) (connReadFixed_readsBy conn (by omega))

theorem entitySwitch_advances (h : entitySwitch ent conn = (none, ent', conn')) :
    Advances ent conn (ent', conn') := by
  have hheaders := readSomeHeaders_ahead conn ent.headers
  unfold entitySwitch at h
  split at h
  · split at h <;> rename_i hstatus <;> rw [hstatus] at hheaders <;> cases h
    · exact ⟨hheaders.1, .inr (.inr (hheaders.2 rfl))⟩
    · exact ⟨hheaders.1, .inl rfl⟩
  · rw [← (Prod.mk.inj h).2]
    exact advances_read ent.chunkLenLine splitLine_length (connReadLine_readsBy conn)
  · rw [← (Prod.mk.inj h).2]
    exact readFixed_advances ent.chunkedBodyChunkLen _
  · rw [← (Prod.mk.inj h).2]
    exact advances_read _ splitLine_length (connReadLine_readsBy conn)
  · rw [← (Prod.mk.inj h).2, readChunkedBodyTrailer]
    split <;> rename_i hstatus <;> rw [hstatus] at hheaders
    · exact ⟨hheaders.1, .inr (.inl rfl)⟩
    · exact ⟨hheaders.1, .inr (.inl rfl)⟩
    · exact ⟨hheaders.1, .inl rfl⟩
  · rw [← (Prod.mk.inj h).2]
    refine ⟨readEverythingLoop_ahead (Option.some_get _).symm, ?_⟩
    simp only [readBodyUntilEof]
    split
    · exact .inr (.inl rfl)
    · split
      · exact .inr (.inl rfl)
      · exact .inl rfl
  · rw [← (Prod.mk.inj h).2]
    exact readFixed_advances ent.expectedBodyLen _
  · cases h
  · cases h

def entityRounds (ent : HTTPEntity) (conn : Connection) : Nat :=
  if ent.state.final then 1 else conn.ahead + 2

theorem entityReadLoop_isSome (h : entityRounds ent conn ≤ rounds) :
    (entityReadLoop rounds ent conn).isSome := by
  induction rounds generalizing ent conn with
  | zero =>
    unfold entityRounds at h
    split at h <;> omega
  | succ rounds ih =>
    unfold entityReadLoop
    split
    · rfl
    · rename_i ent' conn' hswitch
      split
      · rename_i hchanged
        obtain ⟨hle, hadv⟩ := entitySwitch_advances hswitch
        have hopen : ent.state.final = false := by
          grind [entitySwitch, EntityState.final]
        apply ih
        rcases hadv with hsame | hfinal | hlt
        · exact absurd hsame hchanged
        · simp only [entityRounds, hopen, hfinal] at h ⊢
          simp at h ⊢
          omega
        · have hlt : conn'.ahead < conn.ahead := hlt
          simp only [entityRounds, hopen] at h ⊢
          split <;> simp at h <;> omega
      · rfl

def entityRead (ent : HTTPEntity) (conn : Connection) : ReadStatus × HTTPEntity × Connection :=
  (entityReadLoop (entityRounds ent conn) ent conn).get (entityReadLoop_isSome (Nat.le_refl _))

end Kannel
