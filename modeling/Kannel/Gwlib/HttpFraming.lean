import Kannel.Lib.Consumer
import Kannel.Gwlib.HttpEntity

/-!
# An entity is read exactly

Each state takes a line or a number of octets, or waits (`entityStep`); `entity_read` is that
stable consumer driven by a connection.
-/

namespace Kannel
open List
open Consumer

structure SplitStable (split : Octstr → Option (Octstr × Octstr)) : Prop where
  suffix : ∀ {buf taken rest : Octstr}, split buf = some (taken, rest) → rest <:+ buf
  append : ∀ {buf taken rest : Octstr} (more : Octstr), split buf = some (taken, rest) →
    split (buf ++ more) = some (taken, rest ++ more)

variable {ent : HTTPEntity} {conn : Connection}

theorem splitLine_stable : SplitStable splitLine where
  suffix := by
    intro buf line rest h
    obtain ⟨pos, -, heq⟩ := Option.map_eq_some_iff.mp h
    cases heq
    exact drop_suffix _ _
  append := by
    intro buf line rest more h
    obtain ⟨pos, hpos, heq⟩ := Option.map_eq_some_iff.mp h
    have hrange := octstrSearchChar_range hpos
    have hfound : octstrSearchChar (buf ++ more) 10 0 = some pos := by
      simp only [octstrSearchChar, drop_zero, Option.map_eq_some_iff] at hpos ⊢
      obtain ⟨i, hi, rfl⟩ := hpos
      exact ⟨i, by simp [List.findIdx?_append, hi], rfl⟩
    cases heq
    rw [splitLine, hfound, Option.map_some, take_append_of_le_length (by omega),
      drop_append_of_le_length (by omega)]

theorem splitFixed_stable (length : Nat) : SplitStable (splitFixed length) where
  suffix := by
    intro buf data rest h
    unfold splitFixed at h
    split at h
    · cases h
      exact drop_suffix _ _
    · cases h
  append := by
    intro buf data rest more h
    unfold splitFixed at h
    split at h
    · rename_i hle
      cases h
      have hle' : length ≤ (buf ++ more).length := by rw [length_append]; omega
      rw [splitFixed, if_pos hle', take_append_of_le_length hle, drop_append_of_le_length hle]
    · cases h

theorem splitLine_crlf {line : Octstr} (h : 10 ∉ line) (more : Octstr) :
    splitLine (line ++ [13, 10] ++ more) = some (line, more) := by
  have hsearch : octstrSearchChar (line ++ [13, 10] ++ more) 10 0 = some (line.length + 1) := by
    have hnone : line.findIdx? (· = (10 : UInt8)) = none := by
      rw [List.findIdx?_eq_none_iff]
      intro c hc
      have hne : c ≠ 10 := fun heq => h (heq ▸ hc)
      simpa using hne
    simp [octstrSearchChar, List.findIdx?_append, hnone, List.findIdx?_cons, Nat.add_comm]
  have htake : (line ++ [13, 10] ++ more).take (line.length + 1) = line ++ [13] := by
    rw [append_assoc, take_length_add_append]
    rfl
  have hdrop : (line ++ [13, 10] ++ more).drop (line.length + 1 + 1) = more := by
    rw [append_assoc, Nat.add_assoc, drop_length_add_append]
    rfl
  rw [splitLine, hsearch, Option.map_some, htake, hdrop]
  simp [stripCr]

theorem splitFixed_left (data more : Octstr) :
    splitFixed data.length (data ++ more) = some (data, more) := by
  simp [splitFixed]

def HTTPEntity.headerLine (ent : HTTPEntity) (line : Octstr) : HTTPEntity :=
  if line = [] then deduceBodyState ent
  else { ent with headers := addHeaderLine ent.headers line }

def HTTPEntity.finished (ent : HTTPEntity) : HTTPEntity := { ent with state := .entityDone }

def HTTPEntity.trailerLine (ent : HTTPEntity) (line : Octstr) : HTTPEntity :=
  if line = [] then ent.finished
  else { ent with headers := addHeaderLine ent.headers line }

def entityTakes (ent : HTTPEntity) :
    Option ((Octstr → Option (Octstr × Octstr)) × (Octstr → HTTPEntity)) :=
  match ent.state with
  | .readingHeaders => some (splitLine, ent.headerLine)
  | .readingChunkedBodyLen => some (splitLine, ent.chunkLenLine)
  | .readingChunkedBodyData =>
    if ent.chunkedBodyChunkLen < 1 then none
    else some (splitFixed ent.chunkedBodyChunkLen.toNat, fun os =>
      { ent with body := ent.body ++ os, state := .readingChunkedBodyCrlf })
  | .readingChunkedBodyCrlf =>
    some (splitLine, fun _ => { ent with state := .readingChunkedBodyLen })
  | .readingChunkedBodyTrailer => some (splitLine, ent.trailerLine)
  | .readingBodyWithLength =>
    if ent.expectedBodyLen < 1 then none
    else some (splitFixed ent.expectedBodyLen.toNat, fun os =>
      { ent with body := os, state := .entityDone })
  | .readingBodyUntilEof => none
  | .bodyError => none
  | .entityDone => none

def entityStep (ent : HTTPEntity) (buf : Octstr) : Option (HTTPEntity × Octstr) :=
  match entityTakes ent with
  | none => none
  | some (split, next) => (split buf).map fun r => (next r.1, r.2)

variable {next : Octstr → HTTPEntity} {split : Octstr → Option (Octstr × Octstr)}

theorem entityTakes_stable (h : entityTakes ent = some (split, next)) : SplitStable split := by
  have hkind : split = splitLine ∨ ∃ length, split = splitFixed length := by
    grind [entityTakes]
  rcases hkind with rfl | ⟨length, rfl⟩
  · exact splitLine_stable
  · exact splitFixed_stable length

variable {ent' : HTTPEntity}

theorem entityStep_eq_some {buf rest : Octstr} (h : entityStep ent buf = some (ent', rest)) :
    ∃ split next taken, entityTakes ent = some (split, next) ∧
      split buf = some (taken, rest) ∧ ent' = next taken := by
  unfold entityStep at h
  split at h
  · cases h
  · rename_i split next htakes
    obtain ⟨⟨taken, rest'⟩, hr, heq⟩ := Option.map_eq_some_iff.mp h
    cases heq
    exact ⟨split, next, taken, htakes, hr, rfl⟩

theorem entityStep_stable : Stable entityStep where
  suffix := by
    intro ent ent' buf rest h
    obtain ⟨split, next, taken, htakes, hsplit, -⟩ := entityStep_eq_some h
    exact (entityTakes_stable htakes).suffix hsplit
  append := by
    intro ent ent' buf rest more h
    obtain ⟨split, next, taken, htakes, hsplit, rfl⟩ := entityStep_eq_some h
    simp [entityStep, htakes, (entityTakes_stable htakes).append more hsplit]

theorem entityStep_final (h : ent.state.final = true) (buf : Octstr) :
    entityStep ent buf = none := by
  grind [entityStep, entityTakes, EntityState.final]

inductive EntityMove : HTTPEntity × Connection → HTTPEntity × Connection → Prop
  | read (ent : HTTPEntity) (conn : Connection) : EntityMove (ent, conn) (ent, unlockedRead conn)
  | take {ent ent' : HTTPEntity} {conn conn' : Connection} {rest : Octstr} :
      entityStep ent conn.unread = some (ent', rest) → Took conn rest conn' →
      EntityMove (ent, conn) (ent', conn')

def Drives : HTTPEntity × Connection → HTTPEntity × Connection → Prop :=
  Relation.ReflTransGen EntityMove

theorem Drives.refl (x : HTTPEntity × Connection) : Drives x x := Relation.ReflTransGen.refl

theorem Drives.trans {x y z : HTTPEntity × Connection} (h : Drives x y) (h' : Drives y z) :
    Drives x z :=
  Relation.ReflTransGen.trans h h'

variable {x y : HTTPEntity × Connection}

theorem Drives.fed (h : Drives x y) :
    Fed entityStep (x.1, x.2.unread, x.2.fd.pending) (y.1, y.2.unread, y.2.fd.pending) := by
  induction h with
  | refl => exact Fed.refl _
  | tail _ hmove ih =>
    refine ih.trans (Relation.ReflTransGen.single ?_)
    cases hmove with
    | read ent conn =>
      rw [pending_unlockedRead conn, unread_unlockedRead]
      exact .read ent _ _ _
    | take hstep htook =>
      rw [htook.unread_eq, htook.fd_eq]
      exact .take _ hstep

section Drives
variable {split : Octstr → Option (Octstr × Octstr)} {next : Octstr → HTTPEntity}
  {conn' : Connection}

private theorem drives_took {taken rest : Octstr} (htakes : entityTakes ent = some (split, next))
    (hsplit : split conn.unread = some (taken, rest)) (htook : Took conn rest conn') :
    Drives (ent, conn) (next taken, conn') := by
  have hstep : entityStep ent conn.unread = some (next taken, rest) := by
    simp [entityStep, htakes, hsplit]
  exact Relation.ReflTransGen.single (.take hstep htook)

private theorem drives_read : Drives (ent, conn) (ent, unlockedRead conn) :=
  Relation.ReflTransGen.single (.read ent conn)

theorem ReadsBy.drives_some {taken : Octstr} (htakes : entityTakes ent = some (split, next))
    (h : ReadsBy split conn (some taken, conn')) :
    Drives (ent, conn) ((next taken), conn') := by
  cases h with
  | buffered hsplit htook => exact drives_took htakes hsplit htook
  | afterRead _ hsplit htook =>
    exact drives_read.trans (drives_took htakes hsplit htook)

theorem ReadsBy.drives_none (htakes : entityTakes ent = some (split, next))
    (h : ReadsBy split conn (none, conn')) :
    Drives (ent, conn) (ent, conn') ∧ entityStep ent conn'.unread = none := by
  cases h with
  | short _ hsplit =>
    refine ⟨drives_read, ?_⟩
    simp [entityStep, htakes, hsplit]

end Drives

/-- The entity takes header lines, and an empty line ends them. -/
def TakesLines (ent : HTTPEntity) (finish : HTTPEntity → HTTPEntity) : Prop :=
  ∀ hs, entityTakes { ent with headers := hs } = some (splitLine, fun line =>
    if line = [] then finish { ent with headers := hs }
    else { ent with headers := addHeaderLine hs line })

variable {conn' : Connection} {status : ReadStatus} {finish : HTTPEntity → HTTPEntity}

theorem readSomeHeadersLoop_drives {rounds : Nat} {headers headers' : List Octstr}
    (hline : TakesLines ent finish)
    (h : readSomeHeadersLoop rounds conn headers = some (status, conn', headers')) :
    (status = .complete ∧ Drives ({ ent with headers := headers }, conn)
        ((finish { ent with headers := headers' }), conn')) ∨
      (status = (if conn'.ended then .failed else .more) ∧
        Drives ({ ent with headers := headers }, conn) ({ ent with headers := headers' }, conn') ∧
        entityStep { ent with headers := headers' } conn'.unread = none) := by
  induction rounds generalizing conn headers with
  | zero => cases h
  | succ rounds ih =>
    have hread := connReadLine_readsBy conn
    unfold readSomeHeadersLoop at h
    split at h
    · rename_i c heq
      rw [heq] at hread
      cases h
      exact .inr ⟨rfl, hread.drives_none (hline headers')⟩
    · rename_i line c heq
      rw [heq] at hread
      have hrun := hread.drives_some (hline headers)
      split at h
      · rename_i hempty
        rw [if_pos hempty] at hrun
        cases h
        exact .inl ⟨rfl, hrun⟩
      · rename_i hline'
        rw [if_neg hline'] at hrun
        rcases ih h with ⟨hstatus, hrest⟩ | ⟨hstatus, hrest, hwait⟩
        · exact .inl ⟨hstatus, hrun.trans hrest⟩
        · exact .inr ⟨hstatus, hrun.trans hrest, hwait⟩

inductive Switched (ent : HTTPEntity) (conn : Connection) :
    Option ReadStatus × HTTPEntity × Connection → Prop
  | moved {ent' : HTTPEntity} {conn' : Connection} :
      Drives (ent, conn) (ent', conn') → ent'.state ≠ ent.state →
      Switched ent conn (none, ent', conn')
  | waits {ent' : HTTPEntity} {conn' : Connection} :
      Drives (ent, conn) (ent', conn') → ent'.state = ent.state →
      entityStep ent' conn'.unread = none → conn'.ended = false →
      Switched ent conn (none, ent', conn')
  | ended {ret : Option ReadStatus} {ent₁ ent' : HTTPEntity} {conn' : Connection} :
      Drives (ent, conn) (ent₁, conn') → ent₁.state = ent.state →
      entityStep ent₁ conn'.unread = none → conn'.ended = true →
      ret = some .failed ∨ ret = none ∧ ent'.state = .bodyError →
      Switched ent conn (ret, ent', conn')

section Switch

private theorem switched_failIfEnded {ent₁ : HTTPEntity} (hrun : Drives (ent, conn) (ent₁, conn'))
    (hstate : ent₁.state = ent.state) (hwait : entityStep ent₁ conn'.unread = none) :
    Switched ent conn (none, ent₁.failIfEnded conn', conn') := by
  unfold HTTPEntity.failIfEnded
  split
  · rename_i hended
    exact .ended hrun hstate hwait hended (.inr ⟨rfl, rfl⟩)
  · rename_i hopen
    exact .waits hrun hstate hwait (by simpa using hopen)

theorem switched_read {r : Option Octstr × Connection}
    (htakes : entityTakes ent = some (split, next)) (hstate : ∀ os, (next os).state ≠ ent.state) :
    ReadsBy split conn r →
    Switched ent conn (none,
      match r with
      | (none, conn) => (ent.failIfEnded conn, conn)
      | (some os, conn) => (next os, conn)) := by
  intro hread
  match r with
  | (none, c) =>
    obtain ⟨hrun, hwait⟩ := hread.drives_none htakes
    exact switched_failIfEnded hrun rfl hwait
  | (some os, c) => exact .moved (hread.drives_some htakes) (hstate os)

theorem switched_readFixed {length : Int}
    (htakes : entityTakes ent = if length < 1 then none else some (splitFixed length.toNat, next))
    (hstate : ∀ os, (next os).state ≠ ent.state) :
    Switched ent conn (none,
      match connReadFixed conn length with
      | (none, conn) => (ent.failIfEnded conn, conn)
      | (some os, conn) => (next os, conn)) := by
  by_cases hpos : length < 1
  · have hnone : connReadFixed conn length = (none, conn) := by simp [connReadFixed, hpos]
    rw [if_pos hpos] at htakes
    rw [hnone]
    exact switched_failIfEnded (Drives.refl _) rfl (by simp [entityStep, htakes])
  · rw [if_neg hpos] at htakes
    exact switched_read htakes hstate (connReadFixed_readsBy conn (by omega))

theorem deduceBodyState_state (ent : HTTPEntity) :
    (deduceBodyState ent).state ≠ .readingHeaders ∧
      (deduceBodyState ent).state ≠ .readingChunkedBodyTrailer := by
  grind [deduceBodyState]

theorem readSomeHeaders_drives (hline : TakesLines ent finish) {headers' : List Octstr}
    (h : readSomeHeaders conn ent.headers = (status, conn', headers')) :
    (status = .complete ∧ Drives (ent, conn) ((finish { ent with headers := headers' }), conn')) ∨
      (status = (if conn'.ended then .failed else .more) ∧
        Drives (ent, conn) ({ ent with headers := headers' }, conn') ∧
        entityStep { ent with headers := headers' } conn'.unread = none) := by
  apply readSomeHeadersLoop_drives hline
  rw [← h]
  exact (Option.some_get _).symm

theorem entitySwitch_readingHeaders (h : ent.state = .readingHeaders) :
    entitySwitch ent conn =
      match readSomeHeaders conn ent.headers with
      | (.failed, conn, headers) => (some .failed, { ent with headers := headers }, conn)
      | (.complete, conn, headers) => (none, deduceBodyState { ent with headers := headers }, conn)
      | (.more, conn, headers) => (none, { ent with headers := headers }, conn) := by
  unfold entitySwitch
  split <;> rename_i hstate <;> first | rfl | (rw [h] at hstate; cases hstate)

theorem takesLines_headers (h : ent.state = .readingHeaders) : TakesLines ent deduceBodyState := by
  intro hs
  simp only [entityTakes, h]
  rfl

theorem takesLines_trailer (h : ent.state = .readingChunkedBodyTrailer) :
    TakesLines ent HTTPEntity.finished := by
  intro hs
  simp only [entityTakes, h]
  rfl

theorem switched_lines (failed : List Octstr → Option ReadStatus × HTTPEntity)
    (hline : TakesLines ent finish)
    (hfailed : ∀ hs, (failed hs).1 = some .failed ∨
      (failed hs).1 = none ∧ (failed hs).2.state = .bodyError)
    (hfinish : ∀ hs, (finish { ent with headers := hs }).state ≠ ent.state) :
    Switched ent conn (match readSomeHeaders conn ent.headers with
      | (.failed, conn, headers) => ((failed headers).1, (failed headers).2, conn)
      | (.complete, conn, headers) => (none, finish { ent with headers := headers }, conn)
      | (.more, conn, headers) => (none, { ent with headers := headers }, conn)) := by
  split <;> rename_i conn' headers' hread
  · rcases readSomeHeaders_drives hline hread with ⟨hstatus, -⟩ | ⟨hstatus, hrun, hwait⟩
    · cases hstatus
    · refine .ended hrun rfl hwait ?_ (hfailed headers')
      by_contra hopen
      simp [hopen] at hstatus
  · rcases readSomeHeaders_drives hline hread with ⟨-, hrun⟩ | ⟨hstatus, -, -⟩
    · exact .moved hrun (hfinish headers')
    · split at hstatus <;> cases hstatus
  · rcases readSomeHeaders_drives hline hread with ⟨hstatus, -⟩ | ⟨hstatus, hrun, hwait⟩
    · cases hstatus
    · refine .waits hrun rfl hwait ?_
      by_contra hended
      simp [hended] at hstatus

theorem switched_readingHeaders (h : ent.state = .readingHeaders) :
    Switched ent conn (entitySwitch ent conn) := by
  rw [entitySwitch_readingHeaders h]
  apply switched_lines (fun hs => (some .failed, { ent with headers := hs })) (takesLines_headers h)
  · exact fun _ => .inl rfl
  · exact fun _ => h ▸ (deduceBodyState_state _).1

theorem switched_readingChunkedBodyTrailer (h : ent.state = .readingChunkedBodyTrailer) :
    Switched ent conn (none, readChunkedBodyTrailer ent conn) := by
  have hlines : Switched ent conn _ := switched_lines
    (fun hs => (none, { ent with headers := hs, state := .bodyError })) (takesLines_trailer h)
    (fun _ => .inr ⟨rfl, rfl⟩) (by simp [h, HTTPEntity.finished])
  unfold readChunkedBodyTrailer
  split <;> rename_i hread <;> rw [hread] at hlines <;> exact hlines

theorem entitySwitch_switched (hopen : ent.state.final = false)
    (heof : ent.state ≠ .readingBodyUntilEof) : Switched ent conn (entitySwitch ent conn) := by
  cases h : ent.state with
  | readingHeaders => exact switched_readingHeaders h
  | readingChunkedBodyLen =>
    simp only [entitySwitch, h]
    refine switched_read (by simp [entityTakes, h]) ?_ (connReadLine_readsBy conn)
    intro os
    grind [HTTPEntity.chunkLenLine]
  | readingChunkedBodyData =>
    simp only [entitySwitch, h]
    refine switched_readFixed (by simp only [entityTakes, h]) ?_
    simp [h]
  | readingChunkedBodyCrlf =>
    simp only [entitySwitch, h]
    refine switched_read (by simp only [entityTakes, h]) ?_ (connReadLine_readsBy conn)
    simp [h]
  | readingChunkedBodyTrailer =>
    simp only [entitySwitch, h]
    exact switched_readingChunkedBodyTrailer h
  | readingBodyUntilEof => exact absurd h heof
  | readingBodyWithLength =>
    simp only [entitySwitch, h]
    refine switched_readFixed (by simp only [entityTakes, h]) ?_
    simp [h]
  | bodyError => rw [h] at hopen; cases hopen
  | entityDone => rw [h] at hopen; cases hopen

end Switch

inductive EntityOutcome (ent : HTTPEntity) (conn : Connection) :
    ReadStatus × HTTPEntity × Connection → Prop
  | complete {ent' : HTTPEntity} {conn' : Connection} :
      Drives (ent, conn) (ent', conn') → ent'.state = .entityDone →
      EntityOutcome ent conn (.complete, ent', conn')
  | more {ent' : HTTPEntity} {conn' : Connection} :
      Drives (ent, conn) (ent', conn') → ent'.state.final = false →
      entityStep ent' conn'.unread = none →
      EntityOutcome ent conn (.more, ent', conn')
  | broken {ent' : HTTPEntity} {conn' : Connection} :
      Drives (ent, conn) (ent', conn') → ent'.state = .bodyError →
      EntityOutcome ent conn (.failed, ent', conn')
  | ended {ent₁ ent' : HTTPEntity} {conn' : Connection} :
      Drives (ent, conn) (ent₁, conn') → ent₁.state.final = false →
      entityStep ent₁ conn'.unread = none → conn'.ended = true →
      EntityOutcome ent conn (.failed, ent', conn')

variable {out : ReadStatus × HTTPEntity × Connection}

theorem EntityOutcome.of_drives (hrun : Drives (ent, conn) (ent', conn'))
    (h : EntityOutcome ent' conn' out) :
    EntityOutcome ent conn out := by
  cases h with
  | complete hrest hstate => exact .complete (hrun.trans hrest) hstate
  | more hrest hstate hwait => exact .more (hrun.trans hrest) hstate hwait
  | broken hrest hstate => exact .broken (hrun.trans hrest) hstate
  | ended hrest hstate hwait hended => exact .ended (hrun.trans hrest) hstate hwait hended

theorem entitySwitch_final (h : ent.state.final = true) :
    entitySwitch ent conn =
      (some (if ent.state = .entityDone then .complete else .failed), ent, conn) := by
  unfold entitySwitch
  split <;> rename_i hstate <;> simp [hstate, EntityState.final] at h ⊢

section
variable (heof : ∀ ent' conn', Drives (ent, conn) (ent', conn') → ent'.state ≠ .readingBodyUntilEof)
include heof

theorem entityReadLoop_outcome {rounds : Nat} (h : entityReadLoop rounds ent conn = some out) :
    EntityOutcome ent conn out := by
  induction rounds generalizing ent conn with
  | zero => cases h
  | succ rounds ih =>
    unfold entityReadLoop at h
    cases hfinal : ent.state.final with
    | true =>
      rw [entitySwitch_final hfinal] at h
      cases h
      split
      · rename_i hdone
        exact .complete (Drives.refl _) hdone
      · refine .broken (Drives.refl _) ?_
        grind [EntityState.final]
    | false =>
      have hswitch : Switched ent conn (entitySwitch ent conn) :=
        entitySwitch_switched hfinal (heof ent conn (Drives.refl _))
      generalize entitySwitch ent conn = result at h hswitch
      cases hswitch with
      | @moved ent' conn' hrun hstate =>
        simp only [hstate, ne_eq, not_false_eq_true, if_true] at h
        exact .of_drives hrun (ih (fun e c hec => heof e c (hrun.trans hec)) h)
      | @waits ent' conn' hrun hstate hwait hopen =>
        simp only [hstate, ne_eq, not_true_eq_false, if_false] at h
        cases h
        exact .more hrun (by rw [hstate]; exact hfinal) hwait
      | @ended ret ent₁ ent' conn' hrun hstate hwait hended hret =>
        rcases hret with rfl | ⟨rfl, hbroken⟩
        · cases h
          exact .ended hrun (by rw [hstate]; exact hfinal) hwait hended
        · -- the next round sees `body_error` and returns
          have hchanged : ent'.state ≠ ent.state := by
            intro hsame
            rw [← hsame, hbroken] at hfinal
            cases hfinal
          simp only [hchanged, ne_eq, not_false_eq_true, if_true] at h
          cases rounds with
          | zero => cases h
          | succ rounds =>
            have hfinal' : ent'.state.final = true := by rw [hbroken]; rfl
            unfold entityReadLoop at h
            rw [entitySwitch_final hfinal', hbroken] at h
            cases h
            exact .ended hrun (by rw [hstate]; exact hfinal) hwait hended

theorem entityRead_outcome : EntityOutcome ent conn (entityRead ent conn) :=
  entityReadLoop_outcome heof (Option.some_get _).symm

end

def EndsLast : List ReadResult → Prop
  | [] => True
  | .again :: reads => EndsLast reads
  | .error :: reads => reads.flatMap ReadResult.data = []
  | .octets [] :: reads => reads.flatMap ReadResult.data = []
  | .octets (_ :: _) :: reads => EndsLast reads

structure Connection.Orderly (conn : Connection) : Prop where
  ends : EndsLast conn.fd.reads
  ended : conn.ended = true → conn.fd.pending = []

theorem EndsLast.of_empty {reads : List ReadResult} (h : reads.flatMap ReadResult.data = []) :
    EndsLast reads := by
  induction reads with
  | nil => trivial
  | cons r reads ih =>
    rw [flatMap_cons, append_eq_nil_iff] at h
    match r, h with
    | .again, h => exact ih h.2
    | .error, h => exact h.2
    | .octets [], h => exact h.2
    | .octets (_ :: _), h => exact absurd h.1 (by simp [ReadResult.data])

theorem discardConsumed_ended (conn : Connection) : (discardConsumed conn).ended = conn.ended := by
  unfold discardConsumed
  split <;> rfl

theorem Connection.Orderly.unlockedRead (h : conn.Orderly) : (unlockedRead conn).Orderly := by
  have hends := h.ends
  have hended := h.ended
  have hpending := pending_unlockedRead conn
  rw [← discardConsumed_ended conn] at hended
  refine ⟨?_, ?_⟩
  · rw [reads_unlockedRead]
    match hreads : conn.fd.reads with
    | [] => trivial
    | .again :: reads => simpa [hreads, EndsLast] using hends
    | .error :: reads => exact EndsLast.of_empty (by simpa [hreads, EndsLast] using hends)
    | .octets [] :: reads => exact EndsLast.of_empty (by simpa [hreads, EndsLast] using hends)
    | .octets (_ :: _) :: reads => simpa [hreads, EndsLast] using hends
  · intro hnow
    have hbefore : (discardConsumed conn).ended = true →
        (Kannel.unlockedRead conn).fd.pending = [] := by
      intro hb
      rw [hended hb] at hpending
      exact (append_eq_nil_iff.mp hpending.symm).2
    simp only [Descriptor.pending, reads_unlockedRead] at hbefore ⊢
    unfold Kannel.unlockedRead at hnow
    dsimp only at hnow
    split at hnow <;> rename_i hreads <;> rw [fd_discardConsumed] at hreads <;>
      rw [hreads] at hends hbefore ⊢
    · exact hbefore hnow
    · exact hbefore hnow
    · exact hends
    · exact hends
    · exact hbefore hnow

theorem Drives.orderly (h : Drives x y) (hx : x.2.Orderly) : y.2.Orderly := by
  induction h with
  | refl => exact hx
  | tail _ hmove ih =>
    cases hmove with
    | read ent conn => exact ih.unlockedRead
    | take _ htook =>
      obtain ⟨count, hcount, rfl, -⟩ := htook
      exact ⟨ih.ends, ih.ended⟩

structure Carries (ent₀ : HTTPEntity) (conn₀ : Connection) (message : Octstr) (g : HTTPEntity)
    (further : Octstr) : Prop where
  consumes : Consumes entityStep ent₀ message g
  done : g.state = .entityDone
  stream : conn₀.unread ++ conn₀.fd.pending = message ++ further
  orderly : conn₀.Orderly

section Calls
variable {ent₀ g : HTTPEntity} {conn₀ : Connection} {message further : Octstr}

section Carried
variable (h : Carries ent₀ conn₀ message g further)
include h

section
variable (hrun : Drives (ent₀, conn₀) (ent, conn))
include hrun

theorem Carries.exact (hwait : entityStep ent conn.unread = none) :
    (conn.fd.pending.length ≤ further.length ∧ ent = g ∧ conn.unread ++ conn.fd.pending = further) ∨
      (further.length < conn.fd.pending.length ∧ ent ≠ g ∧
        entityStep ent (conn.unread ++ conn.fd.pending) ≠ none) := by
  refine Fed.exact entityStep_stable ?_ h.consumes h.stream hrun.fed hwait
  exact entityStep_final (by rw [h.done]; rfl)

theorem Carries.not_until_eof : ent.state ≠ .readingBodyUntilEof := by
  intro heof
  have hnone : ∀ buf, entityStep ent buf = none := by
    intro buf
    simp [entityStep, entityTakes, heof]
  rcases h.exact hrun (hnone _) with ⟨-, heq, -⟩ | ⟨-, -, hstep⟩
  · rw [heq, h.done] at heof
    cases heof
  · exact hstep (hnone _)

theorem Carries.call (hout : entityRead ent conn = (status, ent', conn')) :
    Drives (ent₀, conn₀) (ent', conn') ∧
      ((further.length < conn'.fd.pending.length ∧ status = .more) ∨
        (conn'.fd.pending.length ≤ further.length ∧ status = .complete ∧ ent' = g ∧
          conn'.unread ++ conn'.fd.pending = further)) := by
  have houtcome : EntityOutcome ent conn (entityRead ent conn) :=
    entityRead_outcome fun e c hec => h.not_until_eof (hrun.trans hec)
  rw [hout] at houtcome
  cases houtcome with
  | complete hrest hstate =>
    have hrun' := hrun.trans hrest
    have hfinal : ∀ buf, entityStep ent' buf = none :=
      entityStep_final (by rw [hstate]; rfl)
    refine ⟨hrun', ?_⟩
    rcases h.exact hrun' (hfinal _) with ⟨hread, heq, hleft⟩ | ⟨-, -, hstep⟩
    · exact .inr ⟨hread, rfl, heq, hleft⟩
    · exact absurd (hfinal _) hstep
  | more hrest hopen hwait =>
    have hrun' := hrun.trans hrest
    refine ⟨hrun', ?_⟩
    rcases h.exact hrun' hwait with ⟨-, heq, -⟩ | ⟨hshort, -, -⟩
    · rw [heq, h.done] at hopen
      cases hopen
    · exact .inl ⟨hshort, rfl⟩
  | broken hrest hstate =>
    have hfinal : ∀ buf, entityStep ent' buf = none :=
      entityStep_final (by rw [hstate]; rfl)
    rcases h.exact (hrun.trans hrest) (hfinal _) with ⟨-, heq, -⟩ | ⟨-, -, hstep⟩
    · rw [heq, h.done] at hstate
      cases hstate
    · exact absurd (hfinal _) hstep
  | ended hrest hopen hwait hended =>
    -- nothing more will come, so the whole entity has been read
    have hrun' := hrun.trans hrest
    have hempty := (hrun'.orderly h.orderly).ended hended
    rcases h.exact hrun' hwait with ⟨-, heq, -⟩ | ⟨hshort, -, -⟩
    · rw [heq, h.done] at hopen
      cases hopen
    · rw [hempty] at hshort
      simp at hshort

end
end Carried
end Calls
end Kannel
