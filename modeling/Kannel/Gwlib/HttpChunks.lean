import Kannel.Gwlib.HttpFraming

/-!
# The sizes of chunks

`read_chunked_body_len` reads a size with `octstr_parse_long`, which takes blanks and a sign in
front of the digits. A negative size is a number of octets that never arrives.
-/

namespace Kannel
open List
variable {ent ent' : HTTPEntity} {conn : Connection} {line buf rest : Octstr}

def StartsUnsigned (line : Octstr) : Prop := ∃ c ∈ line.head?, isDigitOf 16 c = true

/-- A size line that is met while the entity is read. -/
def SizeLine (ent : HTTPEntity) (conn : Connection) (line : Octstr) : Prop :=
  ∃ ent' conn' rest, Drives (ent, conn) (ent', conn') ∧ ent'.state = .readingChunkedBodyLen ∧
    splitLine conn'.unread = some (line, rest)

/-- What is waited for is positive and ends the waiting when it is there; other size lines are
errors. -/
structure Progresses (ent : HTTPEntity) (buf : Octstr) : Prop where
  positive : ent.state = .readingChunkedBodyData → 0 < ent.chunkedBodyChunkLen
  goes_on : ent.state = .readingChunkedBodyData → ent.chunkedBodyChunkLen ≤ buf.length →
    (entityStep ent buf).isSome
  refused : ∀ line rest, ent.state = .readingChunkedBodyLen → splitLine buf = some (line, rest) →
    ¬ StartsUnsigned line → (ent.chunkLenLine line).state = .bodyError

theorem strtol_nonneg {text : Octstr} {r : Int × Octstr} (h : StartsUnsigned text)
    (hr : strtol text 16 = some r) : 0 ≤ r.1 := by
  obtain ⟨c, hc, hdigit⟩ := h
  obtain ⟨rest, rfl⟩ := List.head?_eq_some_iff.mp hc
  obtain ⟨hminus, hplus, -⟩ := isDigitOf_not_sign hdigit
  unfold strtol at hr
  rw [dropWhile_cons_of_neg (by simp [isDigitOf_not_isspace hdigit]),
    splitSign_of_ne hminus hplus] at hr
  dsimp only at hr
  split_ifs at hr
  cases hr
  simp

theorem octstrParseLong_nonneg {r : Int × Nat} (h : StartsUnsigned line)
    (hr : octstrParseLong line 0 16 = some r) : 0 ≤ r.1 := by
  obtain ⟨c, hc, hdigit⟩ := h
  obtain ⟨rest, rfl⟩ := List.head?_eq_some_iff.mp hc
  unfold octstrParseLong at hr
  rw [if_neg (by simp)] at hr
  obtain ⟨found, hfound, rfl⟩ := Option.map_eq_some_iff.mp hr
  refine strtol_nonneg ⟨c, ?_, hdigit⟩ hfound
  rw [drop_zero, takeWhile_cons_of_pos (by simpa using (isDigitOf_not_sign hdigit).2.2)]
  rfl

theorem chunkLenLine_bodyError :
    (ent.chunkLenLine line).state = .bodyError ↔ octstrParseLong line 0 16 = none := by
  unfold HTTPEntity.chunkLenLine
  cases octstrParseLong line 0 16 with
  | none => simp
  | some r =>
    dsimp only
    split_ifs <;> simp

theorem chunkLenLine_positive (h : StartsUnsigned line ∨ octstrParseLong line 0 16 = none)
    (hdata : (ent.chunkLenLine line).state = .readingChunkedBodyData) :
    0 < (ent.chunkLenLine line).chunkedBodyChunkLen := by
  unfold HTTPEntity.chunkLenLine at hdata ⊢
  cases hparse : octstrParseLong line 0 16 with
  | none =>
    rw [hparse] at hdata
    cases hdata
  | some r =>
    have hnonneg := octstrParseLong_nonneg (h.resolve_right (by simp [hparse])) hparse
    rw [hparse] at hdata
    dsimp only at hdata ⊢
    split_ifs at hdata ⊢ with hzero
    exact lt_of_le_of_ne hnonneg (Ne.symm hzero)

theorem chunkedBodyData_of_step (h : entityStep ent buf = some (ent', rest))
    (hdata : ent'.state = .readingChunkedBodyData) :
    ent.state = .readingChunkedBodyLen ∧
      ∃ line, splitLine buf = some (line, rest) ∧ ent' = ent.chunkLenLine line := by
  obtain ⟨split, next, taken, htakes, hsplit, rfl⟩ := entityStep_eq_some h
  unfold entityTakes at htakes
  split at htakes
  · cases htakes
    grind [HTTPEntity.headerLine, deduceBodyState]
  · cases htakes
    exact ⟨‹_›, taken, hsplit, rfl⟩
  · split_ifs at htakes
    cases htakes
    cases hdata
  · cases htakes
    cases hdata
  · cases htakes
    grind [HTTPEntity.trailerLine, HTTPEntity.finished]
  · split_ifs at htakes
    cases htakes
    cases hdata
  all_goals cases htakes

theorem Drives.positive {conn' : Connection} (hstate : ent.state = .readingChunkedBodyLen)
    (hlines : ∀ line, SizeLine ent conn line →
      StartsUnsigned line ∨ octstrParseLong line 0 16 = none)
    (hrun : Drives (ent, conn) (ent', conn')) (hdata : ent'.state = .readingChunkedBodyData) :
    0 < ent'.chunkedBodyChunkLen := by
  generalize hx : (ent', conn') = x at hrun
  induction hrun generalizing ent' conn' with
  | refl =>
    cases hx
    rw [hstate] at hdata
    cases hdata
  | tail hrun hmove ih =>
    subst hx
    cases hmove with
    | read => exact ih hdata rfl
    | take hstep htook =>
      obtain ⟨hlen, line, hline, rfl⟩ := chunkedBodyData_of_step hstep hdata
      exact chunkLenLine_positive (hlines line ⟨_, _, _, hrun, hlen, hline⟩) hdata

/-- **Chunk sizes.**  An entity in its error state is refused by `entity_read`.  A chunked
entity gets there by every size line that does not start with an unsigned number, and never
waits for what cannot arrive, exactly if no blank or sign stands in front of a number. -/
theorem chunked_progresses_iff (conn : Connection) (hstate : ent.state = .readingChunkedBodyLen) :
    (∀ broken c, HTTPEntity.state broken = .bodyError → (entityRead broken c).1 = .failed) ∧
      ((∀ ent' conn', Drives (ent, conn) (ent', conn') → Progresses ent' conn'.unread) ↔
        ∀ line, SizeLine ent conn line →
          StartsUnsigned line ∨ octstrParseLong line 0 16 = none) := by
  refine ⟨fun broken c hbroken => ?_, fun h line hline => ?_, fun hlines ent' conn' hrun => ?_⟩
  · simp [entityRead, entityRounds, entityReadLoop, entitySwitch, hbroken, EntityState.final]
  · obtain ⟨ent', conn', rest, hrun, hlen, hsplit⟩ := hline
    by_cases hstart : StartsUnsigned line
    · exact .inl hstart
    · exact .inr (chunkLenLine_bodyError.mp ((h ent' conn' hrun).refused _ _ hlen hsplit hstart))
  · have hpos := hrun.positive hstate hlines
    refine ⟨hpos, fun hdata hroom => ?_, fun line rest hlen hsplit hstart => ?_⟩
    · have hpos := hpos hdata
      have hlt : ¬ ent'.chunkedBodyChunkLen < 1 := by omega
      simpa [entityStep, entityTakes, hdata, hlt, splitFixed] using hroom
    · exact chunkLenLine_bodyError.mpr
        ((hlines line ⟨_, _, _, hrun, hlen, hsplit⟩).resolve_left hstart)

def chunkedConn (text : String) : Connection :=
  connWrapFd { reads := [.octets (ascii text)], writes := [], wire := [] }

def beginsChunks : HTTPEntity := { entityCreate .expectBody with state := .readingChunkedBodyLen }

/-- The size line of five octets is on its way, or it has been read and nothing follows. -/
def AroundFive (x : HTTPEntity × Connection) : Prop :=
  (x.1 = beginsChunks ∧ x.2.unread ++ x.2.fd.pending = ascii "5\r\n") ∨
    (x.1 = beginsChunks.chunkLenLine (ascii "5") ∧ x.2.unread ++ x.2.fd.pending = [])

theorem aroundFive_move {x y : HTTPEntity × Connection} (h : AroundFive x)
    (hmove : EntityMove x y) : AroundFive y := by
  cases hmove with
  | read ent conn =>
    rw [AroundFive, pending_unlockedRead conn, ← append_assoc, ← unread_unlockedRead] at h
    exact h
  | @take ent ent' conn conn' rest hstep htook =>
    have hwhole := entityStep_stable.append conn.fd.pending hstep
    rcases h with ⟨rfl, htext⟩ | ⟨rfl, htext⟩
    · rw [htext] at hwhole
      have hfive : entityStep beginsChunks (ascii "5\r\n") =
        some (beginsChunks.chunkLenLine (ascii "5"), []) := rfl
      obtain ⟨rfl, hrest⟩ := Prod.mk.inj (Option.some.inj (hwhole.symm.trans hfive))
      refine .inr ⟨rfl, ?_⟩
      rw [htook.unread_eq, htook.fd_eq, hrest]
    · rw [htext] at hwhole
      cases hwhole

theorem Drives.aroundFive {x y : HTTPEntity × Connection} (hrun : Drives x y)
    (h : AroundFive x) : AroundFive y := by
  induction hrun with
  | refl => exact h
  | tail _ hmove ih => exact aroundFive_move ih hmove

theorem chunked_progresses_five : beginsChunks.state = .readingChunkedBodyLen ∧
    ∀ ent' conn', Drives (beginsChunks, chunkedConn "5\r\n") (ent', conn') →
      Progresses ent' conn'.unread := by
  refine ⟨rfl, (chunked_progresses_iff (chunkedConn "5\r\n") rfl).2.mpr ?_⟩
  rintro line ⟨ent', conn', rest, hrun, hlen, hline⟩
  rcases hrun.aroundFive (.inl ⟨rfl, rfl⟩) with ⟨rfl, htext⟩ | ⟨rfl, -⟩
  · have hwhole := splitLine_stable.append conn'.fd.pending hline
    rw [htext] at hwhole
    obtain ⟨rfl, -⟩ := Prod.mk.inj (Option.some.inj
      (hwhole.symm.trans (show splitLine (ascii "5\r\n") = _ from rfl)))
    exact .inl ⟨53, rfl, rfl⟩
  · cases hlen

/-- The entity waits for -5 octets, whatever is there. -/
theorem chunked_waits_for_negative_size :
    ∃ ent conn, entityRead (entityCreate .expectBody)
        (chunkedConn "Transfer-Encoding: chunked\r\n\r\n-5\r\nhello\r\n0\r\n\r\n") =
          (.more, ent, conn) ∧
      ent.state = .readingChunkedBodyData ∧ ent.chunkedBodyChunkLen = -5 ∧
        conn.unread = ascii "hello\r\n0\r\n\r\n" :=
  ⟨_, _, Prod.ext (by decide +kernel) rfl, by decide +kernel, by decide +kernel, by decide +kernel⟩

end Kannel
