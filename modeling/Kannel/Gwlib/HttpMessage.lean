import Kannel.Gwlib.HttpFraming

/-!
# Entities as they are sent

Header lines, an empty line, and a body in one of the framings the headers announce; the entity
consumes exactly their octets.
-/

namespace Kannel
open List
open Consumer

def lineOctets (line : Octstr) : Octstr := line ++ [13, 10]

structure Chunk where
  size : Octstr
  data : Octstr
  deriving DecidableEq, Repr

inductive Framing
  | none | contentLength
  | chunked (chunks : List Chunk) (last : Octstr) (trailers : List Octstr)
  deriving DecidableEq, Repr

def Chunk.octets (chunk : Chunk) : Octstr := lineOctets chunk.size ++ lineOctets chunk.data

def Framing.octets (body : Octstr) : Framing → Octstr
  | .none => []
  | .contentLength => body
  | .chunked chunks last trailers =>
    chunks.flatMap Chunk.octets ++
      (lineOctets last ++ (trailers.flatMap lineOctets ++ lineOctets []))

def Framing.trailers : Framing → List Octstr
  | .chunked _ _ trailers => trailers
  | _ => []

def entityOctets (headers : List Octstr) (framing : Framing) (body : Octstr) : Octstr :=
  headers.flatMap lineOctets ++ (lineOctets [] ++ framing.octets body)

def IsLine (line : Octstr) : Prop := line ≠ [] ∧ 13 ∉ line ∧ 10 ∉ line

def IsHeaderLine (line : Octstr) : Prop :=
  IsLine line ∧ ∀ c, line.head? = some c → isspace c = false

def IsNumber (base n : Nat) (digits : Octstr) : Prop :=
  digits ≠ [] ∧ (∀ c ∈ digits, isDigitOf base c = true) ∧ digitsValue base digits = n

def IsChunkSize (n : Nat) (line : Octstr) : Prop :=
  ∃ digits ext, line = digits ++ ext ∧ IsNumber 16 n digits ∧
    (∀ c, ext.head? = some c → c = 59 ∨ c = 32 ∨ c = 9) ∧ 10 ∉ ext

def Announces (expect : BodyExpectation) (headers : List Octstr) (body : Octstr) : Framing → Prop
  | .none =>
    body = [] ∧ (expect = .expectNoBody ∨ expect = .expectBodyIfIndicated ∧
      httpHeaderFindFirst headers (ascii "Transfer-Encoding") = none ∧
      httpHeaderFindFirst headers (ascii "Content-Length") = none)
  | .contentLength =>
    expect ≠ .expectNoBody ∧ body.length < 2 ^ 63 ∧
      httpHeaderFindFirst headers (ascii "Transfer-Encoding") = none ∧
      ∃ digits, httpHeaderFindFirst headers (ascii "Content-Length") = some digits ∧
        IsNumber 10 body.length digits
  | .chunked chunks last trailers =>
    expect ≠ .expectNoBody ∧
      httpHeaderFindFirst headers (ascii "Transfer-Encoding") = some (ascii "chunked") ∧
      body = chunks.flatMap Chunk.data ∧
      (∀ chunk ∈ chunks, chunk.data ≠ [] ∧ chunk.data.length < 2 ^ 63 ∧
        IsChunkSize chunk.data.length chunk.size) ∧
      IsChunkSize 0 last ∧ (∀ line ∈ trailers, IsLine line)

theorem IsChunkSize.parse {n : Nat} {line : Octstr} (h : IsChunkSize n line) (hn : n < 2 ^ 63) :
    10 ∉ line ∧ ∃ pos, octstrParseLong line 0 16 = some ((n : Int), pos) := by
  obtain ⟨digits, ext, rfl, ⟨hne, hdigits, rfl⟩, hext, hlf⟩ := h
  refine ⟨?_, digits.length, ?_⟩
  · intro hmem
    rcases mem_append.mp hmem with hd | he
    · have hspace := isDigitOf_not_isspace (hdigits 10 hd)
      revert hspace
      decide
    · exact hlf he
  · apply octstrParseLong_digits (Nat.le_refl 16) hne hdigits ?_ hn
    intro c hc
    rcases hext c hc with rfl | rfl | rfl <;> decide

section Parts
variable {ent : HTTPEntity} {finish : HTTPEntity → HTTPEntity}

theorem consumes_line {next : Octstr → HTTPEntity} {line : Octstr}
    (htakes : entityTakes ent = some (splitLine, next)) (hlf : 10 ∉ line) :
    Consumes entityStep ent (lineOctets line) (next line) := by
  apply Consumes.of_step
  intro more
  simp only [entityStep, htakes, lineOctets, splitLine_crlf hlf, Option.map_some]

theorem consumes_lines (lines : List Octstr) (hline : TakesLines ent finish)
    (hlines : ∀ line ∈ lines, IsLine line) (headers : List Octstr) :
    Consumes entityStep { ent with headers := headers } (lines.flatMap lineOctets)
      { ent with headers := lines.foldl addHeaderLine headers } := by
  induction lines generalizing headers with
  | nil => exact Consumes.refl _
  | cons line lines ih =>
    obtain ⟨hne, -, hlf⟩ := hlines line mem_cons_self
    have hfirst := consumes_line (hline headers) hlf
    rw [if_neg hne] at hfirst
    exact hfirst.trans (ih (fun l hl => hlines l (mem_cons_of_mem _ hl)) _)

variable {lines : List Octstr}

theorem foldl_addHeaderLine (hlines : ∀ line ∈ lines, IsHeaderLine line) (headers : List Octstr) :
    lines.foldl addHeaderLine headers = headers ++ lines := by
  induction lines generalizing headers with
  | nil => simp
  | cons line lines ih =>
    have hadd : addHeaderLine headers line = headers ++ [line] := by
      obtain ⟨⟨hne, -, -⟩, hhead⟩ := hlines line mem_cons_self
      match line, hne with
      | c :: rest, _ =>
        have hc := hhead c rfl
        unfold addHeaderLine
        split <;> simp [hc]
    rw [foldl_cons, hadd, ih fun l hl => hlines l (mem_cons_of_mem _ hl)]
    simp

theorem consumes_headers (hline : TakesLines ent finish) (hlines : ∀ line ∈ lines, IsLine line) :
    Consumes entityStep ent (lines.flatMap lineOctets ++ lineOctets [])
      (finish { ent with headers := lines.foldl addHeaderLine ent.headers }) := by
  have hfirst := consumes_lines lines hline hlines ent.headers
  exact hfirst.trans (consumes_line (hline _) not_mem_nil)

theorem consumes_chunkLenLine (h : ent.state = .readingChunkedBodyLen) {line : Octstr}
    (hlf : 10 ∉ line) : Consumes entityStep ent (lineOctets line) (ent.chunkLenLine line) :=
  consumes_line (by simp only [entityTakes, h]) hlf

theorem consumes_chunk (h : ent.state = .readingChunkedBodyLen) {chunk : Chunk}
    (hne : chunk.data ≠ []) (hlen : chunk.data.length < 2 ^ 63)
    (hsize : IsChunkSize chunk.data.length chunk.size) :
    Consumes entityStep ent chunk.octets
      { ent with body := ent.body ++ chunk.data, chunkedBodyChunkLen := chunk.data.length } := by
  obtain ⟨hlf, pos, hparse⟩ := hsize.parse hlen
  have hpos : 0 < chunk.data.length := length_pos_of_ne_nil hne
  have hnonzero : ¬ (chunk.data.length : Int) = 0 := by omega
  have hsize : Consumes entityStep ent (lineOctets chunk.size)
      { ent with state := .readingChunkedBodyData, chunkedBodyChunkLen := chunk.data.length } := by
    have hline := consumes_chunkLenLine h hlf
    simpa only [HTTPEntity.chunkLenLine, hparse, hnonzero, if_false] using hline
  have hdata : Consumes entityStep
      { ent with state := .readingChunkedBodyData, chunkedBodyChunkLen := chunk.data.length }
      chunk.data
      { ent with
        body := ent.body ++ chunk.data
        state := .readingChunkedBodyCrlf
        chunkedBodyChunkLen := chunk.data.length } := by
    apply Consumes.of_step
    intro more
    have hone : ¬ (chunk.data.length : Int) < 1 := by omega
    simp [entityStep, entityTakes, hone, splitFixed_left]
  have hend : Consumes entityStep
      { ent with
        body := ent.body ++ chunk.data
        state := .readingChunkedBodyCrlf
        chunkedBodyChunkLen := chunk.data.length }
      (lineOctets [])
      { ent with
        body := ent.body ++ chunk.data
        state := .readingChunkedBodyLen
        chunkedBodyChunkLen := chunk.data.length } := by
    apply Consumes.of_step
    intro more
    have hcrlf : splitLine (lineOctets [] ++ more) = some ([], more) :=
      splitLine_crlf not_mem_nil more
    simp only [entityStep, entityTakes, hcrlf, Option.map_some]
  have hall := hsize.trans (hdata.trans hend)
  rw [← h] at hall
  exact hall

theorem consumes_chunks (chunks : List Chunk)
    (hchunks : ∀ chunk ∈ chunks, chunk.data ≠ [] ∧ chunk.data.length < 2 ^ 63 ∧
      IsChunkSize chunk.data.length chunk.size) (h : ent.state = .readingChunkedBodyLen) :
    ∃ len, Consumes entityStep ent (chunks.flatMap Chunk.octets)
      { ent with body := ent.body ++ chunks.flatMap Chunk.data, chunkedBodyChunkLen := len } := by
  induction chunks generalizing ent with
  | nil => exact ⟨ent.chunkedBodyChunkLen, by simpa using Consumes.refl ent⟩
  | cons chunk chunks ih =>
    obtain ⟨hne, hlen, hsize⟩ := hchunks chunk mem_cons_self
    have hfirst := consumes_chunk h hne hlen hsize
    obtain ⟨len, hrest⟩ := @ih
      { ent with body := ent.body ++ chunk.data, chunkedBodyChunkLen := chunk.data.length }
      (fun c hc => hchunks c (mem_cons_of_mem _ hc)) h
    refine ⟨len, ?_⟩
    have hall := hfirst.trans hrest
    rw [flatMap_cons, flatMap_cons]
    simpa only [append_assoc] using hall

theorem consumes_chunked (h : ent.state = .readingChunkedBodyLen) {chunks : List Chunk}
    {last : Octstr} {trailers : List Octstr}
    (hchunks : ∀ chunk ∈ chunks, chunk.data ≠ [] ∧ chunk.data.length < 2 ^ 63 ∧
      IsChunkSize chunk.data.length chunk.size)
    (hlast : IsChunkSize 0 last) (htrailers : ∀ line ∈ trailers, IsLine line) :
    ∃ g : HTTPEntity, Consumes entityStep ent
        (chunks.flatMap Chunk.octets ++
          (lineOctets last ++ (trailers.flatMap lineOctets ++ lineOctets []))) g ∧
      g.state = .entityDone ∧ g.headers = trailers.foldl addHeaderLine ent.headers ∧
      g.body = ent.body ++ chunks.flatMap Chunk.data := by
  obtain ⟨len, hdata⟩ := consumes_chunks chunks hchunks h
  obtain ⟨hlf, pos, hparse⟩ := hlast.parse (by decide)
  have hzero : Consumes entityStep
      { ent with body := ent.body ++ chunks.flatMap Chunk.data, chunkedBodyChunkLen := len }
      (lineOctets last)
      { ent with
        body := ent.body ++ chunks.flatMap Chunk.data
        state := .readingChunkedBodyTrailer
        chunkedBodyChunkLen := len } := by
    have hline := @consumes_chunkLenLine
      { ent with body := ent.body ++ chunks.flatMap Chunk.data, chunkedBodyChunkLen := len }
      h last hlf
    simpa only [HTTPEntity.chunkLenLine, hparse, Nat.cast_zero, if_true] using hline
  have htrail : Consumes entityStep
      { ent with
        body := ent.body ++ chunks.flatMap Chunk.data
        state := .readingChunkedBodyTrailer
        chunkedBodyChunkLen := len }
      (trailers.flatMap lineOctets ++ lineOctets []) _ :=
    consumes_headers (takesLines_trailer rfl) htrailers
  exact ⟨_, hdata.trans (hzero.trans htrail), rfl, rfl, rfl⟩

theorem deduceBodyState_none
    (h : ent.expectState = .expectNoBody ∨ ent.expectState = .expectBodyIfIndicated ∧
      httpHeaderFindFirst ent.headers (ascii "Transfer-Encoding") = none ∧
      httpHeaderFindFirst ent.headers (ascii "Content-Length") = none) :
    deduceBodyState ent = ent.finished := by
  rcases h with h | ⟨h, hte, hcl⟩
  · simp [deduceBodyState, h, HTTPEntity.finished]
  · simp [deduceBodyState, h, hte, hcl, HTTPEntity.finished]

theorem deduceBodyState_length {digits : Octstr} {n : Nat}
    (hexpect : ent.expectState ≠ .expectNoBody)
    (hte : httpHeaderFindFirst ent.headers (ascii "Transfer-Encoding") = none)
    (hcl : httpHeaderFindFirst ent.headers (ascii "Content-Length") = some digits)
    (hdigits : IsNumber 10 n digits) (hn : n < 2 ^ 63) :
    deduceBodyState ent =
      { ent with
        expectedBodyLen := n
        state := if n = 0 then .entityDone else .readingBodyWithLength } := by
  obtain ⟨hne, hall, rfl⟩ := hdigits
  have hparse := @octstrParseLong_digits 10 digits [] (by decide) hne hall (by simp) hn
  rw [append_nil] at hparse
  have hnonneg : ¬ ((digitsValue 10 digits : Nat) : Int) < 0 := by omega
  simp only [deduceBodyState, hexpect, if_false, hte, hcl, hparse, hnonneg, Int.natCast_eq_zero]

theorem deduceBodyState_chunked (hexpect : ent.expectState ≠ .expectNoBody)
    (hte : httpHeaderFindFirst ent.headers (ascii "Transfer-Encoding") = some (ascii "chunked")) :
    deduceBodyState ent = { ent with state := .readingChunkedBodyLen } := by
  have hchunked : octstrGetCstr (some (octstrStripBlanks (ascii "chunked"))) = ascii "chunked" := by
    decide
  simp only [deduceBodyState, hexpect, if_false, hte, hchunked, if_true]

theorem consumes_body (h : ent.state = .readingBodyWithLength) {body : Octstr} (hne : body ≠ [])
    (hlen : ent.expectedBodyLen = body.length) :
    Consumes entityStep ent body { ent with body := body, state := .entityDone } := by
  have hpos : 0 < body.length := length_pos_of_ne_nil hne
  have hone : ¬ (body.length : Int) < 1 := by omega
  apply Consumes.of_step
  intro more
  simp [entityStep, entityTakes, h, hlen, hone, splitFixed_left]

end Parts

theorem framing_consumes {expect : BodyExpectation} {headers : List Octstr} {framing : Framing}
    {body : Octstr} {ent : HTTPEntity} (h : Announces expect headers body framing)
    (hexpect : ent.expectState = expect) (hheaders : ent.headers = headers)
    (hbody : ent.body = []) :
    ∃ g : HTTPEntity, Consumes entityStep (deduceBodyState ent) (framing.octets body) g ∧
      g.state = .entityDone ∧ g.headers = framing.trailers.foldl addHeaderLine headers ∧
      g.body = body := by
  subst hexpect hheaders
  cases framing with
  | none =>
    obtain ⟨rfl, hnone⟩ := h
    rw [deduceBodyState_none hnone]
    exact ⟨ent.finished, Consumes.refl _, rfl, rfl, hbody⟩
  | contentLength =>
    obtain ⟨hexp, hlen, hte, digits, hcl, hnumber⟩ := h
    rw [deduceBodyState_length hexp hte hcl hnumber hlen]
    cases body with
    | nil => exact ⟨_, Consumes.refl _, rfl, rfl, hbody⟩
    | cons c body => exact ⟨_, consumes_body rfl (cons_ne_nil c body) rfl, rfl, rfl, rfl⟩
  | chunked chunks last trailers =>
    obtain ⟨hexp, hte, rfl, hchunks, hlast, htrailers⟩ := h
    rw [deduceBodyState_chunked hexp hte]
    obtain ⟨g, hg, hdone, hh, hb⟩ := @consumes_chunked
      { ent with state := .readingChunkedBodyLen } rfl chunks last trailers hchunks hlast htrailers
    exact ⟨g, hg, hdone, hh, by rw [hb, hbody]; rfl⟩

theorem entity_consumes {expect : BodyExpectation} {headers : List Octstr} {framing : Framing}
    {body : Octstr} (hheaders : ∀ line ∈ headers, IsHeaderLine line)
    (h : Announces expect headers body framing) :
    ∃ g : HTTPEntity,
      Consumes entityStep (entityCreate expect) (entityOctets headers framing body) g ∧
      g.state = .entityDone ∧ g.headers = framing.trailers.foldl addHeaderLine headers ∧
      g.body = body := by
  have hhead := consumes_headers (@takesLines_headers (entityCreate expect) rfl)
    fun line hline => (hheaders line hline).1
  rw [foldl_addHeaderLine hheaders] at hhead
  obtain ⟨g, hg, hresult⟩ := @framing_consumes expect headers framing body
    { entityCreate expect with headers := [] ++ headers } h rfl rfl rfl
  refine ⟨g, ?_, hresult⟩
  rw [entityOctets, ← append_assoc]
  exact hhead.trans hg

inductive EntityEvent
  | call | readable
  deriving DecidableEq, Repr

def entityEvent (x : HTTPEntity × Connection) : EntityEvent → HTTPEntity × Connection
  | .call => ((entityRead x.1 x.2).2.1, (entityRead x.1 x.2).2.2)
  | .readable => (x.1, unlockedRead x.2)

theorem Carries.drives_events {ent₀ g : HTTPEntity} {conn₀ : Connection} {message further : Octstr}
    (h : Carries ent₀ conn₀ message g further) (events : List EntityEvent)
    {x : HTTPEntity × Connection} (hrun : Drives (ent₀, conn₀) x) :
    Drives (ent₀, conn₀) (events.foldl entityEvent x) := by
  induction events generalizing x with
  | nil => exact hrun
  | cons event events ih =>
    apply ih
    cases event with
    | call => exact (h.call hrun rfl).1
    | readable => exact hrun.tail (.read x.1 x.2)

/-- **Entities survive any fragmentation.**  A call of `entity_read` returns 1 if it leaves
octets of the entity unread on the socket. Otherwise it returns 0 with the headers, trailers and
body, and leaves what follows on the connection. -/
theorem entityRead_exact (expect : BodyExpectation) (headers : List Octstr) (framing : Framing)
    (body further : Octstr) (conn : Connection) (events : List EntityEvent)
    (hheaders : ∀ line ∈ headers, IsHeaderLine line)
    (hannounced : Announces expect headers body framing)
    (hstream : conn.unread ++ conn.fd.pending = entityOctets headers framing body ++ further)
    (horderly : conn.Orderly) :
    let x := events.foldl entityEvent (entityCreate expect, conn)
    let out := entityRead x.1 x.2
    (further.length < out.2.2.fd.pending.length → out.1 = .more) ∧
      (out.2.2.fd.pending.length ≤ further.length →
        out.1 = .complete ∧
        out.2.1.headers = framing.trailers.foldl addHeaderLine headers ∧
        ((∀ line ∈ framing.trailers, IsHeaderLine line) →
          out.2.1.headers = headers ++ framing.trailers) ∧
        out.2.1.body = body ∧ out.2.2.unread ++ out.2.2.fd.pending = further) := by
  intro x out
  obtain ⟨g, hconsumes, hdone, hh, hb⟩ := entity_consumes hheaders hannounced
  have hcarries :
      Carries (entityCreate expect) conn (entityOctets headers framing body) g further :=
    ⟨hconsumes, hdone, hstream, horderly⟩
  have hcall := (hcarries.call (hcarries.drives_events events (Drives.refl _)) rfl).2
  rcases hcall with ⟨hshort, hmore⟩ | ⟨hread, hcomplete, hent, hleft⟩
  · exact ⟨fun _ => hmore, fun hle => absurd hshort (Nat.not_lt.mpr hle)⟩
  · refine ⟨fun hlt => absurd hread (Nat.not_le.mpr hlt), fun _ => ?_⟩
    have hent : out.2.1 = g := hent
    rw [hent, hh, hb]
    exact ⟨hcomplete, rfl, fun htrailers => foldl_addHeaderLine htrailers headers, rfl, hleft⟩

theorem entityRead_exact_three_pieces :
    let x := [EntityEvent.call, .call].foldl entityEvent (entityCreate .expectBodyIfIndicated,
      connWrapFd
        { reads :=
            [.octets (ascii "Transfer-Encoding: chunked\r\n\r\n3;"), .octets (ascii "x\r\na"),
              .octets (ascii "bc\r\n0\r\nT: 1\r\n\r\nG")]
          writes := [], wire := [] })
    let out := entityRead x.1 x.2
    out.2.1.headers = [ascii "Transfer-Encoding: chunked"] ++ [ascii "T: 1"] ∧
      out.2.1.body = ascii "abc" ∧ out.2.2.unread ++ out.2.2.fd.pending = [71] := by
  have hline : ∀ text, text = ascii "Transfer-Encoding: chunked" ∨ text = ascii "T: 1" →
      IsHeaderLine text := by
    intro text htext
    refine ⟨?_, ?_⟩
    · rcases htext with rfl | rfl <;> exact ⟨by decide, by decide, by decide⟩
    · rcases htext with rfl | rfl <;> rintro c ⟨⟩ <;> decide
  have hdigit : ∀ text, text = ascii "3" ∨ text = ascii "0" →
      ∀ c ∈ text, isDigitOf 16 c = true := by
    intro text htext c hc
    rcases htext with rfl | rfl <;> obtain rfl := mem_singleton.mp hc <;> decide
  have hannounced : Announces .expectBodyIfIndicated [ascii "Transfer-Encoding: chunked"]
      (ascii "abc") (.chunked [⟨ascii "3;x", ascii "abc"⟩] (ascii "0") [ascii "T: 1"]) := by
    refine ⟨by decide, by decide, by decide, ?_, ?_, ?_⟩
    · rintro chunk hchunk
      rw [mem_singleton] at hchunk
      subst hchunk
      refine ⟨by decide, by decide, ascii "3", ascii ";x", by decide, ?_, ?_, by decide⟩
      · exact ⟨by decide, hdigit _ (.inl rfl), by decide⟩
      · rintro c ⟨⟩
        exact .inl rfl
    · exact ⟨ascii "0", [], by decide, ⟨by decide, hdigit _ (.inr rfl), by decide⟩, by simp,
        by simp⟩
    · intro line hmem
      exact (hline line (.inr (mem_singleton.mp hmem))).1
  have h := entityRead_exact .expectBodyIfIndicated [ascii "Transfer-Encoding: chunked"]
    (.chunked [⟨ascii "3;x", ascii "abc"⟩] (ascii "0") [ascii "T: 1"]) (ascii "abc") [71]
    (connWrapFd
      { reads :=
          [.octets (ascii "Transfer-Encoding: chunked\r\n\r\n3;"), .octets (ascii "x\r\na"),
            .octets (ascii "bc\r\n0\r\nT: 1\r\n\r\nG")]
        writes := [], wire := [] })
    [.call, .call] (fun line hmem => hline line (.inl (mem_singleton.mp hmem))) hannounced
    (by decide +kernel) ⟨trivial, by intro hended; cases hended⟩
  have hread := h.2 (by decide +kernel)
  have htrailers : ∀ line ∈ [ascii "T: 1"], IsHeaderLine line :=
    fun line hmem => hline line (.inr (mem_singleton.mp hmem))
  exact ⟨hread.2.2.1 htrailers, hread.2.2.2⟩

end Kannel
