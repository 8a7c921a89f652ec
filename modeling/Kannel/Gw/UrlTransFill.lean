import Kannel.Gw.MetaData
import Kannel.Gw.SmsDcs
import Kannel.Gw.UrlTrans

/-!
# Filling in escape codes

The scan ends where the position equals the length of the pattern. An unclosed
`%#group#parameter#` may step over it, and the scan never gets there again.
-/

namespace Kannel
open List

structure Tm where
  year : Int
  mon : Int
  mday : Int
  hour : Int
  min : Int
  sec : Int

structure TimeEnv where
  now : Int
  gmtime : Int → Tm

inductive EscapeType
  | url | shell
  deriving DecidableEq, Repr

def shellEscapeOctet (c : UInt8) : Octstr := if c = 39 then [39, 92, 39, 39] else [c]

def octstrShellEscape (ostr : Octstr) : Octstr := 39 :: (ostr.flatMap shellEscapeOctet ++ [39])

inductive Part
  | escaped (value : Octstr)
  | own (octets : Octstr)
  | copied (value : Octstr)
  deriving DecidableEq, Repr

def Part.octets : EscapeType → Part → Octstr
  | .shell, .escaped value => octstrShellEscape value
  | .url, .escaped value => octstrUrlEncode value
  | _, .own octets => octets
  | _, .copied value => value

def escapedValue : Option Octstr → List Part
  | none => []
  | some value => [.escaped value]

def escapedFilled (value : Option Octstr) : List Part :=
  if (value.getD []).length = 0 then [] else escapedValue value

def formatPadded (width : Nat) (n : Int) : Octstr :=
  replicate (width - (formatDecimal n).length) 48 ++ formatDecimal n

def escapedWords (words : List Octstr) : List Part :=
  (words.map Part.escaped).intersperse (.own [43])

def tildeWord (word : Octstr) : Octstr := word.map fun c => if c = 42 then 126 else c

def charsetText (request : Sms) : List Part :=
  if (request.charset.getD []).length ≠ 0 then [.copied (request.charset.getD [])]
  else if request.coding = smsParamUndefined ∨ request.coding = dc7bit then [.own (ascii "UTF-8")]
  else if request.coding = dc8bit then [.own (ascii "8-BIT")]
  else if request.coding = dcUcs2 then [.own (ascii "UTF-16BE")]
  else []

def internationalText (number : Option Octstr) : List Part :=
  if (octstrGetCstr number).take 2 = [48, 48] then
    [.own (ascii "%2B"), .escaped ((number.getD []).drop 2)]
  else escapedValue number

def timeText (tm : Tm) : Octstr :=
  formatPadded 4 (tm.year + 1900) ++ 45 :: formatPadded 2 (tm.mon + 1) ++
    45 :: formatPadded 2 tm.mday ++ 43 :: formatPadded 2 tm.hour ++
    58 :: formatPadded 2 tm.min ++ 58 :: formatPadded 2 tm.sec

def minutesText (now t : Int) : Octstr :=
  if t ≠ msgParamUndefined then formatDecimal ((t - now).tdiv 60) else []

/-- What is appended to the result: text of the pattern, or the parts a code
stands for. -/
inductive Piece
  | text (octets : Octstr)
  | code (parts : List Part)
  deriving DecidableEq, Repr

def Piece.octets (escapeType : EscapeType) : Piece → Octstr
  | .text octets => octets
  | .code parts => parts.flatMap (Part.octets escapeType)

structure Filling where
  request : Sms
  nextarg : Nat
  pos : Nat

def between (pattern : Octstr) (start stop : Nat) : Octstr :=
  (pattern.drop start).take (stop - start)

def groupName (group : Octstr) : CString where
  octets := octstrGetCstr (some group)
  noNul := fun h => by simpa using mem_takeWhile_imp h

def expandMetaData (pattern : Octstr) (s : Filling) : List Part × Nat :=
  match octstrSearchChar pattern 35 (s.pos + 2) with
  | none => ([], s.pos)
  | some k =>
    match octstrSearchChar pattern 35 (k + 1) with
    | none => ([], k + 1 + 1)
    | some k' =>
      let group := groupName (between pattern (s.pos + 2) k)
      let value := s.request.metaData.bind fun data =>
        metaDataGetValue data group (between pattern (k + 1) k')
      (escapedValue value, k' - 1)

def expandCode (env : TimeEnv) (pattern : Octstr) (words : List Octstr) (s : Filling) :
    Piece × Filling :=
  let request := s.request
  let step : Filling := { s with pos := s.pos + 2 }
  match octstrGetChar pattern (s.pos + 1) with
  | none => (.text [37, 255], step)
  | some c =>
    match Char.ofNat c.toNat with
    | 'a' => (.code (escapedWords words), step)
    | 'A' => (.code (escapedValue request.msgdata), step)
    | 'b' => (.code (escapedValue request.msgdata), step)
    | 'B' => (.code (escapedFilled request.binfo), step)
    | 'c' => (.code [.own (formatDecimal request.coding)], step)
    | 'C' => (.code (charsetText request), step)
    | 'd' => (.code [.escaped (formatDecimal request.dlrMask)], step)
    | 'D' => (.code (escapedFilled request.metaData), step)
    | 'e' => (.code [.own (octstrBinaryToHex (request.msgdata.getD []))], step)
    | 'f' => (.code (escapedFilled request.smscNumber), step)
    | 'F' => (.code (escapedValue request.foreignId), step)
    | 'i' => (.code (escapedValue request.smscId), step)
    | 'I' => (.code [.own (if uuidIsNull request.id then [] else uuidUnparse request.id)], step)
    | 'k' => (.code (escapedValue words.head?), step)
    | 'm' => (.code [.escaped (formatDecimal request.mclass)], step)
    | 'M' => (.code [.escaped (formatDecimal request.mwi)], step)
    | 'n' => (.code (escapedValue request.service), step)
    | 'o' => (.code (escapedFilled request.account), step)
    | 'O' =>
      -- `fields_to_dcs` also sets the coding of the message where there is none
      let dcs := fieldsToDcs request request.altDcs
      (.code [.own (formatPadded 2 dcs.2.toInt)], { step with request := dcs.1 })
    | 'P' => (.code (escapedValue request.sender), step)
    | 'p' => (.code (escapedValue request.receiver), step)
    | 'q' => (.code (internationalText request.receiver), step)
    | 'Q' => (.code (internationalText request.sender), step)
    | 'r' => (.code (escapedWords (words.drop s.nextarg)), step)
    | 'R' => (.code (escapedFilled request.dlrUrl), step)
    | 's' =>
      match words[s.nextarg]? with
      | none => (.code [], step)
      | some word =>
        (.code [.escaped word], { step with nextarg := s.nextarg + 1 })
    | 'S' =>
      match words[s.nextarg]? with
      | none => (.code [], step)
      | some word => (.code [.copied (tildeWord word)], { step with nextarg := s.nextarg + 1 })
    | 't' => (.code [.own (timeText (env.gmtime request.time))], step)
    | 'T' =>
      (.code [.own (if request.time = msgParamUndefined then [] else formatDecimal request.time)],
        step)
    | 'u' => (.code (escapedFilled request.udhdata), step)
    | 'U' => (.code [.own (octstrBinaryToHex (request.udhdata.getD []))], step)
    | 'v' => (.code [.own (minutesText env.now request.validity)], step)
    | 'V' => (.code [.own (minutesText env.now request.deferred)], step)
    | 'y' => (.code [.escaped (formatDecimal request.priority)], step)
    | 'x' => (.code (escapedFilled request.boxcId), step)
    | '#' =>
      let metaData := expandMetaData pattern s
      (.code metaData.1, { step with pos := metaData.2 + 2 })
    | '%' => (.text [37], step)
    | _ => (.text [37, c], step)

def literalRun : Octstr → Octstr
  | [] => []
  | [c] => [c]
  | c :: d :: rest => if c = 37 then [] else c :: literalRun (d :: rest)

def fillLoop (env : TimeEnv) (pattern : Octstr) (words : List Octstr) :
    Nat → Filling → Option (List Piece)
  | 0, _ => none
  | fuel + 1, s =>
    let text := literalRun (pattern.drop s.pos)
    let s := { s with pos := s.pos + text.length }
    if s.pos = pattern.length then some [.text text]
    else
      let e := expandCode env pattern words s
      (fillLoop env pattern words fuel e.2).map fun rest => .text text :: e.1 :: rest

def wordList (request : Sms) : List Octstr :=
  match request.msgdata with
  | some msgdata => octstrSplitWords msgdata
  | none => []

def fillPieces (fuel : Nat) (env : TimeEnv) (pattern : Octstr) (request : Sms) :
    Option (List Piece) :=
  fillLoop env pattern (wordList request) fuel ⟨request, 1, 0⟩

def urltransFillEscapeCodesEx (fuel : Nat) (env : TimeEnv) (escapeType : EscapeType)
    (pattern : Octstr) (request : Sms) : Option Octstr :=
  (fillPieces fuel env pattern request).map fun pieces => pieces.flatMap (Piece.octets escapeType)

def metaDataEnd (pattern : Octstr) (pos : Nat) : Nat :=
  match octstrSearchChar pattern 35 (pos + 2) with
  | none => pos
  | some k =>
    match octstrSearchChar pattern 35 (k + 1) with
    | none => k + 1 + 1
    | some k' => k' - 1

def codeEnd (pattern : Octstr) (pos : Nat) : Nat :=
  if octstrGetChar pattern (pos + 1) = some 35 then metaDataEnd pattern pos + 2 else pos + 2

theorem expandMetaData_pos (pattern : Octstr) (s : Filling) :
    (expandMetaData pattern s).2 = metaDataEnd pattern s.pos := by
  unfold expandMetaData metaDataEnd
  cases octstrSearchChar pattern 35 (s.pos + 2) with
  | none => rfl
  | some k =>
    dsimp only
    cases octstrSearchChar pattern 35 (k + 1) <;> rfl

variable {c : UInt8}

theorem octet_eq_of_char_eq {d : UInt8} (h : Char.ofNat c.toNat = Char.ofNat d.toNat) : c = d := by
  have hvalid : ∀ x : UInt8, x.toNat.isValidChar := fun x => Or.inl (by have := x.toNat_lt; omega)
  have hnat := congrArg Char.toNat h
  rw [Char.ofNat, dif_pos (hvalid c), Char.ofNat, dif_pos (hvalid d)] at hnat
  exact UInt8.toNat_inj.mp hnat

theorem expandCode_pos (env : TimeEnv) (pattern : Octstr) (words : List Octstr) (s : Filling) :
    (expandCode env pattern words s).2.pos = codeEnd pattern s.pos := by
  unfold expandCode codeEnd
  cases hchar : octstrGetChar pattern (s.pos + 1) with
  | none => rfl
  | some c =>
    by_cases hc : c = 35
    · subst hc
      exact congrArg (· + 2) (expandMetaData_pos pattern s)
    · have hhash : Char.ofNat c.toNat ≠ '#' := fun h => hc (octet_eq_of_char_eq (d := 35) h)
      simp only [Option.some.injEq, hc, if_false]
      split
      all_goals first | rfl | skip
      · cases words[s.nextarg]? <;> rfl
      · cases words[s.nextarg]? <;> rfl
      · contradiction

variable {rest : Octstr}

section CodeEnd
variable {pattern : Octstr} {pos : Nat}

theorem drop_add_of_drop (front : Octstr) {rest : Octstr} (h : pattern.drop pos = front ++ rest) :
    pattern.drop (pos + front.length) = rest := by
  rw [← drop_drop, h, drop_left]

theorem octstrGetChar_code (h : pattern.drop pos = 37 :: c :: rest) :
    octstrGetChar pattern (pos + 1) = some c := by
  have hsecond := congrArg (·[1]?) h
  simpa [octstrGetChar] using hsecond

theorem codeEnd_two (h : pattern.drop pos = 37 :: c :: rest) (hc : c ≠ 35 ∨ 35 ∉ rest) :
    codeEnd pattern pos = pos + 2 ∧ pattern.drop (pos + 2) = rest := by
  have hrest : pattern.drop (pos + 2) = rest := drop_add_of_drop [37, c] h
  refine ⟨?_, hrest⟩
  rw [codeEnd, octstrGetChar_code h]
  by_cases hhash : c = 35
  · rw [hhash, if_pos rfl, metaDataEnd,
      octstrSearchChar_none hrest (hc.resolve_left (not_not.mpr hhash))]
  · rw [if_neg (by simpa using hhash)]

theorem codeEnd_group {group : Octstr} (hgroup : 35 ∉ group)
    (h : pattern.drop pos = 37 :: 35 :: (group ++ 35 :: rest)) :
    pattern.drop (pos + 2 + group.length + 1) = rest ∧
      codeEnd pattern pos = (match octstrSearchChar pattern 35 (pos + 2 + group.length + 1) with
        | none => pos + 2 + group.length + 1 + 1
        | some k => k - 1) + 2 := by
  have hfirst : pattern.drop (pos + 2) = group ++ 35 :: rest := drop_add_of_drop [37, 35] h
  refine ⟨drop_add_of_drop [35] (drop_add_of_drop group hfirst), ?_⟩
  rw [codeEnd, octstrGetChar_code h, if_pos rfl, metaDataEnd, octstrSearchChar_some hfirst hgroup]

theorem codeEnd_metaData {group param : Octstr} (hgroup : 35 ∉ group) (hparam : 35 ∉ param)
    (h : pattern.drop pos = 37 :: 35 :: (group ++ 35 :: (param ++ 35 :: rest))) :
    codeEnd pattern pos = pos + 2 + group.length + 1 + param.length + 1 ∧
      pattern.drop (pos + 2 + group.length + 1 + param.length + 1) = rest := by
  obtain ⟨hsecond, hend⟩ := codeEnd_group hgroup h
  refine ⟨?_, drop_add_of_drop [35] (drop_add_of_drop param hsecond)⟩
  rw [hend, octstrSearchChar_some hsecond hparam]
  dsimp only
  rw [Nat.add_right_comm _ 1, Nat.add_sub_cancel]

theorem codeEnd_unclosed {group : Octstr} (hgroup : 35 ∉ group) (hparam : 35 ∉ rest)
    (h : pattern.drop pos = 37 :: 35 :: (group ++ 35 :: rest)) :
    codeEnd pattern pos = pos + 2 + group.length + 4 ∧
      pattern.drop (pos + 2 + group.length + 4) = rest.drop 3 := by
  obtain ⟨hsecond, hend⟩ := codeEnd_group hgroup h
  rw [octstrSearchChar_none hsecond hparam] at hend
  exact ⟨hend, by rw [← hsecond, drop_drop]⟩

end CodeEnd

/-- A code of the meta-data whose parameter is not closed must be followed by three octets at
least. -/
inductive CodesClose : Octstr → Prop
  | nil : CodesClose []
  | percent : CodesClose [37]
  | text {c : UInt8} {rest : Octstr} (hc : c ≠ 37) (hrest : CodesClose rest) :
      CodesClose (c :: rest)
  | code {c : UInt8} {rest : Octstr} (hc : c ≠ 35 ∨ 35 ∉ rest) (hrest : CodesClose rest) :
      CodesClose (37 :: c :: rest)
  | metaData {group param rest : Octstr} (hgroup : 35 ∉ group) (hparam : 35 ∉ param)
      (hrest : CodesClose rest) :
      CodesClose (37 :: 35 :: (group ++ 35 :: (param ++ 35 :: rest)))
  | unclosed {group rest : Octstr} (hgroup : 35 ∉ group) (hparam : 35 ∉ rest)
      (hlen : 3 ≤ rest.length) (hrest : CodesClose (rest.drop 3)) :
      CodesClose (37 :: 35 :: (group ++ 35 :: rest))

theorem literalRun_spec (l : Octstr) :
    literalRun l = l ∧ CodesClose l ∨
      ∃ c rest, l = literalRun l ++ 37 :: c :: rest ∧ ∀ x ∈ literalRun l, x ≠ 37 := by
  fun_induction literalRun l with
  | case1 => exact Or.inl ⟨rfl, .nil⟩
  | case2 c =>
    left
    by_cases hc : c = 37
    · exact ⟨rfl, hc ▸ .percent⟩
    · exact ⟨rfl, .text hc .nil⟩
  | case3 d rest => exact Or.inr ⟨d, rest, rfl, by simp⟩
  | case4 c d rest hc ih =>
    rcases ih with ⟨hrun, hclose⟩ | ⟨e, tail, hrun, hne⟩
    · exact Or.inl ⟨by rw [hrun], .text hc hclose⟩
    · refine Or.inr ⟨e, tail, ?_, ?_⟩
      · rw [cons_append, ← hrun]
      · simpa [hc] using hne

theorem CodesClose.append_text {text : Octstr} (htext : ∀ x ∈ text, x ≠ 37)
    (hrest : CodesClose rest) : CodesClose (text ++ rest) := by
  induction text with
  | nil => exact hrest
  | cons c text ih =>
    exact .text (htext c (by simp)) (ih fun x hx => htext x (by simp [hx]))

theorem literalRun_append_code {text : Octstr} (htext : ∀ x ∈ text, x ≠ 37) :
    literalRun (text ++ 37 :: c :: rest) = text := by
  induction text with
  | nil => simp [literalRun]
  | cons d text ih =>
    have hd : d ≠ 37 := htext d (by simp)
    have hrest := ih fun x hx => htext x (by simp [hx])
    cases text with
    | nil => simp [literalRun, hd]
    | cons e text => simpa [literalRun, hd] using hrest

variable {s : Filling}

section Scan
variable (env : TimeEnv) (pattern : Octstr) (words : List Octstr)

def Terminates (s : Filling) : Prop :=
  ∃ fuel, (fillLoop env pattern words fuel s).isSome

variable (fuel : Nat)

theorem fillLoop_overrun (s : Filling) (h : pattern.length < s.pos) :
    fillLoop env pattern words fuel s = none := by
  induction fuel generalizing s with
  | zero => rfl
  | succ fuel ih =>
    have hdrop : pattern.drop s.pos = [] := drop_eq_nil_of_le (by omega)
    have hchar : octstrGetChar pattern (s.pos + 1) = none :=
      List.getElem?_eq_none (by omega)
    have hpos := expandCode_pos env pattern words s
    rw [codeEnd, hchar, if_neg (by simp)] at hpos
    have hnext := ih (expandCode env pattern words s).2 (by omega)
    simp only [fillLoop, hdrop, literalRun, length_nil, Nat.add_zero]
    rw [if_neg (by omega), hnext, Option.map_none]

variable {env pattern words}

theorem fillLoop_code (s : Filling) (text : Octstr) {rest : Octstr} {c : UInt8}
    (hdrop : pattern.drop s.pos = text ++ 37 :: c :: rest) (htext : ∀ x ∈ text, x ≠ 37) :
    fillLoop env pattern words (fuel + 1) s =
      (let e := expandCode env pattern words { s with pos := s.pos + text.length }
       (fillLoop env pattern words fuel e.2).map fun rest =>
         .text text :: e.1 :: rest) := by
  have hlen : s.pos + text.length ≠ pattern.length := by
    have h := congrArg List.length hdrop
    simp only [length_drop, length_append, length_cons] at h
    omega
  simp only [fillLoop, hdrop, literalRun_append_code htext]
  rw [if_neg hlen]

theorem fillLoop_end (s : Filling) (hpos : s.pos ≤ pattern.length)
    (hrun : literalRun (pattern.drop s.pos) = pattern.drop s.pos) :
    fillLoop env pattern words (fuel + 1) s = some [.text (pattern.drop s.pos)] := by
  simp only [fillLoop, hrun]
  rw [if_pos (by simp; omega)]

theorem codesClose_of_codeEnd {pos : Nat} (h : pattern.drop pos = 37 :: c :: rest)
    (hinside : codeEnd pattern pos ≤ pattern.length)
    (hclose : CodesClose (pattern.drop (codeEnd pattern pos))) : CodesClose (37 :: c :: rest) := by
  by_cases htwo : c ≠ 35 ∨ 35 ∉ rest
  · obtain ⟨hend, hrest⟩ := codeEnd_two h htwo
    rw [hend, hrest] at hclose
    exact .code htwo hclose
  · push Not at htwo
    obtain ⟨rfl, hfirst⟩ := htwo
    obtain ⟨group, tail, rfl, hgroup⟩ := eq_append_cons_of_mem hfirst
    by_cases hsecond : (35 : UInt8) ∈ tail
    · obtain ⟨param, after, rfl, hparam⟩ := eq_append_cons_of_mem hsecond
      obtain ⟨hend, hafter⟩ := codeEnd_metaData hgroup hparam h
      rw [hend, hafter] at hclose
      exact .metaData hgroup hparam hclose
    · have hlen := congrArg List.length (codeEnd_group hgroup h).1
      obtain ⟨hend, hdrop⟩ := codeEnd_unclosed hgroup hsecond h
      rw [hend] at hclose hinside
      rw [hdrop] at hclose
      refine .unclosed hgroup hsecond ?_ hclose
      rw [length_drop] at hlen
      omega

theorem codesClose_of_fillLoop {fuel : Nat} {pieces : List Piece}
    (h : fillLoop env pattern words fuel s = some pieces) : CodesClose (pattern.drop s.pos) := by
  induction fuel generalizing s pieces with
  | zero => simp [fillLoop] at h
  | succ fuel ih =>
    rcases literalRun_spec (pattern.drop s.pos) with ⟨-, hclose⟩ | ⟨c, rest, hrun, hne⟩
    · exact hclose
    · set text := literalRun (pattern.drop s.pos)
      have hcode : pattern.drop (s.pos + text.length) = 37 :: c :: rest := by
        rw [← drop_drop, hrun]
        simp
      rw [fillLoop_code fuel s text hrun hne] at h
      obtain ⟨pieces', hrec, -⟩ := Option.map_eq_some_iff.mp h
      have hclose := ih hrec
      have hover : ¬ pattern.length < _ := fun hlt =>
        absurd hrec (by rw [fillLoop_overrun _ _ _ _ _ hlt]; simp)
      rw [expandCode_pos] at hclose hover
      rw [hrun]
      exact .append_text hne (codesClose_of_codeEnd hcode (Nat.le_of_not_lt hover) hclose)

theorem Terminates.of_code (h : pattern.drop s.pos = 37 :: c :: rest)
    (hnext : Terminates env pattern words (expandCode env pattern words s).2) :
    Terminates env pattern words s := by
  obtain ⟨fuel, hrun⟩ := hnext
  refine ⟨fuel + 1, ?_⟩
  rw [fillLoop_code fuel s [] h (by simp), Option.isSome_map]
  exact hrun

theorem Terminates.of_text (h : pattern.drop s.pos = c :: rest) (hc : c ≠ 37)
    (hnext : Terminates env pattern words { s with pos := s.pos + 1 }) :
    Terminates env pattern words s := by
  obtain ⟨fuel, hrun⟩ := hnext
  have hdrop : pattern.drop (s.pos + 1) = rest := drop_add_of_drop [c] h
  have hpos : s.pos ≤ pattern.length := by
    have hlen := congrArg List.length h
    simp only [length_drop, length_cons] at hlen
    omega
  rcases literalRun_spec rest with ⟨hend, -⟩ | ⟨d, tail, hcode, hne⟩
  · refine ⟨1, ?_⟩
    rw [fillLoop_end 0 s hpos, Option.isSome_some]
    rw [h]
    cases rest with
    | nil => rfl
    | cons d rest => simp [literalRun, hc, hend]
  · cases fuel with
    | zero => simp [fillLoop] at hrun
    | succ fuel =>
      rw [fillLoop_code fuel _ (literalRun rest) (hdrop.trans hcode) hne, Option.isSome_map]
        at hrun
      have htext : pattern.drop s.pos = (c :: literalRun rest) ++ 37 :: d :: tail := by
        rw [h, cons_append, ← hcode]
      have hlen : s.pos + 1 + (literalRun rest).length = s.pos + (c :: literalRun rest).length := by
        rw [length_cons]
        omega
      refine ⟨fuel + 1, ?_⟩
      rw [fillLoop_code fuel s (c :: literalRun rest) htext (by simpa [hc] using hne),
        Option.isSome_map, ← hlen]
      exact hrun

theorem Terminates.of_codeEnd {c : UInt8} {rest after : Octstr} {s : Filling} {stop : Nat}
    (hdrop : pattern.drop s.pos = 37 :: c :: rest)
    (h : codeEnd pattern s.pos = stop ∧ pattern.drop stop = after) (hstop : stop ≤ pattern.length)
    (ih : ∀ s : Filling, pattern.drop s.pos = after → s.pos ≤ pattern.length →
      Terminates env pattern words s) : Terminates env pattern words s := by
  have hend := (expandCode_pos env pattern words s).trans h.1
  exact .of_code hdrop (ih _ (hend ▸ h.2) (hend ▸ hstop))

theorem terminates_of_codesClose {l : Octstr} (hclose : CodesClose l) (s : Filling)
    (hdrop : pattern.drop s.pos = l) (hpos : s.pos ≤ pattern.length) :
    Terminates env pattern words s := by
  induction hclose generalizing s with
  | nil => exact ⟨1, by rw [fillLoop_end 0 s hpos (by rw [hdrop]; rfl), Option.isSome_some]⟩
  | percent => exact ⟨1, by rw [fillLoop_end 0 s hpos (by rw [hdrop]; rfl), Option.isSome_some]⟩
  | @text c rest hc _ ih =>
    have hlen := congrArg List.length hdrop
    simp only [length_drop, length_cons] at hlen
    exact .of_text hdrop hc
      (ih { s with pos := s.pos + 1 } (drop_add_of_drop [c] hdrop) (by dsimp only; omega))
  | @code c rest hc _ ih =>
    have hlen := congrArg List.length hdrop
    simp only [length_drop, length_cons] at hlen
    exact .of_codeEnd hdrop (codeEnd_two hdrop hc) (by omega) ih
  | @metaData group param rest hgroup hparam _ ih =>
    have hlen := congrArg List.length hdrop
    simp only [length_drop, length_cons, length_append] at hlen
    exact .of_codeEnd hdrop (codeEnd_metaData hgroup hparam hdrop) (by omega) ih
  | @unclosed group rest hgroup hparam hthree _ ih =>
    have hlen := congrArg List.length hdrop
    simp only [length_drop, length_cons, length_append] at hlen
    exact .of_codeEnd hdrop (codeEnd_unclosed hgroup hparam hdrop) (by omega) ih

end Scan

/-- **Which patterns are filled in.**  The function returns if and only if the codes of the
pattern are closed. -/
theorem urltransFillEscapeCodesEx_returns_iff (env : TimeEnv) (escapeType : EscapeType)
    (pattern : Octstr) (request : Sms) :
    (∃ fuel result, urltransFillEscapeCodesEx fuel env escapeType pattern request = some result) ↔
      CodesClose pattern := by
  constructor
  · rintro ⟨fuel, result, h⟩
    obtain ⟨pieces, hrun, -⟩ := Option.map_eq_some_iff.mp h
    simpa using codesClose_of_fillLoop hrun
  · intro hclose
    obtain ⟨fuel, hrun⟩ : Terminates env pattern (wordList request) ⟨request, 1, 0⟩ :=
      terminates_of_codesClose hclose _ rfl (Nat.zero_le _)
    obtain ⟨pieces, hpieces⟩ := Option.isSome_iff_exists.mp hrun
    exact ⟨fuel, _, by rw [urltransFillEscapeCodesEx, fillPieces, hpieces, Option.map_some]⟩

def epochEnv : TimeEnv := ⟨0, fun _ => ⟨70, 0, 1, 0, 0, 0⟩⟩

/-- On a code without its last sign, with nothing behind it, the scan steps over
the end. -/
theorem unclosedCode_never_returns :
    ¬ ∃ fuel result, urltransFillEscapeCodesEx fuel epochEnv .url (ascii "%#a#")
      (smsCreate uuidClear) = some result := by
  rintro ⟨fuel, result, h⟩
  obtain ⟨pieces, hrun, -⟩ := Option.map_eq_some_iff.mp h
  cases fuel with
  | zero => simp [fillPieces, fillLoop] at hrun
  | succ fuel =>
    have hend : codeEnd (ascii "%#a#") 0 = 7 := by decide
    rw [fillPieces, fillLoop_code fuel _ [] (show _ = 37 :: 35 :: [97, 35] from rfl) (by simp)]
      at hrun
    dsimp only at hrun
    rw [fillLoop_overrun] at hrun
    · simp at hrun
    · rw [expandCode_pos]
      exact hend ▸ (by decide : (ascii "%#a#").length < 7)

end Kannel
