import Kannel.Gwlib.OctstrText

/-!
# JSON texts

The buffer of the parser is what is left of the text, with its NUL. A member is found by its
name in any case.
-/

namespace Kannel
open List

inductive Json
  | null
  | bool (value : Bool)
  | number (valueint : Int)
  | string (valuestring : Octstr)
  | array (items : List Json)
  | object (members : List (Octstr × Json))

namespace Json

def skipWhitespace (input : Octstr) : Octstr := input.dropWhile (· ≤ 32)

def skipUtf8Bom (input : Octstr) : Octstr :=
  if [0xEF, 0xBB, 0xBF].isPrefixOf input then input.drop 3 else input

def parseHex4 (str : Octstr) : Nat := if str.all (isDigitOf 16) then digitsValue 16 str else 0

def utf8Octets (codepoint : Nat) : Octstr :=
  let lead (mark shift : Nat) := UInt8.ofNat (((codepoint >>> shift) ||| mark) &&& 0xFF)
  let tail (shift : Nat) := UInt8.ofNat (((codepoint >>> shift) ||| 0x80) &&& 0xBF)
  if codepoint < 0x80 then [UInt8.ofNat (codepoint &&& 0x7F)]
  else if codepoint < 0x800 then [lead 0xC0 6, tail 0]
  else if codepoint < 0x10000 then [lead 0xE0 12, tail 6, tail 0]
  else [lead 0xF0 18, tail 12, tail 6, tail 0]

def simpleEscape (c : UInt8) : Option UInt8 :=
  if c = 98 then some 8
  else if c = 102 then some 12
  else if c = 110 then some 10
  else if c = 114 then some 13
  else if c = 116 then some 9
  else if c = 34 ∨ c = 92 ∨ c = 47 then some c
  else none

def unescape : Octstr → Option Octstr
  | [] => some []
  | c :: rest =>
    if c ≠ 92 then (unescape rest).map (c :: ·)
    else match rest with
      | [] => some [34]
      | e :: rest =>
        if e ≠ 117 then
          match simpleEscape e with
          | some octet => (unescape rest).map (octet :: ·)
          | none => none
        else match rest with
          | h₁ :: h₂ :: h₃ :: h₄ :: rest =>
            let first := parseHex4 [h₁, h₂, h₃, h₄]
            if 0xDC00 ≤ first ∧ first ≤ 0xDFFF then none
            else if 0xD800 ≤ first ∧ first ≤ 0xDBFF then
              match rest with
              | b :: u :: l₁ :: l₂ :: l₃ :: l₄ :: rest =>
                let second := parseHex4 [l₁, l₂, l₃, l₄]
                if b ≠ 92 ∨ u ≠ 117 then none
                else if second < 0xDC00 ∨ second > 0xDFFF then none
                else
                  let codepoint :=
                    0x10000 + (((first &&& 0x3FF) <<< 10) ||| (second &&& 0x3FF))
                  (unescape rest).map (utf8Octets codepoint ++ ·)
              | _ => none
            else (unescape rest).map (utf8Octets first ++ ·)
          | _ => none

def literalEnd : Octstr → Option (Octstr × Octstr)
  | [] => none
  | c :: rest =>
    if c = 34 then some ([], rest)
    else if c = 92 then
      match rest with
      | [] => none
      | e :: rest => (literalEnd rest).map fun found => (c :: e :: found.1, found.2)
    else (literalEnd rest).map fun found => (c :: found.1, found.2)

def parseString : Octstr → Option (Octstr × Octstr)
  | [] => none
  | c :: rest =>
    if c ≠ 34 then none
    else do
      let (literal, rest) ← literalEnd rest
      let output ← unescape literal
      return (output, rest)

def isNumberChar (c : UInt8) : Bool :=
  isdigit c || c = 43 || c = 45 || c = 101 || c = 69 || c = 46

structure Decimal where
  sign : Int
  mantissa : Nat
  exponent : Int

def fractionDigits : Octstr → Octstr × Octstr
  | 46 :: text => (text.takeWhile isdigit, text.dropWhile isdigit)
  | text => ([], text)

def exponentPart : Octstr → Int × Octstr
  | e :: text =>
    let signed := splitSign text
    let digits := signed.2.takeWhile isdigit
    if (e = 101 ∨ e = 69) ∧ digits ≠ [] then
      (signed.1 * digitsValue 10 digits, signed.2.dropWhile isdigit)
    else (0, e :: text)
  | [] => (0, [])

def strtod (text : Octstr) : Option (Decimal × Octstr) :=
  let signed := splitSign text
  let whole := signed.2.takeWhile isdigit
  let fraction := fractionDigits (signed.2.dropWhile isdigit)
  let scale := exponentPart fraction.2
  if whole ++ fraction.1 = [] then none
  else some (⟨signed.1, digitsValue 10 (whole ++ fraction.1), scale.1 - fraction.1.length⟩, scale.2)

def roundHalfEven (num den : Nat) : Nat :=
  let q := num / den
  let r := num % den
  if 2 * r < den ∨ (2 * r = den ∧ q % 2 = 0) then q else q + 1

def doubleFloor (num den : Nat) : Nat :=
  let whole := num / den
  let bits := 53 - if whole = 0 then 0 else Nat.log2 whole + 1
  roundHalfEven (num * 2 ^ bits) den / 2 ^ bits

def Decimal.valueint (d : Decimal) : Int :=
  let magnitude := doubleFloor (d.mantissa * 10 ^ d.exponent.toNat) (10 ^ (-d.exponent).toNat)
  max (-2 ^ 31) (min (2 ^ 31 - 1) (d.sign * magnitude))

def parseNumber (input : Octstr) : Option (Int × Octstr) :=
  (strtod (input.takeWhile isNumberChar)).map fun number =>
    (number.1.valueint, number.2 ++ input.dropWhile isNumberChar)

section Elements
variable {α : Type} (element : Octstr → Option (α × Octstr)) (close : UInt8)

def parseElements : (rounds : Nat) → Octstr → Option (List α × Octstr)
  | 0, _ => none
  | rounds + 1, input => do
    let (item, rest) ← element (skipWhitespace input)
    match skipWhitespace rest with
    | c :: rest =>
      if c = 44 then
        let (items, rest) ← parseElements rounds rest
        return (item :: items, rest)
      else if c = close then return ([item], rest)
      else none
    | [] => none

def parseBracketed (input : Octstr) : Option (List α × Octstr) :=
  match skipWhitespace input with
  | [] => none
  | c :: rest =>
    if c = close then some ([], rest)
    else parseElements element close (rest.length + 1) (c :: rest)

end Elements

def parseMember (value : Octstr → Option (Json × Octstr)) (input : Octstr) :
    Option ((Octstr × Json) × Octstr) := do
  let (name, rest) ← parseString input
  match skipWhitespace rest with
  | c :: rest =>
    if c = 58 then
      let (item, rest) ← value (skipWhitespace rest)
      return ((name, item), rest)
    else none
  | [] => none

def parseNested (value : Octstr → Option (Json × Octstr)) (c : UInt8) (rest : Octstr) :
    Option (Json × Octstr) :=
  if c = 91 then (parseBracketed value 93 rest).map fun found => (.array found.1, found.2)
  else if c = 123 then
    (parseBracketed (parseMember value) 125 rest).map fun found => (.object found.1, found.2)
  else none

def parseValue : (levels : Nat) → Octstr → Option (Json × Octstr)
  | levels, input =>
    if (ascii "null").isPrefixOf input then some (.null, input.drop 4)
    else if (ascii "false").isPrefixOf input then some (.bool false, input.drop 5)
    else if (ascii "true").isPrefixOf input then some (.bool true, input.drop 4)
    else match input with
      | [] => none
      | c :: rest =>
        if c = 34 then (parseString input).map fun found => (.string found.1, found.2)
        else if c = 45 ∨ isdigit c then
          (parseNumber input).map fun found => (.number found.1, found.2)
        else match levels with
          | 0 => none
          | levels + 1 => parseNested (parseValue levels) c rest

def nestingLimit : Nat := 1000

end Json

def jsonParse (json : Octstr) : Option Json :=
  (Json.parseValue Json.nestingLimit (Json.skipWhitespace (Json.skipUtf8Bom json))).map (·.1)

def jsonGet (json : Json) (key : String) : Option Json :=
  match json with
  | .object members =>
    (members.find? fun member =>
      equalIgnoringCase (ascii key) (octstrGetCstr (some member.1))).map (·.2)
  | _ => none

def jsonGetString (json : Json) (key : String) : Option Octstr :=
  match jsonGet json key with
  | some (.string valuestring) => some (octstrGetCstr (some valuestring))
  | _ => none

def jsonGetInteger (json : Json) (key : String) (default : Int) : Int :=
  match jsonGet json key with
  | some (.number valueint) => valueint
  | _ => default

def Json.stringMembers : Json → Option (List (Octstr × Octstr))
  | .object members => members.mapM fun member =>
    match member.2 with
    | .string valuestring => some (member.1, valuestring)
    | _ => none
  | _ => none

theorem Json.eq_of_stringMembers {json : Json} {strings : List (Octstr × Octstr)}
    (h : json.stringMembers = some strings) :
    json = .object (strings.map fun member => (member.1, .string member.2)) := by
  cases json with
  | object members =>
    congr 1
    dsimp only [stringMembers] at h
    induction members generalizing strings with
    | nil =>
      cases h
      rfl
    | cons member members ih =>
      rw [mapM_cons] at h
      obtain ⟨head, hhead, h⟩ := Option.bind_eq_some_iff.mp h
      obtain ⟨tail, htail, h⟩ := Option.bind_eq_some_iff.mp h
      cases h
      obtain ⟨name, value⟩ := member
      cases value with
      | string valuestring =>
        cases hhead
        rw [map_cons, ← ih htail]
      | null | bool | number | array | object => cases hhead
  | null | bool | number | string | array => cases h

def lowerHexit (n : Nat) : UInt8 := UInt8.ofNat (if n < 10 then 48 + n else 87 + n)

def escapeOctet (c : UInt8) : Octstr :=
  if c = 34 then ascii "\\\""
  else if c = 92 then ascii "\\\\"
  else if c = 8 then ascii "\\b"
  else if c = 12 then ascii "\\f"
  else if c = 10 then ascii "\\n"
  else if c = 13 then ascii "\\r"
  else if c = 9 then ascii "\\t"
  else if c < 32 then ascii "\\u00" ++ [lowerHexit (c.toNat / 16), lowerHexit (c.toNat % 16)]
  else [c]

def jsonEscapeString (str : Octstr) : Octstr := str.flatMap escapeOctet

namespace Json

def Consumes {α : Type} (parser : Octstr → Option (α × Octstr)) : Prop :=
  ∀ input item rest, parser input = some (item, rest) → rest.length < input.length

theorem skipWhitespace_length (input : Octstr) : (skipWhitespace input).length ≤ input.length :=
  (dropWhile_suffix _).length_le

variable {close : UInt8} {input rest : Octstr} {α : Type} {element : Octstr → Option (α × Octstr)}

theorem parseElements_succ {rounds : Nat} {items : List α}
    (h : parseElements element close (rounds + 1) input = some (items, rest)) :
    ∃ item c behind after, element (skipWhitespace input) = some (item, behind) ∧
      skipWhitespace behind = c :: after ∧
      ((c = 44 ∧ ∃ items', parseElements element close rounds after = some (items', rest) ∧
          items = item :: items') ∨
        c ≠ 44 ∧ c = close ∧ items = [item] ∧ rest = after) := by
  obtain ⟨⟨item, behind⟩, hitem, h⟩ := Option.bind_eq_some_iff.mp h
  dsimp only at h
  split at h
  · rename_i c after hafter
    refine ⟨item, c, behind, after, hitem, hafter, ?_⟩
    split_ifs at h with hcomma hclose
    · obtain ⟨⟨items', rest'⟩, hitems, h⟩ := Option.bind_eq_some_iff.mp h
      cases h
      exact .inl ⟨hcomma, items', hitems, rfl⟩
    · cases h
      exact .inr ⟨hcomma, hclose, rfl, rfl⟩
  · cases h

theorem parseElements_consumes (hconsumes : Consumes element) (rounds : Nat) :
    Consumes (parseElements element close rounds) := by
  induction rounds with
  | zero =>
    intro input items rest h
    cases h
  | succ rounds ih =>
    intro input items rest h
    obtain ⟨item, c, behind, after, hitem, hafter, hnext⟩ := parseElements_succ h
    have hbehind := hconsumes _ _ _ hitem
    have hskipped := skipWhitespace_length input
    have hafterLength : after.length < behind.length := by
      have hskip := skipWhitespace_length behind
      rw [hafter, length_cons] at hskip
      omega
    rcases hnext with ⟨-, items', hitems, -⟩ | ⟨-, -, -, rfl⟩
    · have hrest := ih after items' rest hitems
      omega
    · omega

theorem parseElements_rounds (hconsumes : Consumes element) {rounds : Nat} {input : Octstr}
    (h : input.length ≤ rounds) (more : Nat) :
    parseElements element close (rounds + more) input =
      parseElements element close rounds input := by
  induction rounds generalizing input with
  | zero =>
    obtain rfl := length_eq_zero_iff.mp (Nat.le_zero.mp h)
    cases more with
    | zero => rfl
    | succ more =>
      have hnone : element [] = none :=
        Option.eq_none_iff_forall_ne_some.mpr fun found hfound =>
          absurd (hconsumes [] found.1 found.2 hfound) (Nat.not_lt_zero _)
      show (element []).bind _ = none
      rw [hnone, Option.bind_none]
  | succ rounds ih =>
    rw [Nat.add_right_comm]
    unfold parseElements
    cases hitem : element (skipWhitespace input) with
    | none => rfl
    | some found =>
      obtain ⟨item, behind⟩ := found
      have hbehind := hconsumes _ _ _ hitem
      have hskipped := skipWhitespace_length input
      cases hafter : skipWhitespace behind with
      | nil => simp [hafter]
      | cons c after =>
        have hskip := skipWhitespace_length behind
        rw [hafter, length_cons] at hskip
        simp only [Option.bind_eq_bind, Option.bind_some, hafter,
          ih (show after.length ≤ rounds by omega)]

theorem parseBracketed_consumes {items : List α} (hconsumes : Consumes element)
    (h : parseBracketed element close input = some (items, rest)) :
    rest.length < input.length := by
  have hskip := skipWhitespace_length input
  unfold parseBracketed at h
  split at h
  · cases h
  · rename_i c after hafter
    rw [hafter, length_cons] at hskip
    split_ifs at h
    · cases h
      exact hskip
    · have hrest := parseElements_consumes hconsumes _ _ _ _ h
      rw [length_cons] at hrest
      omega

theorem literalEnd_consumes : Consumes literalEnd := by
  intro input
  fun_induction literalEnd input with
  | case1 => intro literal rest h; cases h
  | case2 => intro literal rest h; cases h; simp
  | case3 => intro literal rest h; cases h
  | case4 e rest _ ih =>
    intro literal rest' h
    obtain ⟨found, hfound, h⟩ := Option.map_eq_some_iff.mp h
    cases h
    have hlt := ih _ _ hfound
    simp only [length_cons]
    omega
  | case5 c rest _ _ ih =>
    intro literal rest' h
    obtain ⟨found, hfound, h⟩ := Option.map_eq_some_iff.mp h
    cases h
    have hlt := ih _ _ hfound
    simp only [length_cons]
    omega

theorem parseString_consumes : Consumes parseString := by
  intro input output rest h
  unfold parseString at h
  split at h
  · cases h
  · split_ifs at h
    obtain ⟨⟨literal, after⟩, hliteral, h⟩ := Option.bind_eq_some_iff.mp h
    obtain ⟨output', -, h⟩ := Option.bind_eq_some_iff.mp h
    cases h
    exact Nat.lt_succ_of_lt (literalEnd_consumes _ _ _ hliteral)

theorem takeWhile_add_dropWhile_length (p : UInt8 → Bool) (text : Octstr) :
    (text.takeWhile p).length + (text.dropWhile p).length = text.length := by
  rw [← length_append, takeWhile_append_dropWhile]

variable (text : Octstr)

theorem splitSign_length : (splitSign text).2.length ≤ text.length := by
  unfold splitSign
  split <;> simp

theorem fractionDigits_length :
    (fractionDigits text).1.length + (fractionDigits text).2.length ≤ text.length := by
  unfold fractionDigits
  split
  · rename_i text
    have hsplit := takeWhile_add_dropWhile_length isdigit text
    simp only [length_cons]
    omega
  · simp

theorem exponentPart_length : (exponentPart text).2.length ≤ text.length := by
  unfold exponentPart
  split
  · rename_i e text
    have hsign := splitSign_length text
    have hsplit := takeWhile_add_dropWhile_length isdigit (splitSign text).2
    dsimp only
    split_ifs
    · simp only [length_cons]
      omega
    · exact le_rfl
  · exact le_rfl

theorem strtod_consumes : Consumes strtod := by
  intro text number rest h
  have hsign := splitSign_length text
  have hwhole := takeWhile_add_dropWhile_length isdigit (splitSign text).2
  have hfraction := fractionDigits_length ((splitSign text).2.dropWhile isdigit)
  have hscale :=
    exponentPart_length (fractionDigits ((splitSign text).2.dropWhile isdigit)).2
  unfold strtod at h
  obtain ⟨hdigits, h⟩ := Option.ite_none_left_eq_some.mp h
  cases h
  have hpos := length_pos_iff.mpr hdigits
  rw [length_append] at hpos
  omega

theorem parseNumber_consumes : Consumes parseNumber := by
  intro input number rest h
  obtain ⟨found, hfound, h⟩ := Option.map_eq_some_iff.mp h
  cases h
  have hlt := strtod_consumes _ _ _ hfound
  have hsplit := takeWhile_add_dropWhile_length isNumberChar input
  rw [length_append]
  omega

variable {value : Octstr → Option (Json × Octstr)}

theorem parseMember_consumes (hvalue : Consumes value) : Consumes (parseMember value) := by
  intro input member rest h
  obtain ⟨⟨name, behind⟩, hname, h⟩ := Option.bind_eq_some_iff.mp h
  have hstring := parseString_consumes _ _ _ hname
  have hskip := skipWhitespace_length behind
  dsimp only at h
  split at h
  · rename_i c after hafter
    rw [hafter, length_cons] at hskip
    obtain ⟨-, h⟩ := Option.ite_none_right_eq_some.mp h
    obtain ⟨⟨item, last⟩, hitem, h⟩ := Option.bind_eq_some_iff.mp h
    cases h
    have hlt := hvalue _ _ _ hitem
    have hskip' := skipWhitespace_length after
    dsimp only
    omega
  · cases h

theorem parseNested_consumes (hvalue : Consumes value) {c : UInt8} {item : Json}
    (h : parseNested value c input = some (item, rest)) :
    rest.length < input.length := by
  unfold parseNested at h
  split_ifs at h
  · obtain ⟨found, hfound, h⟩ := Option.map_eq_some_iff.mp h
    cases h
    exact parseBracketed_consumes hvalue hfound
  · obtain ⟨found, hfound, h⟩ := Option.map_eq_some_iff.mp h
    cases h
    exact parseBracketed_consumes (parseMember_consumes hvalue) hfound

theorem drop_word_length {word input : Octstr} (hne : word ≠ [])
    (h : word.isPrefixOf input = true) : (input.drop word.length).length < input.length := by
  have hle := (List.isPrefixOf_iff_prefix.mp h).length_le
  have hpos := length_pos_iff.mpr hne
  rw [length_drop]
  omega

theorem parseValue_consumes_of {levels : Nat}
    (hdeeper : ∀ deeper, levels = deeper + 1 → Consumes (parseValue deeper)) :
    Consumes (parseValue levels) := by
  intro input item rest h
  unfold parseValue at h
  split_ifs at h with hnull hfalse htrue
  · cases h
    exact drop_word_length (by decide) hnull
  · cases h
    exact drop_word_length (by decide) hfalse
  · cases h
    exact drop_word_length (by decide) htrue
  cases input with
  | nil => cases h
  | cons c input =>
    dsimp only at h
    split_ifs at h with hquote hdigit
    · obtain ⟨found, hfound, h⟩ := Option.map_eq_some_iff.mp h
      cases h
      exact parseString_consumes _ _ _ hfound
    · obtain ⟨found, hfound, h⟩ := Option.map_eq_some_iff.mp h
      cases h
      exact parseNumber_consumes _ _ _ hfound
    cases levels with
    | zero => cases h
    | succ deeper => exact Nat.lt_succ_of_lt (parseNested_consumes (hdeeper deeper rfl) h)

theorem parseValue_consumes (levels : Nat) : Consumes (parseValue levels) := by
  induction levels with
  | zero => exact parseValue_consumes_of fun deeper h => absurd h.symm (Nat.succ_ne_zero deeper)
  | succ levels ih =>
    refine parseValue_consumes_of fun deeper h => ?_
    obtain rfl := Nat.succ.inj h
    exact ih

end Json
end Kannel
