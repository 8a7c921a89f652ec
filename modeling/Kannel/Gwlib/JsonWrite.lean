import Kannel.Gwlib.Json
import Kannel.Gwlib.Uuid

/-!
# Objects that are written out by hand

What the parser makes of an object put together from texts, member by member.
-/

namespace Kannel
open List

def jsonMember (key : String) (value : Octstr) : Octstr := 34 :: (ascii key ++ 34 :: 58 :: value)

def jsonQuoted (text : Octstr) : Octstr := 34 :: (text ++ [34])

inductive JsonArgument
  | s (val : Option Octstr)
  | i (val : Int)
  | b (val : Bool)
  | n

def JsonArgument.text : JsonArgument → Octstr
  | .s (some val) => jsonQuoted (formatString (some (jsonEscapeString val)))
  | .i val => formatDecimal val
  | .b val => ascii (if val then "true" else "false")
  | .s none | .n => ascii "null"

def jsonObject (members : List (String × JsonArgument)) : Octstr :=
  [123] ++ intercalate [44] (members.map fun member => jsonMember member.1 member.2.text) ++ [125]

variable {c : UInt8} {text input : Octstr} {levels : Nat}

namespace Json

def Unescaped (text : Octstr) : Prop := ∀ c ∈ text, c ≠ 34 ∧ c ≠ 92

instance decidableUnescaped (text : Octstr) : Decidable (Unescaped text) :=
  inferInstanceAs (Decidable (∀ c ∈ text, c ≠ 34 ∧ c ≠ 92))

theorem Unescaped.tail (h : Unescaped (c :: text)) :
    Unescaped text := fun d hd => h d (mem_cons_of_mem c hd)

theorem literalEnd_append (h : Unescaped text) (rest : Octstr) :
    literalEnd (text ++ rest) = (literalEnd rest).map fun found => (text ++ found.1, found.2) := by
  induction text with
  | nil => exact Option.map_id'.symm
  | cons c text ih =>
    obtain ⟨hquote, hback⟩ := h c mem_cons_self
    rw [cons_append, literalEnd.eq_def (c :: _)]
    dsimp only
    rw [if_neg hquote, if_neg hback, ih h.tail, Option.map_map]
    rfl

theorem literalEnd_unescaped (h : Unescaped text) (rest : Octstr) :
    literalEnd (text ++ 34 :: rest) = some (text, rest) := by
  rw [literalEnd_append h, literalEnd.eq_def]
  simp

theorem unescape_unescaped (h : Unescaped text) : unescape text = some text := by
  induction text with
  | nil => rfl
  | cons c text ih =>
    obtain ⟨-, hback⟩ := h c mem_cons_self
    unfold unescape
    rw [if_pos hback, ih h.tail]
    rfl

theorem parseString_unescaped (h : Unescaped text) (rest : Octstr) :
    parseString (34 :: (text ++ 34 :: rest)) = some (text, rest) := by
  rw [parseString, literalEnd_unescaped h]
  show (unescape text).bind _ = _
  rw [unescape_unescaped h]
  rfl

theorem skipWhitespace_cons (h : 32 < c) (rest : Octstr) : skipWhitespace (c :: rest) = c :: rest :=
  dropWhile_cons_of_neg (by simpa using h)

theorem parseMember_unescaped {key : Octstr} (h : Unescaped key)
    (value : Octstr → Option (Json × Octstr)) (input : Octstr) :
    parseMember value (34 :: (key ++ 34 :: 58 :: input)) =
      (value (skipWhitespace input)).map fun found => ((key, found.1), found.2) := by
  unfold parseMember
  rw [parseString_unescaped h, Option.bind_eq_bind, Option.bind_some]
  dsimp only
  rw [skipWhitespace_cons (by decide)]
  dsimp only
  cases value (skipWhitespace input) <;> rfl

theorem parseValue_cons (h : c ≠ 110 ∧ c ≠ 102 ∧ c ≠ 116) (levels : Nat) (rest : Octstr) :
    parseValue levels (c :: rest) =
      if c = 34 then (parseString (c :: rest)).map fun found => (.string found.1, found.2)
      else if c = 45 ∨ isdigit c then
        (parseNumber (c :: rest)).map fun found => (.number found.1, found.2)
      else match levels with
        | 0 => none
        | levels + 1 => parseNested (parseValue levels) c rest := by
  have hword : ∀ (d : UInt8) (word : Octstr), c ≠ d →
      (d :: word).isPrefixOf (c :: rest) = false := by
    intro d word hne
    simp [List.isPrefixOf, Ne.symm hne]
  have hnull : (ascii "null").isPrefixOf (c :: rest) = false := hword 110 [117, 108, 108] h.1
  have hfalse : (ascii "false").isPrefixOf (c :: rest) = false :=
    hword 102 [97, 108, 115, 101] h.2.1
  have htrue : (ascii "true").isPrefixOf (c :: rest) = false := hword 116 [114, 117, 101] h.2.2
  have hnot : ¬ (false = true) := Bool.false_ne_true
  unfold parseValue
  rewrite [hnull, hfalse, htrue, if_neg hnot, if_neg hnot, if_neg hnot]
  cases levels <;> rfl

theorem parseValue_quoted (h : Unescaped text) (levels : Nat) (rest : Octstr) :
    parseValue levels (34 :: (text ++ 34 :: rest)) = some (.string text, rest) := by
  rw [parseValue_cons (by decide), parseString_unescaped h]
  rfl

theorem isNumberChar_of_isdigit (h : isdigit c = true) : isNumberChar c = true := by
  rw [isNumberChar, h]
  rfl

theorem splitSign_digits {digits : Octstr} (h : ∀ c ∈ digits, isdigit c = true) :
    splitSign digits = (1, digits) := by
  unfold splitSign
  split
  · exact absurd (h 45 mem_cons_self) (by decide)
  · exact absurd (h 43 mem_cons_self) (by decide)
  · rfl

variable (n : Int)

theorem strtod_formatDecimal : ∃ number, strtod (formatDecimal n) = some (number, []) := by
  obtain ⟨digits, hne, hdigits, htext⟩ := formatDecimal_digits n
  have hsign : (splitSign (formatDecimal n)).2 = digits := by
    rw [htext]
    split_ifs
    · rfl
    · rw [nil_append, splitSign_digits hdigits]
  have htake : digits.takeWhile isdigit = digits := takeWhile_eq_self_iff.mpr hdigits
  have hdrop : digits.dropWhile isdigit = [] := dropWhile_eq_nil_iff.mpr hdigits
  unfold strtod
  simp only [hsign, htake, hdrop]
  rw [if_neg (by simp [fractionDigits, hne])]
  exact ⟨_, rfl⟩

theorem isNumberChar_formatDecimal : ∀ c ∈ formatDecimal n, isNumberChar c = true := by
  intro c hc
  rcases mem_formatDecimal hc with rfl | hdigit
  · rfl
  · exact isNumberChar_of_isdigit hdigit

theorem parseNumber_formatDecimal {c : UInt8} (h : isNumberChar c = false) (rest : Octstr) :
    ∃ valueint, parseNumber (formatDecimal n ++ c :: rest) = some (valueint, c :: rest) := by
  obtain ⟨number, hnumber⟩ := strtod_formatDecimal n
  have hchars := isNumberChar_formatDecimal n
  unfold parseNumber
  rw [takeWhile_append_of_pos hchars, dropWhile_append_of_pos hchars,
    takeWhile_cons_of_neg (by simp [h]), dropWhile_cons_of_neg (by simp [h]),
    append_nil, hnumber]
  exact ⟨_, rfl⟩

theorem formatDecimal_cons :
    ∃ c text, formatDecimal n = c :: text ∧ (c = 45 ∨ isdigit c = true) := by
  obtain ⟨digits, hne, hdigits, htext⟩ := formatDecimal_digits n
  rw [htext]
  split_ifs
  · exact ⟨45, digits, rfl, .inl rfl⟩
  · obtain ⟨c, digits, rfl⟩ := exists_cons_of_ne_nil hne
    exact ⟨c, digits, rfl, .inr (hdigits c mem_cons_self)⟩

theorem numberStart_ne (h : c = 45 ∨ isdigit c = true) :
    32 < c ∧ (c ≠ 110 ∧ c ≠ 102 ∧ c ≠ 116) ∧ c ≠ 34 := by
  rcases h with rfl | h
  · decide
  · simp only [isdigit, Bool.and_eq_true, decide_eq_true_eq] at h
    obtain ⟨hlo, hhi⟩ := h
    refine ⟨UInt8.lt_of_lt_of_le (by decide) hlo, ⟨?_, ?_, ?_⟩, ?_⟩
    all_goals
      rintro rfl
      revert hlo hhi
      decide

theorem parseValue_formatDecimal {c : UInt8} (h : isNumberChar c = false) (levels : Nat)
    (rest : Octstr) :
    ∃ valueint, parseValue levels (skipWhitespace (formatDecimal n ++ c :: rest)) =
      some (.number valueint, c :: rest) := by
  obtain ⟨valueint, hnumber⟩ := parseNumber_formatDecimal n h rest
  obtain ⟨first, text, htext, hstart⟩ := formatDecimal_cons n
  obtain ⟨hspace, hword, hquote⟩ := numberStart_ne hstart
  rw [htext, cons_append] at hnumber ⊢
  rw [skipWhitespace_cons hspace, parseValue_cons hword, if_neg hquote, if_pos hstart, hnumber]
  exact ⟨valueint, rfl⟩

def parseMembers (levels : Nat) (input : Octstr) : Option (List (Octstr × Json) × Octstr) :=
  parseElements (parseMember (parseValue levels)) 125 input.length input

theorem parseElements_member {rounds : Nat} (h : input.length ≤ rounds) :
    parseElements (parseMember (parseValue levels)) 125 rounds input =
      parseMembers levels input := by
  obtain ⟨more, rfl⟩ := Nat.exists_eq_add_of_le h
  exact parseElements_rounds (parseMember_consumes (parseValue_consumes levels)) le_rfl more

variable {member : Octstr × Json}

theorem parseMembers_comma {rest : Octstr}
    (h : parseMember (parseValue levels) (skipWhitespace input) = some (member, 44 :: rest)) :
    parseMembers levels input =
      (parseMembers levels rest).map fun found => (member :: found.1, found.2) := by
  have hshorter := parseMember_consumes (parseValue_consumes levels) _ _ _ h
  have hskip := skipWhitespace_length input
  rw [length_cons] at hshorter
  obtain ⟨rounds, hrounds⟩ : ∃ rounds, input.length = rounds + 1 :=
    Nat.exists_eq_add_one_of_ne_zero (by omega)
  rw [← parseElements_member hrounds.le]
  unfold parseElements
  rw [h, Option.bind_eq_bind, Option.bind_some]
  dsimp only
  rw [skipWhitespace_cons (by decide)]
  dsimp only
  rw [parseElements_member (by omega)]
  cases parseMembers levels rest <;> rfl

theorem parseMembers_close {rest : Octstr}
    (h : parseMember (parseValue levels) (skipWhitespace input) = some (member, 125 :: rest)) :
    parseMembers levels input = some ([member], rest) := by
  have hshorter := parseMember_consumes (parseValue_consumes levels) _ _ _ h
  have hskip := skipWhitespace_length input
  obtain ⟨rounds, hrounds⟩ : ∃ rounds, input.length = rounds + 1 :=
    Nat.exists_eq_add_one_of_ne_zero (by omega)
  rw [← parseElements_member hrounds.le]
  unfold parseElements
  rw [h, Option.bind_eq_bind]
  dsimp only
  rfl

theorem jsonParse_object (input : Octstr) :
    jsonParse (123 :: 34 :: input) =
      (parseMembers 999 (34 :: input)).map fun found => .object found.1 := by
  unfold jsonParse
  show ((parseNested (parseValue 999) 123 (34 :: input)).map (·.1)) = _
  unfold parseNested
  rw [if_pos rfl]
  unfold parseBracketed
  rw [skipWhitespace_cons (by decide)]
  dsimp only
  rw [if_neg (by decide), Option.map_map]
  rfl

theorem jsonMember_append (key : String) (value rest : Octstr) :
    jsonMember key value ++ rest = 34 :: (ascii key ++ 34 :: 58 :: (value ++ rest)) := by
  simp only [jsonMember, cons_append, append_assoc]

theorem parseMember_jsonMember {key : String} (h : Unescaped (ascii key))
    (value : Octstr → Option (Json × Octstr))
    (text rest : Octstr) :
    parseMember value (skipWhitespace (jsonMember key text ++ rest)) =
      (value (skipWhitespace (text ++ rest))).map fun found => ((ascii key, found.1), found.2) := by
  rw [jsonMember_append, skipWhitespace_cons (by decide), parseMember_unescaped h]

inductive Escaped (c : UInt8) : Octstr → Prop
  | plain (hquote : c ≠ 34) (hback : c ≠ 92) : Escaped c [c]
  | short {e : UInt8} (h : simpleEscape e = some c) : Escaped c [92, e]
  | hex {h l : UInt8} (hplain : Unescaped [h, l]) (hvalue : parseHex4 [48, 48, h, l] = c.toNat)
      (hcontrol : c < 32) : Escaped c [92, 117, 48, 48, h, l]

theorem escaped_hex {n : Nat} (h : n < 32) :
    Unescaped [lowerHexit (n / 16), lowerHexit (n % 16)] ∧
      parseHex4 [48, 48, lowerHexit (n / 16), lowerHexit (n % 16)] = n ∧
      utf8Octets n = [UInt8.ofNat n] := by
  revert n
  decide

theorem escapeOctet_escaped (c : UInt8) : Escaped c (escapeOctet c) := by
  unfold escapeOctet
  split_ifs with hquote hback h₁ h₂ h₃ h₄ h₅ hcontrol
  any_goals
    subst c
    exact .short rfl
  · obtain ⟨hplain, hvalue, -⟩ := escaped_hex (UInt8.lt_iff_toNat_lt.mp hcontrol)
    exact .hex hplain hvalue hcontrol
  · exact .plain hquote hback

theorem Escaped.literalEnd (h : Escaped c text) (rest : Octstr) :
    literalEnd (text ++ rest) =
      (literalEnd rest).map fun found => (text ++ found.1, found.2) := by
  cases h with
  | plain hquote hback => exact literalEnd_append (by simp [Unescaped, hquote, hback]) rest
  | short h => simp [Json.literalEnd]
  | @hex h l hplain =>
    have hdigits : Unescaped [48, 48, h, l] := by simpa [Unescaped] using hplain
    show (Json.literalEnd ([48, 48, h, l] ++ rest)).map _ = _
    rw [literalEnd_append hdigits, Option.map_map]
    rfl

theorem Escaped.unescape (h : Escaped c text) (rest : Octstr) :
    unescape (text ++ rest) = (unescape rest).map (c :: ·) := by
  cases h with
  | plain hquote hback =>
    rw [singleton_append, Json.unescape.eq_def]
    exact if_pos hback
  | @short e h =>
    have he : e ≠ 117 := by
      rintro rfl
      cases h
    rw [Json.unescape.eq_def]
    simp [he, h]
  | hex hplain hvalue hcontrol =>
    have hsmall : c.toNat < 32 := UInt8.lt_iff_toNat_lt.mp hcontrol
    rw [Json.unescape.eq_def]
    dsimp only [cons_append, nil_append]
    rw [if_neg (by decide), if_neg (by decide), hvalue, if_neg (by omega), if_neg (by omega)]
    rw [(escaped_hex hsmall).2.2, UInt8.ofNat_toNat]
    rfl

theorem parseString_escaped (v rest : Octstr) :
    parseString (34 :: (jsonEscapeString v ++ 34 :: rest)) = some (v, rest) := by
  have hend : Json.literalEnd (jsonEscapeString v ++ 34 :: rest) =
      some (jsonEscapeString v, rest) := by
    induction v with
    | nil => exact literalEnd_unescaped (show Unescaped [] by decide) rest
    | cons c v ih =>
      rw [jsonEscapeString, flatMap_cons, append_assoc, (escapeOctet_escaped c).literalEnd]
      rw [← jsonEscapeString, ih]
      rfl
  have hback : Json.unescape (jsonEscapeString v) = some v := by
    clear hend
    induction v with
    | nil => rfl
    | cons c v ih =>
      rw [jsonEscapeString, flatMap_cons, (escapeOctet_escaped c).unescape]
      rw [← jsonEscapeString, ih]
      rfl
  rw [parseString, hend]
  show (Json.unescape _).bind _ = _
  rw [hback]
  rfl

/-- **A text comes back from the object** exactly if it has no NUL. -/
theorem jsonObject_roundTrip_iff {key : String} (v : Octstr) (hkey : Unescaped (ascii key))
    (hcstr : 0 ∉ ascii key) :
    (jsonParse (jsonObject [(key, .s (some v))])).bind (jsonGetString · key) = some v ↔ 0 ∉ v := by
  have hmember : parseMembers 999 (jsonMember key (jsonQuoted (jsonEscapeString v)) ++ [125]) =
      some ([(ascii key, .string v)], []) := by
    apply parseMembers_close
    rw [parseMember_jsonMember hkey]
    have hquoted : jsonQuoted (jsonEscapeString v) ++ [125] =
        34 :: (jsonEscapeString v ++ 34 :: [125]) := by
      simp [jsonQuoted]
    rw [hquoted, skipWhitespace_cons (by decide), parseValue_cons (by decide), if_pos rfl,
      parseString_escaped]
    rfl
  have hparse : jsonParse (jsonObject [(key, .s (some v))]) =
      some (.object [(ascii key, .string v)]) := by
    have hobject : jsonObject [(key, .s (some v))] =
        123 :: (jsonMember key (jsonQuoted (jsonEscapeString v)) ++ [125]) := by
      simp [jsonObject, JsonArgument.text, formatString, intercalate]
    rw [hobject, jsonMember, cons_append, jsonParse_object, ← cons_append, ← jsonMember, hmember]
    rfl
  have hfound : jsonGetString (.object [(ascii key, .string v)]) key =
      some (octstrGetCstr (some v)) := by
    simp [jsonGetString, jsonGet, octstrGetCstr_eq_iff.mpr hcstr, equalIgnoringCase]
  rw [hparse, Option.bind_some, hfound, Option.some.injEq, octstrGetCstr_eq_iff]

theorem jsonObject_roundTrip_quotes :
    (jsonParse (jsonObject [("k", .s (some [34, 92, 10, 31, 200]))])).bind (jsonGetString · "k") =
      some [34, 92, 10, 31, 200] :=
  (jsonObject_roundTrip_iff _ (by decide) (by decide)).mpr (by decide)

/-- **A text with a NUL is cut** before it. -/
theorem jsonObject_roundTrip_nul :
    (jsonParse (jsonObject [("k", .s (some [97, 0]))])).bind (jsonGetString · "k") = some [97] := by
  decide +kernel

end Json
end Kannel
