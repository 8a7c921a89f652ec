import Kannel.Gwlib.JsonWrite
import Kannel.Gw.Dlr

/-!
# Messages published to RabbitMQ

`json_escape_string` writes no quotes around its result, and `msg_to_json` writes none either,
so a text is never a string there.
-/

namespace Kannel
open List
open Json

inductive PublishedAs
  | mo | dlr
  deriving DecidableEq

def PublishedAs.text : PublishedAs → Octstr
  | .mo => ascii "mo"
  | .dlr => ascii "dlr"

def publishedTexts (msg : Sms) : List (String × Option Octstr) :=
  [("from", msg.sender), ("to", msg.receiver), ("text", msg.msgdata), ("smsc-id", msg.smscId)]

def textMember : String × Option Octstr → Octstr
  | (_, none) => []
  | (key, some value) => jsonMember key (formatString (some (jsonEscapeString value))) ++ [44]

def msgToJson (msg : Sms) (type : PublishedAs) (now : Int) : Octstr :=
  [123] ++ jsonMember "type" (jsonQuoted type.text) ++ [44]
    ++ jsonMember "id" (jsonQuoted (uuidUnparse msg.id)) ++ [44]
    ++ (publishedTexts msg).flatMap textMember
    ++ jsonMember "coding" (formatDecimal (toInt msg.coding)) ++ [44]
    ++ (if msg.smsType = reportMo then
          jsonMember "dlr-type" (formatDecimal (toInt msg.dlrMask)) ++ [44]
        else [])
    ++ jsonMember "timestamp" (formatDecimal now) ++ [125]

/-- The texts of the message and its id are found again, and nothing of a text that is not
there. -/
def PublishesRightly (msg : Sms) (type : PublishedAs) (now : Int) : Prop :=
  ∃ members, jsonParse (msgToJson msg type now) = some (.object members) ∧
    (∀ key value, (key, value) ∈ publishedTexts msg → jsonGetString (.object members) key = value) ∧
    jsonGetString (.object members) "id" = some (uuidUnparse msg.id)

def numberMembers (msg : Sms) (now : Int) : Octstr :=
  jsonMember "coding" (formatDecimal (toInt msg.coding)) ++ 44 ::
    ((if msg.smsType = reportMo then
        jsonMember "dlr-type" (formatDecimal (toInt msg.dlrMask)) ++ [44]
      else []) ++
      (jsonMember "timestamp" (formatDecimal now) ++ [125]))

variable {key : String}

theorem parseMembers_quoted {text : Octstr} (hkey : Unescaped (ascii key)) (htext : Unescaped text)
    (levels : Nat) (rest : Octstr) :
    parseMembers levels (jsonMember key (jsonQuoted text) ++ 44 :: rest) =
      (parseMembers levels rest).map fun found =>
        ((ascii key, .string text) :: found.1, found.2) := by
  apply parseMembers_comma
  rw [parseMember_jsonMember hkey]
  have hquoted : jsonQuoted text ++ 44 :: rest = 34 :: (text ++ 34 :: 44 :: rest) := by
    simp only [jsonQuoted, cons_append, append_assoc, nil_append]
  rw [hquoted, skipWhitespace_cons (by decide), parseValue_quoted htext, Option.map_some]

theorem parseMembers_number (hkey : Unescaped (ascii key)) (n : Int) (levels : Nat)
    (rest : Octstr) :
    ∃ valueint, parseMembers levels (jsonMember key (formatDecimal n) ++ 44 :: rest) =
      (parseMembers levels rest).map fun found =>
        ((ascii key, .number valueint) :: found.1, found.2) := by
  obtain ⟨valueint, hvalue⟩ :=
    parseValue_formatDecimal n (show isNumberChar 44 = false by decide) levels rest
  refine ⟨valueint, parseMembers_comma ?_⟩
  rw [parseMember_jsonMember hkey, hvalue, Option.map_some]

theorem parseMembers_lastNumber (hkey : Unescaped (ascii key)) (n : Int) (levels : Nat) :
    ∃ valueint, parseMembers levels (jsonMember key (formatDecimal n) ++ [125]) =
      some ([(ascii key, .number valueint)], []) := by
  obtain ⟨valueint, hvalue⟩ :=
    parseValue_formatDecimal n (show isNumberChar 125 = false by decide) levels []
  refine ⟨valueint, parseMembers_close ?_⟩
  rw [parseMember_jsonMember hkey, hvalue, Option.map_some]

theorem parseMembers_numberMembers (msg : Sms) (now : Int) (levels : Nat) :
    ∃ members, parseMembers levels (numberMembers msg now) = some (members, []) ∧
      ∀ member ∈ members, member.1 ∈ [ascii "coding", ascii "dlr-type", ascii "timestamp"] := by
  obtain ⟨time, htime⟩ :=
    parseMembers_lastNumber (show Unescaped (ascii "timestamp") by decide) now levels
  unfold numberMembers
  split_ifs with hreport
  · rw [append_assoc, singleton_append]
    obtain ⟨mask, hmask⟩ := parseMembers_number (show Unescaped (ascii "dlr-type") by decide)
      (toInt msg.dlrMask) levels (jsonMember "timestamp" (formatDecimal now) ++ [125])
    obtain ⟨coding, hcoding⟩ := parseMembers_number (show Unescaped (ascii "coding") by decide)
      (toInt msg.coding) levels (jsonMember "dlr-type" (formatDecimal (toInt msg.dlrMask)) ++
        44 :: (jsonMember "timestamp" (formatDecimal now) ++ [125]))
    rw [hcoding, hmask, htime]
    exact ⟨_, rfl, by simp⟩
  · rw [nil_append]
    obtain ⟨coding, hcoding⟩ := parseMembers_number (show Unescaped (ascii "coding") by decide)
      (toInt msg.coding) levels (jsonMember "timestamp" (formatDecimal now) ++ [125])
    rw [hcoding, htime]
    exact ⟨_, rfl, by simp⟩

theorem escapeOctet_cases (c : UInt8) :
    escapeOctet c = [32] ∨
      ∃ first rest, escapeOctet c = first :: rest ∧ 32 < first ∧ first ≠ 34 := by
  have hback : ∀ rest : Octstr, ∃ first rest',
      92 :: rest = first :: rest' ∧ 32 < first ∧ first ≠ 34 :=
    fun rest => ⟨92, rest, rfl, by decide, by decide⟩
  unfold escapeOctet
  by_cases hquote : c = 34
  · rw [if_pos hquote]
    exact .inr (hback _)
  split_ifs with h₁ h₂ h₃ h₄ h₅ h₆ hcontrol
  case neg =>
    by_cases hspace : c = 32
    · rw [hspace]
      exact .inl rfl
    · refine .inr ⟨c, [], rfl, ?_, hquote⟩
      exact UInt8.lt_of_le_of_ne (UInt8.not_lt.mp hcontrol) (Ne.symm hspace)
  all_goals exact .inr (hback _)

theorem skipWhitespace_escaped_head (value rest : Octstr) :
    ∃ first behind, skipWhitespace (jsonEscapeString value ++ 44 :: rest) = first :: behind ∧
      first ≠ 34 := by
  induction value with
  | nil => exact ⟨44, rest, skipWhitespace_cons (by decide) rest, by decide⟩
  | cons c value ih =>
    have hcons : jsonEscapeString (c :: value) ++ 44 :: rest =
        escapeOctet c ++ (jsonEscapeString value ++ 44 :: rest) := by
      rw [jsonEscapeString, flatMap_cons, append_assoc]
      rfl
    rw [hcons]
    rcases escapeOctet_cases c with hspace | ⟨first, behind, htext, hprinted, hquote⟩
    · rw [hspace, singleton_append]
      exact ih
    · rw [htext, cons_append, skipWhitespace_cons hprinted]
      exact ⟨first, _, rfl, hquote⟩

theorem parseValue_ne_string {c : UInt8} (hquote : c ≠ 34) {levels : Nat}
    {input text rest : Octstr} :
    parseValue levels (c :: input) ≠ some (.string text, rest) := by
  intro h
  unfold parseValue at h
  split_ifs at h with hnull hfalse htrue
  · cases h
  · cases h
  · cases h
  dsimp only at h
  rw [if_neg hquote] at h
  split_ifs at h with hdigit
  · obtain ⟨found, -, h⟩ := Option.map_eq_some_iff.mp h
    cases h
  cases levels with
  | zero => cases h
  | succ levels =>
    dsimp only [parseNested] at h
    split_ifs at h
    all_goals
      obtain ⟨found, -, h⟩ := Option.map_eq_some_iff.mp h
      cases h

theorem parseMembers_text (hkey : Unescaped (ascii key)) {levels : Nat} {value rest after : Octstr}
    {members : List (Octstr × Json)}
    (h : parseMembers levels (jsonMember key (jsonEscapeString value) ++ 44 :: rest) =
      some (members, after)) :
    ∃ item others, members = (ascii key, item) :: others ∧ ∀ text, item ≠ .string text := by
  obtain ⟨first, behind, hfirst, hquote⟩ := skipWhitespace_escaped_head value rest
  obtain ⟨member, c, behind', last, hmember, -, hnext⟩ := parseElements_succ h
  rw [parseMember_jsonMember hkey, hfirst] at hmember
  obtain ⟨⟨item, left⟩, hitem, hmember⟩ := Option.map_eq_some_iff.mp hmember
  cases hmember
  have hstring : ∀ text, item ≠ .string text := by
    rintro text rfl
    exact parseValue_ne_string hquote hitem
  rcases hnext with ⟨-, others, -, rfl⟩ | ⟨-, -, rfl, -⟩
  · exact ⟨item, others, rfl, hstring⟩
  · exact ⟨item, [], rfl, hstring⟩

theorem flatMap_textMember_cases (texts : List (String × Option Octstr)) :
    (∀ text ∈ texts, text.2 = none) ∧ texts.flatMap textMember = [] ∨
      ∃ key value rest, (key, some value) ∈ texts ∧
        texts.flatMap textMember = jsonMember key (jsonEscapeString value) ++ 44 :: rest := by
  induction texts with
  | nil => exact .inl ⟨by simp, rfl⟩
  | cons text texts ih =>
    obtain ⟨key, value⟩ := text
    rw [flatMap_cons]
    cases value with
    | some value =>
      refine .inr ⟨key, value, texts.flatMap textMember, mem_cons_self, ?_⟩
      simp only [textMember, formatString, Option.getD_some, append_assoc, singleton_append]
    | none =>
      rcases ih with ⟨hnone, hnil⟩ | ⟨key', value, rest, hmem, htext⟩
      · refine .inl ⟨?_, hnil⟩
        rintro text (_ | ⟨_, htext⟩)
        · rfl
        · exact hnone text htext
      · exact .inr ⟨key', value, rest, mem_cons_of_mem _ hmem, htext⟩

theorem unescaped_uuidUnparse (id : Uuid) : Unescaped (uuidUnparse id) := by
  have hother : ∀ d : UInt8, Hex.isDigit d = false ∧ d ≠ dash → ∀ c ∈ uuidUnparse id, c ≠ d := by
    rintro d ⟨hdigit, hdash⟩ c hc rfl
    rcases mem_uuidUnparse hc with h | h
    · exact absurd h (by rw [hdigit]; decide)
    · exact hdash h
  exact fun c hc => ⟨hother 34 (by decide) c hc, hother 92 (by decide) c hc⟩

theorem unescaped_type (type : PublishedAs) : Unescaped type.text := by
  cases type
  · show Unescaped (ascii "mo")
    decide
  · show Unescaped (ascii "dlr")
    decide

theorem msgToJson_eq (msg : Sms) (type : PublishedAs) (now : Int) :
    msgToJson msg type now = 123 :: (jsonMember "type" (jsonQuoted type.text) ++ 44 ::
      (jsonMember "id" (jsonQuoted (uuidUnparse msg.id)) ++ 44 ::
        ((publishedTexts msg).flatMap textMember ++ numberMembers msg now))) := by
  simp only [msgToJson, numberMembers, append_assoc, cons_append, nil_append]

def headMembers (msg : Sms) (type : PublishedAs) : List (Octstr × Json) :=
  [(ascii "type", .string type.text), (ascii "id", .string (uuidUnparse msg.id))]

theorem jsonParse_msgToJson (msg : Sms) (type : PublishedAs) (now : Int) :
    jsonParse (msgToJson msg type now) =
      (parseMembers 999 ((publishedTexts msg).flatMap textMember ++ numberMembers msg now)).map
        fun found => .object (headMembers msg type ++ found.1) := by
  have hparse := jsonParse_object (ascii "type" ++ 34 :: 58 :: (jsonQuoted type.text ++ 44 ::
    (jsonMember "id" (jsonQuoted (uuidUnparse msg.id)) ++ 44 ::
      ((publishedTexts msg).flatMap textMember ++ numberMembers msg now))))
  rw [← jsonMember_append] at hparse
  rw [msgToJson_eq, hparse,
    parseMembers_quoted (show Unescaped (ascii "type") by decide) (unescaped_type type),
    parseMembers_quoted (show Unescaped (ascii "id") by decide) (unescaped_uuidUnparse msg.id),
    Option.map_map, Option.map_map]
  rfl

theorem jsonGet_object_cons (name : Octstr) (item : Json) (members : List (Octstr × Json))
    (key : String) :
    jsonGet (.object ((name, item) :: members)) key =
      if equalIgnoringCase (ascii key) (octstrGetCstr (some name)) then some item
      else jsonGet (.object members) key := by
  dsimp only [jsonGet]
  rw [List.find?_cons]
  cases equalIgnoringCase (ascii key) (octstrGetCstr (some name)) <;> rfl

def textKeys : List String := ["from", "to", "text", "smsc-id"]

variable {msg : Sms}

theorem mem_textKeys {value : Option Octstr} (h : (key, value) ∈ publishedTexts msg) :
    key ∈ textKeys := by
  simp only [publishedTexts, mem_cons, Prod.mk.injEq, not_mem_nil, or_false] at h
  rcases h with ⟨rfl, -⟩ | ⟨rfl, -⟩ | ⟨rfl, -⟩ | ⟨rfl, -⟩ <;> simp [textKeys]

theorem textKeys_spec : ∀ key ∈ textKeys, Unescaped (ascii key) ∧
    equalIgnoringCase (ascii key) (octstrGetCstr (some (ascii "type"))) = false ∧
    equalIgnoringCase (ascii key) (octstrGetCstr (some (ascii "id"))) = false ∧
    equalIgnoringCase (ascii key) (octstrGetCstr (some (ascii key))) = true ∧
    ∀ name ∈ [ascii "coding", ascii "dlr-type", ascii "timestamp"],
      equalIgnoringCase (ascii key) (octstrGetCstr (some name)) = false := by
  decide +kernel

theorem jsonGet_headMembers (h : key ∈ textKeys) (msg : Sms) (type : PublishedAs)
    (members : List (Octstr × Json)) :
    jsonGet (.object (headMembers msg type ++ members)) key = jsonGet (.object members) key := by
  obtain ⟨-, htype, hid, -⟩ := textKeys_spec key h
  unfold headMembers
  rw [cons_append, jsonGet_object_cons, htype, if_neg Bool.false_ne_true, cons_append,
    jsonGet_object_cons, hid, if_neg Bool.false_ne_true, nil_append]

theorem jsonGetString_id (msg : Sms) (type : PublishedAs) (members : List (Octstr × Json)) :
    jsonGetString (.object (headMembers msg type ++ members)) "id" = some (uuidUnparse msg.id) := by
  have htype : equalIgnoringCase (ascii "id") (octstrGetCstr (some (ascii "type"))) = false := by
    decide +kernel
  have hid : equalIgnoringCase (ascii "id") (octstrGetCstr (some (ascii "id"))) = true := by
    decide +kernel
  unfold jsonGetString headMembers
  rw [cons_append, jsonGet_object_cons, htype, if_neg Bool.false_ne_true, cons_append,
    jsonGet_object_cons, hid, if_pos rfl]
  dsimp only [octstrGetCstr]
  rw [takeWhile_eq_self_iff.mpr]
  intro c hc
  simpa using uuidUnparse_ne_zero msg.id c hc

theorem publishes_of_absent (h : ∀ text ∈ publishedTexts msg, text.2 = none)
    (hnil : (publishedTexts msg).flatMap textMember = []) (type : PublishedAs) (now : Int) :
    PublishesRightly msg type now := by
  obtain ⟨members, hmembers, hkeys⟩ := parseMembers_numberMembers msg now 999
  refine ⟨headMembers msg type ++ members, ?_, ?_, jsonGetString_id msg type members⟩
  · rw [jsonParse_msgToJson, hnil, nil_append, hmembers, Option.map_some]
  · intro key value hmem
    obtain rfl : value = none := h _ hmem
    obtain ⟨-, -, -, -, hnumbers⟩ := textKeys_spec key (mem_textKeys hmem)
    have hfind : jsonGet (.object members) key = none := by
      dsimp only [jsonGet]
      rw [List.find?_eq_none.mpr, Option.map_none]
      intro member hmember
      rw [hnumbers _ (hkeys member hmember)]
      exact Bool.false_ne_true
    rw [jsonGetString, jsonGet_headMembers (mem_textKeys hmem), hfind]

theorem not_publishes_of_present {value rest : Octstr}
    (hmem : (key, some value) ∈ publishedTexts msg)
    (htexts : (publishedTexts msg).flatMap textMember =
      jsonMember key (jsonEscapeString value) ++ 44 :: rest) (type : PublishedAs) (now : Int) :
    ¬ PublishesRightly msg type now := by
  rintro ⟨members, hparse, hfound, -⟩
  obtain ⟨hkey, -, -, hself, -⟩ := textKeys_spec key (mem_textKeys hmem)
  rw [jsonParse_msgToJson, htexts, append_assoc, cons_append] at hparse
  obtain ⟨⟨read, after⟩, hread, hobject⟩ := Option.map_eq_some_iff.mp hparse
  obtain ⟨item, others, rfl, hstring⟩ := parseMembers_text hkey hread
  have hget := hfound key (some value) hmem
  cases hobject
  rw [jsonGetString, jsonGet_headMembers (mem_textKeys hmem), jsonGet_object_cons, if_pos hself]
    at hget
  cases item with
  | string text => exact hstring text rfl
  | null | bool | number | array | object => cases hget

/-- **Published messages are read back** exactly if they have no sender, receiver, text and SMSC
id. -/
theorem msgToJson_publishes_iff (msg : Sms) (type : PublishedAs) (now : Int) :
    PublishesRightly msg type now ↔
      msg.sender = none ∧ msg.receiver = none ∧ msg.msgdata = none ∧ msg.smscId = none := by
  have habsent : (∀ text ∈ publishedTexts msg, text.2 = none) ↔
      msg.sender = none ∧ msg.receiver = none ∧ msg.msgdata = none ∧ msg.smscId = none := by
    simp [publishedTexts]
  rw [← habsent]
  rcases flatMap_textMember_cases (publishedTexts msg) with ⟨hnone, hnil⟩ |
    ⟨key, value, rest, hmem, htexts⟩
  · exact ⟨fun _ => hnone, fun _ => publishes_of_absent hnone hnil type now⟩
  · constructor
    · intro hrightly
      exact absurd hrightly (not_publishes_of_present hmem htexts type now)
    · intro hnone
      exact absurd (hnone _ hmem) (Option.some_ne_none value)

def helloMsg : Sms := { smsCreate uuidClear with msgdata := some (ascii "hello") }

/-- The word is published without quotes: the object is no JSON. -/
theorem helloMsg_not_published : jsonParse (msgToJson helloMsg .mo 0) = none ∧
    ¬ PublishesRightly helloMsg .mo 0 := by
  have hparse : (jsonParse (msgToJson helloMsg .mo 0)).isNone = true := by decide +kernel
  have hnone := Option.isNone_iff_eq_none.mp hparse
  refine ⟨hnone, ?_⟩
  rintro ⟨members, hmembers, -⟩
  cases hmembers

end Kannel
