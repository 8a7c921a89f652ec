import Kannel.Gwlib.Json
import Kannel.Gw.SmsBoxFields

/-!
# Posted sendsms requests

`smsbox_sendsms_post` takes fields and credentials from the headers, an XML document or a JSON
object, whose text is the whole body if it has none.
-/

namespace Kannel

structure PostConf extends HandleConf where
  translations : List UrlTranslation := []

structure PostEnv extends HandleEnv where
  htmlToSms : Octstr → Octstr

structure PostRequest where
  headers : List Octstr
  body : Octstr
  clientIp : Option Octstr

def urltransFindUsername (name : Octstr) : List UrlTranslation →
    Except Failure (Option UrlTranslation)
  | [] => .ok none
  | t :: list =>
    if t.type = .sendsms then
      match t.username with
      | none => .error .assertion
      | some username =>
        if name = username then .ok (some t) else urltransFindUsername name list
    else urltransFindUsername name list

def urltransFindToken (list : List UrlTranslation) (token : Octstr) : Option UrlTranslation :=
  list.find? fun t => t.type = .sendsms ∧ t.apiToken = some token

def authoriseUsername (list : List UrlTranslation) (username password clientIp : Option Octstr) :
    Except Failure (Option UrlTranslation) :=
  match username, password with
  | some username, some password => do
    match ← urltransFindUsername username list with
    | none => return none
    | some t =>
      match t.password with
      | none => .error .assertion
      | some expected =>
        return if password = expected ∧ isAllowedIp t.allowIp t.denyIp clientIp then some t
          else none
  | _, _ => .ok none

def httpHeaderValue (name : Octstr) : List Octstr → Option Octstr
  | [] => none
  | header :: headers =>
    match octstrSearchChar header 58 0 with
    | none => none
    | some colon =>
      if equalIgnoringCase (header.take colon) name then
        some (octstrStripBlanks (header.drop (colon + 1)))
      else httpHeaderValue name headers

def authoriseApiToken (list : List UrlTranslation) (headers : List Octstr)
    (clientIp : Option Octstr) : Option UrlTranslation :=
  match httpHeaderValue (ascii "X-API-Key") headers with
  | none => none
  | some token =>
    (urltransFindToken list (octstrStripBlanks token)).filter fun t =>
      isAllowedIp t.allowIp t.denyIp clientIp

def getXKannelFromJson (body : Octstr) (f : XKannelFields) : XKannelFields :=
  match jsonParse body with
  | some (.object members) =>
    let string := jsonGetString (.object members)
    let integer (key : String) := jsonGetInteger (.object members) key smsParamUndefined
    { f with
      sender := string "from"
      toNumbers := string "to"
      text := string "text"
      udh := (string "udh").bind octstrHexToBinary
      smsc := string "smsc"
      charset := string "charset"
      account := string "account"
      binfo := string "binfo"
      dlrUrl := string "dlr-url"
      metaData := string "meta-data"
      user := string "username"
      pass := string "password"
      dlrMask := integer "dlr-mask"
      mclass := integer "mclass"
      mwi := integer "mwi"
      coding := integer "coding"
      compress := integer "compress"
      validity := integer "validity"
      deferred := integer "deferred"
      pid := integer "pid"
      altDcs := integer "alt-dcs"
      rpi := integer "rpi"
      priority := integer "priority" }
  | _ => f

inductive PostKind
  | html | plain | octets | xml | json | invalid
  deriving DecidableEq, Repr

def postKind (type : Octstr) : PostKind :=
  if equalIgnoringCase type (ascii "text/html") ∨
      equalIgnoringCase type (ascii "text/vnd.wap.wml") then .html
  else if equalIgnoringCase type (ascii "text/plain") then .plain
  else if equalIgnoringCase type (ascii "application/octet-stream") then .octets
  else if equalIgnoringCase type (ascii "text/xml") then .xml
  else if equalIgnoringCase type (ascii "application/json") then .json
  else .invalid

def PostRequest.kind (request : PostRequest) : PostKind :=
  postKind (httpHeaderGetContentType request.headers).1

def postFields (env : PostEnv) (request : PostRequest) : Except Failure XKannelFields :=
  let f : XKannelFields := { charset := some (httpHeaderGetContentType request.headers).2 }
  match request.kind with
  | .html =>
    .ok (getXKannelFromHeaders request.headers
      { f with text := some (octstrStripBlanks (env.htmlToSms request.body)) })
  | .plain | .octets =>
    .ok (getXKannelFromHeaders request.headers { f with text := some request.body })
  | .xml => getXKannelFromXml true request.body f
  | .json =>
    let f := getXKannelFromJson request.body f
    .ok { f with text := some (f.text.getD request.body) }
  | .invalid => .ok f

def PostRequest.defaultCoding (request : PostRequest) : Option Int :=
  match request.kind with
  | .octets => some dc8bit
  | .plain | .json => some dc7bit
  | .xml => if (xmlGetTag request.body "submit").isSome then some dc7bit else none
  | .html | .invalid => none

def httpForbidden : Int := 403

def httpUnsupportedMediaType : Int := 415

def postError (request : PostRequest) (status : Int) (jsonText plainText : String) : Handled where
  status := status
  answer :=
    if request.kind = .json then ascii "\x7b\"error\":\"" ++ ascii jsonText ++ ascii "\"\x7d"
    else ascii plainText
  stored := none
  written := []

def jsonAnswer (handled : Handled) : Octstr :=
  if handled.status = httpAccepted then
    ascii "\x7b\"status\":0,\"message\":\"" ++
      jsonEscapeString (octstrGetCstr (some handled.answer)) ++ ascii "\"\x7d"
  else ascii "\x7b\"error\":\"" ++ handled.answer ++ ascii "\"\x7d"

def postUser (conf : PostConf) (request : PostRequest) (f : XKannelFields) :
    Except Failure (Option UrlTranslation) :=
  match authoriseApiToken conf.translations request.headers request.clientIp with
  | some t => .ok (some t)
  | none => authoriseUsername conf.translations f.user f.pass request.clientIp

def withCoding (f : XKannelFields) (coding : Int) : SendsmsFields :=
  { f.toSendsmsFields with coding := if f.coding = smsParamUndefined then coding else f.coding }

def postFor (conf : PostConf) (env : PostEnv) (counter : Nat) (request : PostRequest)
    (f : XKannelFields) (t : UrlTranslation) : Except Failure Handled :=
  if f.toNumbers = none ∧ f.receiver = none then
    .ok (postError request httpBadRequest "Missing receiver number"
      "Missing receiver(s) number(s), rejected")
  else if f.toNumbers = some [] then
    .ok (postError request httpBadRequest "Empty receiver number"
      "Empty receiver number not allowed, rejected")
  else match request.defaultCoding with
    | none =>
      .ok (postError request httpUnsupportedMediaType "Unsupported content-type"
        "Unsupported content-type, rejected")
    | some coding => do
      let handled ← smsboxReqHandle conf.toHandleConf env.toHandleEnv t counter
        (withCoding f coding)
      return if request.kind = .json then { handled with answer := jsonAnswer handled }
        else handled

def smsboxSendsmsPost (conf : PostConf) (env : PostEnv) (counter : Nat) (request : PostRequest) :
    Except Failure Handled :=
  if request.kind = .invalid then
    .ok ⟨httpBadRequest, ascii "Invalid content-type", none, []⟩
  else do
    let f ← postFields env request
    match ← postUser conf request f with
    | none =>
      return postError request httpForbidden "Authorization failed"
        "Authorization failed for sendsms"
    | some t => postFor conf env counter request f t

def secretKeys : List String := ["username", "password"]

def publicKeys : List String :=
  ["from", "to", "text", "udh", "smsc", "charset", "account", "binfo", "dlr-url", "meta-data",
    "dlr-mask", "mclass", "mwi", "coding", "compress", "validity", "deferred", "pid", "alt-dcs",
    "rpi", "priority"]

theorem publicKeys_ne_secret : ∀ key ∈ publicKeys, ∀ secret ∈ secretKeys,
    equalIgnoringCase (ascii secret) (ascii key) = false := by
  decide

def isCredential (name : Octstr) : Bool :=
  secretKeys.any fun secret => equalIgnoringCase (ascii secret) (octstrGetCstr (some name))

def SameMember (member₁ member₂ : Octstr × Json) : Prop :=
  member₁.1 = member₂.1 ∧ (isCredential member₁.1 = false → member₁.2 = member₂.2)

structure SameButCredentials (request₁ request₂ : PostRequest) : Prop where
  headers : request₁.headers = request₂.headers
  clientIp : request₁.clientIp = request₂.clientIp
  members : ∃ members₁ members₂, jsonParse request₁.body = some (.object members₁) ∧
    jsonParse request₂.body = some (.object members₂) ∧ List.Forall₂ SameMember members₁ members₂

structure AcceptedFor (conf : PostConf) (env : PostEnv) (counter : Nat) (request : PostRequest)
    (t : UrlTranslation) (handled : Handled) : Prop where
  json : request.kind = .json
  user : (postFields env request >>= postUser conf request) = .ok (some t)
  handles : smsboxSendsmsPost conf env counter request = .ok handled
  accepted : handled.status = httpAccepted

def PostRequest.jsonArguments (request : PostRequest) : SendsmsFields :=
  withCoding (getXKannelFromJson request.body
    { charset := some (httpHeaderGetContentType request.headers).2 }) dc7bit

def writesForText (conf : PostConf) (env : PostEnv) (t : UrlTranslation) (counter : Nat)
    (r : SendsmsFields) (text : Octstr) : Except Failure (List Sms) :=
  (smsboxReqHandle conf.toHandleConf env.toHandleEnv t counter { r with text := some text }).map
    Handled.written

theorem jsonGet_same {members₁ members₂ : List (Octstr × Json)}
    (hsame : List.Forall₂ SameMember members₁ members₂) {key : String} (hkey : key ∈ publicKeys) :
    jsonGet (.object members₁) key = jsonGet (.object members₂) key := by
  unfold jsonGet
  dsimp only
  induction hsame with
  | nil => rfl
  | @cons member₁ member₂ members₁ members₂ hmember _ ih =>
    obtain ⟨hname, hvalue⟩ := hmember
    rw [List.find?_cons, List.find?_cons, ← hname]
    cases hfound : equalIgnoringCase (ascii key) (octstrGetCstr (some member₁.1)) with
    | false => exact ih
    | true =>
      have hlower : (ascii key).map tolower = (octstrGetCstr (some member₁.1)).map tolower :=
        of_decide_eq_true hfound
      have hplain : isCredential member₁.1 = false := by
        refine List.any_eq_false.mpr fun secret hsecret => ?_
        rw [equalIgnoringCase, ← hlower]
        exact Bool.eq_false_iff.mp (publicKeys_ne_secret key hkey secret hsecret)
      simp only [Option.map_some, hvalue hplain]

theorem jsonArguments_same {request₁ request₂ : PostRequest}
    (hsame : SameButCredentials request₁ request₂) :
    request₁.jsonArguments = request₂.jsonArguments := by
  obtain ⟨members₁, members₂, hparse₁, hparse₂, hmembers⟩ := hsame.members
  have hstring : ∀ key ∈ publicKeys,
      jsonGetString (.object members₁) key = jsonGetString (.object members₂) key := by
    intro key hkey
    rw [jsonGetString, jsonGet_same hmembers hkey, jsonGetString]
  have hinteger : ∀ key ∈ publicKeys, ∀ default,
      jsonGetInteger (.object members₁) key default =
        jsonGetInteger (.object members₂) key default := by
    intro key hkey default
    rw [jsonGetInteger, jsonGet_same hmembers hkey, jsonGetInteger]
  unfold PostRequest.jsonArguments getXKannelFromJson withCoding
  rw [hparse₁, hparse₂]
  simp (disch := decide) only [hstring, hinteger]

variable {t : UrlTranslation} {handled : Handled} {request : PostRequest}

theorem postFor_accepted {conf : PostConf} {env : PostEnv} {counter : Nat} {f : XKannelFields}
    (hjson : request.kind = .json) (haccepted : handled.status = httpAccepted)
    (h : postFor conf env counter request f t = .ok handled) :
    (smsboxReqHandle conf.toHandleConf env.toHandleEnv t counter (withCoding f dc7bit)).map
      Handled.written = .ok handled.written := by
  unfold postFor at h
  split_ifs at h
  iterate 2
    cases h
    exact absurd haccepted (by decide : httpBadRequest ≠ httpAccepted)
  · have hcoding : request.defaultCoding = some dc7bit := by
      rw [PostRequest.defaultCoding, hjson]
    rw [hcoding] at h
    obtain ⟨answered, hanswered, h⟩ := bind_eq_ok_iff.mp h
    cases h
    rw [hanswered]
    rfl

theorem AcceptedFor.writes {conf : PostConf} {env : PostEnv} {counter : Nat}
    (h : AcceptedFor conf env counter request t handled) :
    writesForText conf env t counter request.jsonArguments
      (request.jsonArguments.text.getD request.body) = .ok handled.written := by
  have hvalid : request.kind ≠ .invalid := by
    rw [h.json]
    decide
  obtain ⟨f, hf, huser⟩ := bind_eq_ok_iff.mp h.user
  have hpost := h.handles
  rw [smsboxSendsmsPost, if_neg hvalid, hf, ok_bind, huser] at hpost
  have hwritten := postFor_accepted h.json h.accepted hpost
  rw [postFields, h.json, Except.ok.injEq] at hf
  subst hf
  exact hwritten

theorem text_jsonArguments {json : Json} {text : Octstr}
    (hparse : jsonParse request.body = some json)
    (htext : jsonGetString json "text" = some text) : request.jsonArguments.text = some text := by
  have hobject : ∃ members, json = .object members := by
    cases json with
    | object members => exact ⟨members, rfl⟩
    | _ => cases htext
  obtain ⟨members, rfl⟩ := hobject
  rw [PostRequest.jsonArguments, getXKannelFromJson, hparse]
  exact htext

/-- **Credentials stay out of the messages** of JSON requests that have a text: requests that
differ only in their credentials, and are accepted for one user, come to the same messages. -/
theorem credentials_ignored {conf : PostConf} {env : PostEnv} {counter : Nat}
    {request₁ request₂ : PostRequest} {t : UrlTranslation} {handled₁ handled₂ : Handled}
    (hsame : SameButCredentials request₁ request₂)
    (h₁ : AcceptedFor conf env counter request₁ t handled₁)
    (h₂ : AcceptedFor conf env counter request₂ t handled₂)
    (htext : ∃ json text, jsonParse request₁.body = some json ∧
      jsonGetString json "text" = some text) :
    handled₁.written = handled₂.written := by
  obtain ⟨json, text, hparse, hget⟩ := htext
  have hwrites₁ := h₁.writes
  have hwrites₂ := h₂.writes
  -- with a text the body itself is not looked at any more
  rw [← jsonArguments_same hsame, text_jsonArguments hparse hget] at hwrites₂
  rw [text_jsonArguments hparse hget] at hwrites₁
  exact Except.ok.inj (hwrites₁.symm.trans hwrites₂)

theorem mem_of_authoriseApiToken {list : List UrlTranslation} {headers : List Octstr}
    {clientIp : Option Octstr} (h : authoriseApiToken list headers clientIp = some t) :
    t ∈ list := by
  unfold authoriseApiToken at h
  split at h
  · cases h
  · exact List.mem_of_find?_eq_some (Option.filter_eq_some_iff.mp h).1

def tokenUser : UrlTranslation :=
  { type := .sendsms, username := some (ascii "u"), password := some (ascii "p"),
    apiToken := some (ascii "k") }

def tokenConf : PostConf := { translations := [tokenUser] }

def tokenEnv : PostEnv := { plainEnv with htmlToSms := id }

def tokenHeaders : List Octstr :=
  [ascii "Content-Type: application/json", ascii "X-API-Key: k"]

def tokenRequest (body : String) : PostRequest :=
  ⟨tokenHeaders, ascii body, some (ascii "127.0.0.1")⟩

theorem tokenRequest_accepted (body : String) (p : Handled → Prop)
    (h : ∃ handled, smsboxSendsmsPost tokenConf tokenEnv 0 (tokenRequest body) = .ok handled ∧
      handled.status = httpAccepted ∧ p handled) :
    ∃ handled, AcceptedFor tokenConf tokenEnv 0 (tokenRequest body) tokenUser handled ∧
      p handled := by
  have hjson : (tokenRequest body).kind = .json := by
    show postKind (httpHeaderGetContentType tokenHeaders).1 = .json
    decide +kernel
  have htoken : (authoriseApiToken tokenConf.translations tokenHeaders
      (some (ascii "127.0.0.1"))).isSome = true := by
    decide +kernel
  obtain ⟨t, ht⟩ := Option.isSome_iff_exists.mp htoken
  obtain rfl := List.mem_singleton.mp (mem_of_authoriseApiToken ht)
  obtain ⟨handled, hhandles, haccepted, hp⟩ := h
  refine ⟨handled, ⟨hjson, ?_, hhandles, haccepted⟩, hp⟩
  rw [postFields, hjson]
  rw [ok_bind, postUser, tokenRequest, ht]

theorem tokenRequest_same {body₁ body₂ : String} (name value₁ value₂ : Octstr)
    (others : List (Octstr × Octstr)) (hname : isCredential name = true)
    (h₁ : (jsonParse (ascii body₁)).bind Json.stringMembers = some ((name, value₁) :: others))
    (h₂ : (jsonParse (ascii body₂)).bind Json.stringMembers = some ((name, value₂) :: others)) :
    SameButCredentials (tokenRequest body₁) (tokenRequest body₂) := by
  obtain ⟨json₁, hparse₁, hmembers₁⟩ := Option.bind_eq_some_iff.mp h₁
  obtain ⟨json₂, hparse₂, hmembers₂⟩ := Option.bind_eq_some_iff.mp h₂
  rw [Json.eq_of_stringMembers hmembers₁] at hparse₁
  rw [Json.eq_of_stringMembers hmembers₂] at hparse₂
  refine ⟨rfl, rfl, _, _, hparse₁, hparse₂, .cons ⟨rfl, fun hplain => ?_⟩ ?_⟩
  · exact absurd hname (Bool.eq_false_iff.mp hplain)
  · exact List.forall₂_same.mpr fun member _ => ⟨rfl, fun _ => rfl⟩

def bodyWithText (username : String) : String :=
  "\x7b\"username\":\"" ++ username ++ "\",\"from\":\"5\",\"to\":\"1\",\"text\":\"hi\"\x7d"

def bodyWithoutText (username : String) : String :=
  "\x7b\"username\":\"" ++ username ++ "\",\"from\":\"5\",\"to\":\"1\"\x7d"

theorem textGiven_same_messages :
    ∃ handled₁ handled₂,
      smsboxSendsmsPost tokenConf tokenEnv 0 (tokenRequest (bodyWithText "a")) = .ok handled₁ ∧
      smsboxSendsmsPost tokenConf tokenEnv 0 (tokenRequest (bodyWithText "b")) = .ok handled₂ ∧
      handled₁.written.length = 1 ∧ handled₁.written = handled₂.written := by
  obtain ⟨handled₁, h₁, hlength⟩ := tokenRequest_accepted (bodyWithText "a")
    (fun handled => handled.written.length = 1) (by decide +kernel)
  obtain ⟨handled₂, h₂, -⟩ := tokenRequest_accepted (bodyWithText "b") (fun _ => True)
    (by decide +kernel)
  have hsame : SameButCredentials (tokenRequest (bodyWithText "a"))
      (tokenRequest (bodyWithText "b")) :=
    tokenRequest_same (ascii "username") (ascii "a") (ascii "b")
      [(ascii "from", ascii "5"), (ascii "to", ascii "1"), (ascii "text", ascii "hi")]
      (by decide +kernel) (by decide +kernel) (by decide +kernel)
  refine ⟨handled₁, handled₂, h₁.handles, h₂.handles, hlength, ?_⟩
  have htext : ∃ json text, jsonParse (tokenRequest (bodyWithText "a")).body = some json ∧
      jsonGetString json "text" = some text := by
    obtain ⟨text, hget⟩ : ∃ text, (jsonParse (ascii (bodyWithText "a"))).bind
        (jsonGetString · "text") = some text := ⟨ascii "hi", by decide +kernel⟩
    obtain ⟨json, hparse, hjson⟩ := Option.bind_eq_some_iff.mp hget
    exact ⟨json, text, hparse, hjson⟩
  exact credentials_ignored hsame h₁ h₂ htext

/-- Without a text the body goes out as the text, and with it the credentials. -/
theorem missingText_discloses :
    SameButCredentials (tokenRequest (bodyWithoutText "a")) (tokenRequest (bodyWithoutText "b")) ∧
      (∃ handled, AcceptedFor tokenConf tokenEnv 0 (tokenRequest (bodyWithoutText "a"))
        tokenUser handled ∧
        handled.written.map Sms.msgdata = [some (ascii (bodyWithoutText "a"))]) ∧
      (∃ handled, AcceptedFor tokenConf tokenEnv 0 (tokenRequest (bodyWithoutText "b"))
        tokenUser handled ∧
        handled.written.map Sms.msgdata = [some (ascii (bodyWithoutText "b"))]) ∧
      ascii (bodyWithoutText "a") ≠ ascii (bodyWithoutText "b") := by
  have hsame : SameButCredentials (tokenRequest (bodyWithoutText "a"))
      (tokenRequest (bodyWithoutText "b")) :=
    tokenRequest_same (ascii "username") (ascii "a") (ascii "b")
      [(ascii "from", ascii "5"), (ascii "to", ascii "1")]
      (by decide +kernel) (by decide +kernel) (by decide +kernel)
  exact ⟨hsame, tokenRequest_accepted _ _ (by decide +kernel),
    tokenRequest_accepted _ _ (by decide +kernel), by decide +kernel⟩

end Kannel
