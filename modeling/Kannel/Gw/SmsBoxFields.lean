import Kannel.Gwlib.HttpEntity
import Kannel.Gwlib.OctstrUrl
import Kannel.Gw.SmsBoxHandle

/-!
# The fields of a message in HTTP headers and XML documents

Fields are given in `X-Kannel-` headers, of which a later one wins, or in an XML document.
-/

namespace Kannel

structure XKannelFields extends SendsmsFields where
  user : Option Octstr := none
  pass : Option Octstr := none

def saturatedNumber (text : Octstr) : Option Int :=
  let signed := splitSign (text.dropWhile isspace)
  let digits := signed.2.takeWhile isdigit
  if digits = [] then none
  else some (max (-2 ^ 63) (min (2 ^ 63 - 1) (signed.1 * digitsValue 10 digits)))

def scanInt (val : Octstr) (n : Int) : Int :=
  ((saturatedNumber (octstrGetCstr (some val))).map toInt).getD n

def hexPairs : Octstr → Octstr
  | a :: b :: rest =>
    UInt8.ofNat ((digitValue a).getD 0 * 16 + (digitValue b).getD 0) :: hexPairs rest
  | _ => []

def octstrHexToBinary (ostr : Octstr) : Option Octstr :=
  if ostr.all (isDigitOf 16) then some (hexPairs ostr) else none

def httpHeaderGet (header : Octstr) : Octstr × Octstr :=
  match octstrSearchChar header 58 0 with
  | none => (ascii "X-Unknown", header)
  | some colon => (header.take colon, octstrStripBlanks (header.drop (colon + 1)))

def headerUdh (val : Octstr) : Option Octstr :=
  let udh := octstrStripBlanks val
  match octstrHexToBinary udh with
  | some binary => some binary
  | none =>
    let decoded := octstrUrlDecode udh
    if decoded.2 then some decoded.1 else none

def xKannelHeaders : List (String × (Octstr → XKannelFields → XKannelFields)) :=
  [("X-Kannel-From", fun val f => { f with sender := some (octstrStripBlanks val) }),
    ("X-Kannel-To", fun val f => { f with toNumbers := some (octstrStripBlanks val) }),
    ("X-Kannel-Username", fun val f => { f with user := some (octstrStripBlanks val) }),
    ("X-Kannel-Password", fun val f => { f with pass := some (octstrStripBlanks val) }),
    ("X-Kannel-SMSC", fun val f => { f with smsc := some (octstrStripBlanks val) }),
    ("X-Kannel-UDH", fun val f => { f with udh := headerUdh val }),
    ("X-Kannel-DLR-URL", fun val f => { f with dlrUrl := some (octstrStripBlanks val) }),
    ("X-Kannel-Account", fun val f => { f with account := some (octstrStripBlanks val) }),
    ("X-Kannel-BInfo", fun val f => { f with binfo := some (octstrStripBlanks val) }),
    ("X-Kannel-Coding", fun val f => { f with coding := scanInt val f.coding }),
    ("X-Kannel-PID", fun val f => { f with pid := scanInt val f.pid }),
    ("X-Kannel-MWI", fun val f => { f with mwi := scanInt val f.mwi }),
    ("X-Kannel-MClass", fun val f => { f with mclass := scanInt val f.mclass }),
    ("X-Kannel-Alt-DCS", fun val f => { f with altDcs := scanInt val f.altDcs }),
    ("X-Kannel-Compress", fun val f => { f with compress := scanInt val f.compress }),
    ("X-Kannel-Validity", fun val f => { f with validity := scanInt val f.validity }),
    ("X-Kannel-Deferred", fun val f => { f with deferred := scanInt val f.deferred }),
    ("X-Kannel-DLR-Mask", fun val f => { f with dlrMask := scanInt val f.dlrMask }),
    ("X-Kannel-RPI", fun val f => { f with rpi := scanInt val f.rpi }),
    ("X-Kannel-Priority", fun val f => { f with priority := scanInt val f.priority }),
    ("X-Kannel-Meta-Data", fun val f => { f with metaData := some (octstrStripBlanks val) })]

def applyHeader (f : XKannelFields) (header : Octstr) : XKannelFields :=
  let (name, val) := httpHeaderGet header
  match xKannelHeaders.find? fun entry => equalIgnoringCase name (ascii entry.1) with
  | some entry => entry.2 val f
  | none => f

def getXKannelFromHeaders (headers : List Octstr) (f : XKannelFields) : XKannelFields :=
  headers.foldl applyHeader f

def contentTypeCharset (params : Octstr) : Octstr :=
  let charset := octstrStripBlanks params
  match octstrSearchChar charset 61 0 with
  | none => []
  | some equals =>
    let charset := charset.drop (equals + 1)
    let charset := if charset.head? = some 34 then charset.drop 1 else charset
    if charset.getLast? = some 34 then charset.dropLast else charset

def httpHeaderGetContentType (headers : List Octstr) : Octstr × Octstr :=
  match httpHeaderFindFirst headers (ascii "Content-Type") with
  | none => (ascii "application/octet-stream", [])
  | some h =>
    let h := octstrStripBlanks h
    let (type, charset) :=
      match octstrSearchChar h 59 0 with
      | none => (h, [])
      | some semicolon =>
        (octstrStripBlanks (h.take semicolon), contentTypeCharset (h.drop (semicolon + 1)))
    if charset.length = 0 ∧ octstrNcompareEq type (ascii "text") 4 then
      (type, ascii "ISO-8859-1")
    else (type, charset)

def octstrSlice (ostr : Octstr) (start stop : Nat) : Octstr := (ostr.take stop).drop start

def xmlGetTag (xml : Octstr) (tag : String) : Option Octstr :=
  let openTag := ascii "<" ++ ascii tag ++ ascii ">"
  match octstrSearch xml openTag 0 with
  | none => none
  | some found =>
    let start := found + openTag.length
    match octstrSearch xml (ascii "</" ++ ascii tag ++ ascii ">") start with
    | none => none
    | some stop =>
      if stop > start then some (octstrStripBlanks (octstrSlice xml start stop)) else none

def xmlGetNumber (xml : Octstr) (tag : String) (default : Int) : Int :=
  match xmlGetTag xml tag with
  | none => default
  | some val => toInt ((saturatedNumber (octstrGetCstr (some val))).getD 0)

def quoted (xml : Octstr) (start : Nat) : Option Octstr :=
  match octstrGetChar xml start with
  | none => none
  | some quote =>
    if quote = 34 ∨ quote = 39 then
      some ((xml.drop (start + 1)).takeWhile (· ≠ quote))
    else none

def xmlGetAttr (xml : Octstr) (tag attr : String) : Option Octstr :=
  match octstrSearch xml (ascii "<" ++ ascii tag ++ ascii " ") 0 with
  | none => none
  | some tagStart =>
    match octstrSearch xml (ascii attr ++ ascii "=") tagStart with
    | none => none
    | some attrStart =>
      ((quoted xml (attrStart + attr.length + 1)).filter (· ≠ [])).map octstrStripBlanks

def xmlAllTagsLoop (xml openTag closeTag : Octstr) : Nat → Nat → List Octstr
  | 0, _ => []
  | rounds+1, pos =>
    match octstrSearch xml openTag pos with
    | none => []
    | some found =>
      let start := found + openTag.length
      match octstrSearch xml closeTag start with
      | none => []
      | some stop =>
        if stop > start then
          octstrStripBlanks (octstrSlice xml start stop) ::
            xmlAllTagsLoop xml openTag closeTag rounds (stop + closeTag.length)
        else []

def xmlGetAllTags (xml : Octstr) (tag : String) : List Octstr :=
  xmlAllTagsLoop xml (ascii "<" ++ ascii tag ++ ascii ">") (ascii "</" ++ ascii tag ++ ascii ">")
    (xml.length + 1) 0

def xmlGetEncoding (xml : Octstr) : Octstr :=
  match octstrSearch xml (ascii "encoding=") 0, octstrSearch xml (ascii "?>") 0 with
  | some start, some stop =>
    if start < stop then ((quoted xml (start + 9)).filter (· ≠ [])).getD (ascii "UTF-8")
    else ascii "UTF-8"
  | _, _ => ascii "UTF-8"

def xmlFromBlock (push : Bool) (submit : Octstr) (f : XKannelFields) : XKannelFields :=
  match xmlGetTag submit "from" with
  | none => f
  | some block =>
    let f := if push then
        { f with
          user := (xmlGetTag block "user").or (xmlGetTag block "username")
          pass := (xmlGetTag block "pass").or (xmlGetTag block "password") }
      else f
    { f with account := xmlGetTag block "account", binfo := xmlGetTag block "binfo" }

def xmlDaBlock (push : Bool) (submit : Octstr) (f : XKannelFields) : Except Failure XKannelFields :=
  match xmlGetTag submit "da" with
  | none => .ok f
  | some block =>
    let numbers := xmlGetAllTags block "number"
    if numbers = [] then .ok f
    else if push then .ok { f with receiver := some numbers }
    else .error .outside

def xmlUdh (submit : Octstr) : Option Octstr :=
  (xmlGetTag submit "udh").map fun udh => (octstrHexToBinary udh).getD (octstrUrlDecode udh).1

def xmlDcsBlock (submit : Octstr) (f : XKannelFields) : XKannelFields :=
  match xmlGetTag submit "dcs" with
  | none => f
  | some block =>
    { f with
      mclass := xmlGetNumber block "mclass" f.mclass
      mwi := xmlGetNumber block "mwi" f.mwi
      coding := xmlGetNumber block "coding" f.coding
      compress := xmlGetNumber block "compress" f.compress
      altDcs := xmlGetNumber block "alt-dcs" f.altDcs }

def xmlStatusBlock (submit : Octstr) (f : XKannelFields) : XKannelFields :=
  match xmlGetTag submit "statusrequest" with
  | none => f
  | some block =>
    { f with
      dlrMask := xmlGetNumber block "dlr-mask" f.dlrMask
      dlrUrl := xmlGetTag block "dlr-url" }

def xmlDelay (submit : Octstr) (tag : String) (default : Int) : Int :=
  match xmlGetTag submit tag with
  | none => default
  | some block => xmlGetNumber block "delay" default

def xmlText (submit : Octstr) : Octstr :=
  match xmlGetTag submit "ud" with
  | none => []
  | some text =>
    if (xmlGetAttr submit "ud" "type").any (equalIgnoringCase · (ascii "binary")) then
      (octstrHexToBinary text).getD text
    else (octstrUrlDecode text).1

def getXKannelFromXml (push : Bool) (body : Octstr) (f : XKannelFields) :
    Except Failure XKannelFields :=
  match xmlGetTag body "submit" with
  | none => .ok { f with text := some body }
  | some submit => do
    let f := xmlFromBlock push submit f
    let f := match xmlGetTag submit "oa" with
      | none => f
      | some oa => { f with sender := xmlGetTag oa "number" }
    let f ← xmlDaBlock push submit f
    let f := { f with
      udh := xmlUdh submit
      smsc := (xmlGetTag submit "smsc").or (xmlGetTag submit "to")
      pid := xmlGetNumber submit "pid" f.pid
      rpi := xmlGetNumber submit "rpi" f.rpi }
    let f := xmlStatusBlock submit (xmlDcsBlock submit f)
    return { f with
      validity := xmlDelay submit "vp" f.validity
      deferred := xmlDelay submit "timing" f.deferred
      priority := xmlGetNumber submit "priority" f.priority
      metaData := xmlGetTag submit "meta-data"
      charset := some (xmlGetEncoding body)
      text := some (xmlText submit) }

end Kannel
