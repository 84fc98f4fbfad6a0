import Counselle.Base64
import Counselle.CompactJson
import Counselle.PyJsonText

/-! `app/tool_overflow.py`: a tool result that is too long goes into a store, and what stands
for it names its handle. A write's stand-in keeps the receipt and is cut to a budget. -/
namespace Counselle.Overflow
open CompactJson (quote bytes)
open PyJson (PyFloat JsonValue)

abbrev Members := List (String × JsonValue)

inductive Payload where
  | json (value : JsonValue)
  | binary (data : List UInt8)

/-- How a float is written; the text has no control characters. -/
structure FloatText where
  text : PyFloat → List Char
  visible : ∀ x, ∀ c ∈ text x, 32 ≤ c.toNat

/-- `",".join(parts)` -/
def joined : List (List Char) → List Char
  | [] => []
  | [part] => part
  | part :: next :: rest => part ++ ',' :: joined (next :: rest)

section ToJson
variable (floats : FloatText)

mutual
def toJson : JsonValue → List Char
  | .null => ['n', 'u', 'l', 'l']
  | .bool true => ['t', 'r', 'u', 'e']
  | .bool false => ['f', 'a', 'l', 's', 'e']
  | .int n => PyJson.intRepr n
  | .float x => floats.text x
  | .str s => quote s
  | .list items => '[' :: (joined (toJsonItems items) ++ [']'])
  | .dict members => '{' :: (joined (toJsonMembers members) ++ ['}'])

def toJsonItems : List JsonValue → List (List Char)
  | [] => []
  | item :: rest => toJson item :: toJsonItems rest

def toJsonMembers : List (String × JsonValue) → List (List Char)
  | [] => []
  | (key, value) :: rest => (quote key ++ ':' :: toJson value) :: toJsonMembers rest
end

/-- `len(to_bytes(value))` of JSON. -/
def size (value : JsonValue) : Nat := bytes (toJson floats value)

end ToJson

def escapeChar : Char := Char.ofNat 27

/-- `_ANSI_ESCAPE_RE` at the start of a text, with what is behind it. -/
def ansiEscape : List Char → Option (List Char)
  | first :: '[' :: rest =>
    if first = escapeChar then
      match rest.dropWhile fun c => c.isDigit || c == ';' with
      | c :: behind => if c.isAlpha then some behind else none
      | [] => none
    else none
  | first :: ']' :: rest =>
    if first = escapeChar then
      match rest.dropWhile fun c => c.toNat != 7 && c != '\n' with
      | c :: behind => if c.toNat = 7 then some behind else none
      | [] => none
    else none
  | first :: c :: rest => if first = escapeChar ∧ c ≠ '(' ∧ c ≠ ')' then some rest else none
  | _ => none

/-- The substitution of the escapes, at most as many as there are characters. -/
def stripFrom : Nat → List Char → List Char
  | 0, text => text
  | fuel + 1, text =>
    match ansiEscape text with
    | some behind => stripFrom fuel behind
    | none =>
      match text with
      | [] => []
      | c :: rest => c :: stripFrom fuel rest

def stripAnsi (text : List Char) : List Char := stripFrom text.length text

/-- `f"{n:,}"`: the last digits stand first. -/
def groupedFrom : List Char → List Char
  | a :: b :: c :: d :: rest => a :: b :: c :: ',' :: groupedFrom (d :: rest)
  | digits => digits

def grouped (n : Nat) : String := String.ofList (groupedFrom (toString n).toList.reverse).reverse

inductive TruncationStrategy where
  | head | tail | headTail
  deriving DecidableEq

/-- `text[-n:]` -/
def lastChars (n : Nat) (text : List Char) : List Char :=
  if n = 0 then text else text.drop (text.length - n)

def truncateText (text : List Char) (maxChars : Nat) (strategy : TruncationStrategy) : List Char :=
  let total := text.length
  if total ≤ maxChars then text
  else match strategy with
  | .head => text.take maxChars ++ ("\n\n[truncated: showing first " ++ grouped maxChars ++ " of " ++
      grouped total ++ " chars]").toList
  | .tail => ("[truncated: showing last " ++ grouped maxChars ++ " of " ++ grouped total ++
      " chars]\n\n").toList ++ lastChars maxChars text
  | .headTail =>
    let headChars := maxChars * 2 / 5
    let tailChars := maxChars - headChars
    let omitted := total - headChars - tailChars
    text.take headChars ++ ("\n\n[truncated: " ++ grouped omitted ++
      " chars omitted from the middle; showing first " ++ grouped headChars ++ " + last " ++
      grouped tailChars ++ " of " ++ grouped total ++ " chars]\n\n").toList ++ lastChars tailChars text

/-- `type(value).__name__` -/
def typeName : JsonValue → String
  | .null => "NoneType"
  | .bool _ => "bool"
  | .int _ => "int"
  | .float _ => "float"
  | .str _ => "str"
  | .list _ => "list"
  | .dict _ => "dict"

-- `repr` is Python's of a text.
variable (repr : String → String)

def sketchMapping (members : Members) : String :=
  let shown := ", ".intercalate ((members.take 10).map fun (key, value) => repr key ++ ": " ++ typeName value)
  let more := if members.length ≤ 10 then "" else ", ... (" ++ toString members.length ++ " keys)"
  "\x7b" ++ shown ++ more ++ "\x7d"

def sketchSequence (items : List JsonValue) : String :=
  "[" ++ toString items.length ++ " items of " ++ (match items with
    | item :: _ => typeName item
    | [] => "empty") ++ "]"

def jsonSketch : Payload → String
  | .json (.dict members) => sketchMapping repr members
  | .json (.list items) => sketchSequence items
  | _ => ""

/-- `receipt[key] = value` -/
def setKey (key : String) (value : JsonValue) (receipt : Members) : Members :=
  Upsert.upsert (fun entry => entry.1 == key) (fun _ => (key, value)) (key, value) receipt

/-- `candidate not in (None, [], "")` -/
def given : Option JsonValue → Option JsonValue
  | none | some .null | some (.list []) => none
  | some (.str s) => if s = "" then none else some (.str s)
  | some value => some value

/-- `tool_ui_from_payload` and the dump of the model. -/
def toolUi : Option JsonValue → Option JsonValue
  | some (.dict ui) =>
    match ui.lookup "widget", ui.lookup "data" with
    | some (.str widget), some (.dict data) =>
      if PyText.strip widget.toList = [] then none
      else some (.dict [("widget", .str widget), ("data", .dict data)])
    | _, _ => none
  | _ => none

def copyText (value receipt : Members) (key : String) : Members :=
  match value.lookup key with
  | some (.str s) => if s = "" then receipt else setKey key (.str s) receipt
  | _ => receipt

def copyGiven (existing receipt : Members) (key : String) : Members :=
  match given (existing.lookup key) with
  | some candidate => setKey key candidate receipt
  | none => receipt

def copyUi (existing receipt : Members) : Members :=
  match toolUi (existing.lookup "ui") with
  | some ui => setKey "ui" ui receipt
  | none => receipt

def copyMutation (existing receipt : Members) : Members :=
  match existing.lookup "mutation" with
  | some (.dict mutation) => setKey "mutation" (.dict mutation) receipt
  | _ => receipt

def existingKeys : List String :=
  ["value_count", "schools", "domain_id", "status", "summary", "result_count", "workspace_items"]

def copyExisting (value receipt : Members) : Members :=
  match value.lookup "public_receipt" with
  | some (.dict existing) => copyMutation existing (existingKeys.foldl (copyGiven existing) (copyUi existing receipt))
  | _ => receipt

def copySchool (value receipt : Members) : Members :=
  match receipt.lookup "schools", value.lookup "school" with
  | none, some (.dict school) =>
    match school.lookup "name" with
    | some (.str name) => if name = "" then receipt else setKey "schools" (.list [.str name]) receipt
    | _ => receipt
  | _, _ => receipt

/-- A Boolean is an `int`. -/
def copyAvailability (value receipt : Members) : Members :=
  match receipt.lookup "value_count", value.lookup "availability" with
  | none, some (.dict availability) =>
    match availability.lookup "available" with
    | some (.int n) => setKey "value_count" (.int n) receipt
    | some (.bool b) => setKey "value_count" (.bool b) receipt
    | _ => receipt
  | _, _ => receipt

def sourceResult : JsonValue → Option (String × JsonValue)
  | .dict result =>
    match result.lookup "url" with
    | some (.str url) =>
      if "http://".toList.isPrefixOf url.toList || "https://".toList.isPrefixOf url.toList then
        some (url, .dict (("url", .str url) :: match result.lookup "title" with
          | some (.str title) =>
            let stripped := PyText.strip title.toList
            if stripped = [] then [] else [("title", .str (String.ofList stripped))]
          | _ => []))
      else none
    | _ => none
  | _ => none

/-- `_source_results`: the first item of each link. -/
def sourceResults (seen : List String) : List JsonValue → List JsonValue
  | [] => []
  | result :: rest =>
    match sourceResult result with
    | none => sourceResults seen rest
    | some (url, item) =>
      if url ∈ seen then sourceResults seen rest else item :: sourceResults (url :: seen) rest

def copyResults (value receipt : Members) : Members :=
  match value.lookup "results" with
  | some (.list results) =>
    let receipt := setKey "result_count" (.int results.length) receipt
    match sourceResults [] results with
    | [] => receipt
    | sources => setKey "source_results" (.list sources) receipt
  | _ => receipt

def nameOf : JsonValue → Option JsonValue
  | .dict row =>
    match row.lookup "name" with
    | some (.str name) => some (.str name)
    | _ => none
  | _ => none

def copyCandidates (value receipt : Members) : Members :=
  match value.lookup "candidates" with
  | some (.list candidates) =>
    let receipt := setKey "result_count" (.int candidates.length) receipt
    match candidates.filterMap nameOf with
    | [] => receipt
    | schools => setKey "schools" (.list schools) receipt
  | _ => receipt

def copyRows (value receipt : Members) : Members :=
  match value.lookup "rows" with
  | some (.list rows) => setKey "row_count" (.int rows.length) receipt
  | _ => receipt

/-- `val not in (None, [])` -/
def isFilled : JsonValue → Bool
  | .null | .list [] => false
  | _ => true

/-- `_public_receipt` of a mapping. -/
def mappingReceipt (value : Members) : Members :=
  copyRows value (copyCandidates value (copyResults value (copyAvailability value (copySchool value
    (copyExisting value (["status", "domain_id"].foldl (copyText value) []))))))

def publicReceipt : Payload → Members
  | .json (.dict value) => (mappingReceipt value).filter fun entry => isFilled entry.2
  | .json (.list items) => [("row_count", .int items.length)]
  | _ => []

/-- `uuid4().hex` -/
structure Uuid where
  hex : List Char
  length_eq : hex.length = 32
  digits : ∀ c ∈ hex, c ∈ "0123456789abcdef".toList

def handleOf (uuid : Uuid) : String := "tool-result-" ++ String.ofList uuid.hex

structure ToolResultStore where
  payloads : List (String × Payload)

/-- The loop draws until the handle is new; `none` when the draws do not come to a new one. -/
def freshHandle (keys : List String) : List Uuid → Option String
  | [] => none
  | uuid :: draws => if handleOf uuid ∈ keys then freshHandle keys draws else some (handleOf uuid)

def ToolResultStore.put (store : ToolResultStore) (draws : List Uuid) (payload : Payload) :
    Option (String × ToolResultStore) :=
  (freshHandle (store.payloads.map Prod.fst) draws).map fun handle =>
    (handle, ⟨store.payloads ++ [(handle, payload)]⟩)

def missingHandle : Payload :=
  .json (.dict [("error", .str "No spilled tool result exists for that handle."),
    ("safe_retry", .str "Use a handle from a previous oversized tool-result summary."),
    ("stop_condition", .str "The handle may be mistyped or may belong to another session.")])

def ToolResultStore.read (store : ToolResultStore) (handle : String) : Payload :=
  (store.payloads.lookup handle).getD missingHandle

def binaryPayloadKind : String := "counselle-tool-result-bytes-v1"

def encodeStoredPayload : Payload → JsonValue
  | .json value => value
  | .binary data => .dict [("kind", .str binaryPayloadKind), ("data", .str (String.ofList (Base64.encode data)))]

/-- The text that a payload is decoded from, when it looks like encoded bytes. -/
def encodedData : JsonValue → Option String
  | .dict members =>
    match members.lookup "kind", members.lookup "data" with
    | some (.str kind), some (.str data) => if kind = binaryPayloadKind then some data else none
    | _, _ => none
  | _ => none

/-- `_decode_stored_payload`; `none` where the decoder raises. -/
def decodeStoredPayload (payload : JsonValue) : Option Payload :=
  match encodedData payload with
  | some data => (Base64.decode data.toList).map .binary
  | none => some (.json payload)

def ToolResultStore.dump (store : ToolResultStore) : Members :=
  store.payloads.map fun (handle, payload) => (handle, encodeStoredPayload payload)

/-- `ToolResultStore(initial)` -/
def restore (initial : Members) : Option ToolResultStore :=
  (initial.mapM fun entry => (decodeStoredPayload entry.2).map fun decoded => (entry.1, decoded)).map
    ToolResultStore.mk

/-- The store after so many turns, at the end of each of which it is dumped. -/
def ToolResultStore.afterRounds (store : ToolResultStore) : Nat → Option ToolResultStore
  | 0 => some store
  | rounds + 1 => (store.afterRounds rounds).bind fun earlier => restore earlier.dump

structure Envelope where
  handle : String
  chars : Nat
  preview : List Char
  sketch : String
  publicReceipt : Members
  contract : Bool

def summary (chars : Nat) (handle : String) : String :=
  "Tool result was " ++ grouped chars ++ " characters, so the full payload was spilled. " ++
    "Call read_tool_result(handle='" ++ handle ++ "') if you need the complete result."

def Envelope.members (envelope : Envelope) : Members :=
  [("status", .str "overflow"), ("summary", .str (summary envelope.chars envelope.handle)),
    ("result_for_agent", .dict [("handle", .str envelope.handle), ("chars", .int envelope.chars),
      ("preview", .str (String.ofList envelope.preview)), ("sketch", .str envelope.sketch)]),
    ("public_receipt", .dict envelope.publicReceipt)] ++
    if envelope.contract then [("mutation_contract", .int 1)] else []

def compactResultMaxBytes : Nat := 10240

section Reduce
variable (floats : FloatText)

def Envelope.bytes (envelope : Envelope) : Nat := size floats (.dict envelope.members)

def fitsBudget (envelope : Envelope) : Bool := envelope.bytes floats ≤ compactResultMaxBytes

def previewOmitted : List Char := "[preview omitted: compact result over budget]".toList

def shrunkPreview (preview : List Char) (shrunkChars : Nat) : List Char :=
  if shrunkChars = 0 then previewOmitted else truncateText preview shrunkChars .head

def shrinkToCompactBudget (overflowed : Envelope) : Envelope :=
  if fitsBudget floats overflowed then overflowed
  else if overflowed.preview = [] then { overflowed with sketch := "" }
  else
    let candidates := [400, 100, 0].map fun shrunkChars =>
      { overflowed with preview := shrunkPreview overflowed.preview shrunkChars }
    match candidates.find? (fitsBudget floats) with
    | some candidate => candidate
    | none => { overflowed with preview := previewOmitted, sketch := "" }

/-- `strip_ansi(to_text(value))`, or what stands for bytes. -/
def textOf : Payload → List Char
  | .json (.str s) => stripAnsi s.toList
  | .json value => stripAnsi (toJson floats value)
  | .binary _ => "<binary payload>".toList

def charsOf : Payload → Nat
  | .binary data => data.length
  | payload => (textOf floats payload).length

/-- `isinstance(value, Mapping) and value.get("mutation_contract") == 1` -/
def isContract : Payload → Bool
  | .json (.dict value) => ((value.lookup "mutation_contract").map fun marker => marker.eq (.int 1)).getD false
  | _ => false

inductive Reduced where
  | whole
  | overflow (envelope : Envelope) (store : ToolResultStore)

/-- `reduce_tool_result`; `none` when the draws do not come to a new handle. -/
def reduceToolResult (draws : List Uuid) (value : Payload) (store : ToolResultStore) (maxChars : Int) :
    Option Reduced :=
  let text := textOf floats value
  let chars := charsOf floats value
  if maxChars ≤ 0 ∨ (chars : Int) ≤ maxChars then some .whole
  else
    (store.put draws value).map fun spilled : String × ToolResultStore =>
      let (handle, after) := spilled
      let previewChars := max 200 (min (maxChars.toNat / 2) 2000)
      let overflowed : Envelope := {
        handle, chars
        preview := truncateText text previewChars .headTail
        sketch := jsonSketch repr value
        publicReceipt := publicReceipt value
        contract := isContract value }
      .overflow (if isContract value then shrinkToCompactBudget floats overflowed else overflowed) after

end Reduce

end Counselle.Overflow
