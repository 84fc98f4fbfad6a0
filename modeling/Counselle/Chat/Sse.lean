import Counselle.Json
import Mathlib.Data.List.DropRight

/-! `api/sse.py` and `api/chat/sse.ts`: the frames of the event stream and the client's
parser over the chunks a fetch delivers. -/
namespace Counselle.Sse

abbrev Chars := List Char

inductive EventType where
  | metadata
  | delta
  | step
  | narration
  | thinking
  | userMessage
  | viz
  | clarify
  | clarifyResponse
  | sources
  | usage
  | done
  | error
deriving DecidableEq

def EventType.name : EventType → Chars
  | .metadata => ['m', 'e', 't', 'a']
  | .delta => ['d', 'e', 'l', 't', 'a']
  | .step => ['s', 't', 'e', 'p']
  | .narration => ['n', 'a', 'r', 'r', 'a', 't', 'i', 'o', 'n']
  | .thinking => ['t', 'h', 'i', 'n', 'k', 'i', 'n', 'g']
  | .userMessage => ['u', 's', 'e', 'r', '_', 'm', 'e', 's', 's', 'a', 'g', 'e']
  | .viz => ['v', 'i', 'z']
  | .clarify => ['c', 'l', 'a', 'r', 'i', 'f', 'y']
  | .clarifyResponse =>
    ['c', 'l', 'a', 'r', 'i', 'f', 'y', '_', 'r', 'e', 's', 'p', 'o', 'n', 's', 'e']
  | .sources => ['s', 'o', 'u', 'r', 'c', 'e', 's']
  | .usage => ['u', 's', 'a', 'g', 'e']
  | .done => ['d', 'o', 'n', 'e']
  | .error => ['e', 'r', 'r', 'o', 'r']

def EventType.all : List EventType :=
  [.metadata, .delta, .step, .narration, .thinking, .userMessage, .viz, .clarify, .clarifyResponse,
    .sources, .usage, .done, .error]

def units (text : Chars) : Units := text.flatMap Json.utf16

/-- `domain.events.Event`, its data the members of a dict. -/
structure Event where
  v : Json.Numeral
  type : EventType
  data : List (Units × Json)

/-- `model_dump(mode="json")` -/
def Event.modelDump (event : Event) : Json :=
  .object [(units ['v'], .number event.v), (units ['t', 'y', 'p', 'e'], .string (units event.type.name)),
    (units ['d', 'a', 't', 'a'], .object event.data)]

/-- What is sent: an event under its sequence number, or a keepalive comment of one line. -/
inductive Frame where
  | event (seq : Nat) (event : Event)
  | ping (comment : Chars) (plain : ∀ c ∈ comment, Json.printable c)

/-- `encode_sse`, line by line. -/
def Frame.lines : Frame → List Chars
  | .event seq sent =>
    ['i' :: 'd' :: ':' :: ' ' :: seq.repr.toList,
      'e' :: 'v' :: 'e' :: 'n' :: 't' :: ':' :: ' ' :: sent.type.name,
      'd' :: 'a' :: 't' :: 'a' :: ':' :: ' ' :: sent.modelDump.dumps]
  | .ping comment _ => [':' :: ' ' :: comment]

def crlf : Chars := ['\r', '\n']

def Frame.encode (frame : Frame) : Chars := frame.lines.flatMap (· ++ crlf) ++ crlf

/-- White space and line terminators of `String.prototype.trim`. -/
def isSpace (c : Char) : Bool :=
  let n := c.toNat
  (9 ≤ n && n ≤ 13) || n == 32 || n == 160 || n == 0x1680 || (0x2000 ≤ n && n ≤ 0x200a) ||
    n == 0x2028 || n == 0x2029 || n == 0x202f || n == 0x205f || n == 0x3000 || n == 0xfeff

def trimStart (text : Chars) : Chars := text.dropWhile isSpace

def trim (text : Chars) : Chars := (text.dropWhile isSpace).rdropWhile isSpace

/-- `String.prototype.length` -/
def textLength (text : Chars) : Nat := (units text).length

/-- The message of a `TransportError` of kind `server`. -/
abbrev TransportError := String

structure ProtocolEvent where
  v : Option Json.Numeral
  type : Units
  data : Json

structure SseFrame where
  id : Option Chars
  event : Option Chars
  data : ProtocolEvent

/-- A property of an object; of equal keys the last one counts. -/
def field (value : Json) (key : Chars) : Option Json :=
  match value with
  | .object members => members.reverse.lookup (units key)
  | _ => none

def isRecord : Json → Bool
  | .object _ => true
  | .array _ => true
  | _ => false

def eventTypeOf (type : Units) : Option EventType :=
  EventType.all.find? fun known => units known.name == type

def doneStatuses : List Units :=
  [units ['c', 'o', 'm', 'p', 'l', 'e', 't', 'e'],
    units ['a', 'w', 'a', 'i', 't', 'i', 'n', 'g', '_', 'i', 'n', 'p', 'u', 't'],
    units ['c', 'a', 'n', 'c', 'e', 'l', 'l', 'e', 'd']]

def coerceDoneStatus : Option Json → Json
  | some (.string status) =>
    if status ∈ doneStatuses then .string status
    else .string (units ['c', 'o', 'm', 'p', 'l', 'e', 't', 'e'])
  | _ => .string (units ['c', 'o', 'm', 'p', 'l', 'e', 't', 'e'])

/-- `hasIdentityFields`: the fields the client asks of each type of event. -/
abbrev IdentityFields := EventType → Option Json → Bool

def coerceProtocolEvent (hasIdentityFields : IdentityFields) (value : Json) :
    Except TransportError ProtocolEvent :=
  let v := match field value ['v'] with
    | some (.number v) => some v
    | _ => none
  let data := field value ['d', 'a', 't', 'a']
  match field value ['t', 'y', 'p', 'e'] with
  | some (.string type) =>
    match eventTypeOf type with
    | none => .ok ⟨v, type, .object []⟩
    | some known =>
      if ¬ hasIdentityFields known data then
        .error ("Stream returned a malformed " ++ String.ofList known.name ++ " event.")
      else
        match data with
        | some data =>
          if ¬ isRecord data then .ok ⟨v, type, .object []⟩
          else if known = .done then
            .ok ⟨v, type, .object [(units ['s', 't', 'a', 't', 'u', 's'],
              coerceDoneStatus (field data ['s', 't', 'a', 't', 'u', 's']))]⟩
          else .ok ⟨v, type, data⟩
        | none => .ok ⟨v, type, .object []⟩
  | _ => .error "Stream returned an unknown event."

/-- What `parseFrame` has read of a block. -/
structure Fields where
  id : Option Chars := none
  event : Option Chars := none
  dataLines : List Chars := []

def readLine (fields : Fields) (rawLine : Chars) : Fields :=
  let line := if rawLine.getLast? = some '\r' then rawLine.dropLast else rawLine
  match line with
  | [] => fields
  | ':' :: _ => fields
  | 'i' :: 'd' :: ':' :: value => { fields with id := some (trimStart value) }
  | 'e' :: 'v' :: 'e' :: 'n' :: 't' :: ':' :: value => { fields with event := some (trimStart value) }
  | 'd' :: 'a' :: 't' :: 'a' :: ':' :: value =>
    { fields with dataLines := fields.dataLines ++ [trimStart value] }
  | _ => fields

def readLines (fields : Fields) (block : Chars) : Fields := (block.splitOn '\n').foldl readLine fields

/-- `parseFrame` behind its loop over the lines. -/
def Fields.frame (hasIdentityFields : IdentityFields) (fields : Fields) :
    Except TransportError (Option SseFrame) :=
  if fields.dataLines = [] then .ok none
  else
    match Json.parse (['\n'].intercalate fields.dataLines) with
    | none => .error "Stream returned malformed JSON."
    | some value =>
      match coerceProtocolEvent hasIdentityFields value with
      | .error message => .error message
      | .ok data =>
        .ok (if (eventTypeOf data.type).isSome then some ⟨fields.id, fields.event, data⟩ else none)

def parseFrame (hasIdentityFields : IdentityFields) (block : Chars) :
    Except TransportError (Option SseFrame) :=
  (readLines {} block).frame hasIdentityFields

/-- `.replace(/\r\n/g, "\n")` -/
def normalise : Chars → Chars
  | [] => []
  | '\r' :: '\n' :: rest => '\n' :: normalise rest
  | c :: rest => c :: normalise rest

/-- What stands before and behind the first `"\n\n"`. -/
def findBoundary : Chars → Option (Chars × Chars)
  | [] => none
  | '\n' :: '\n' :: rest => some ([], rest)
  | c :: rest => (findBoundary rest).map fun (block, after) => (c :: block, after)

theorem findBoundary_length {text block after : Chars}
    (found : findBoundary text = some (block, after)) : after.length < text.length := by
  fun_induction findBoundary text generalizing block with
  | case1 => cases found
  | case2 rest =>
    cases found
    simp only [List.length_cons]
    omega
  | case3 c rest _ ih =>
    obtain ⟨⟨inner, later⟩, isFound, same⟩ := Option.map_eq_some_iff.mp found
    cases same
    have short := ih isFound
    simp only [List.length_cons]
    omega

/-- The loop over the blocks of the buffer: the frames yielded, and the buffer left or the
exception. -/
def drain (hasIdentityFields : IdentityFields) (buffer : Chars) :
    List SseFrame × Except TransportError Chars :=
  match found : findBoundary buffer with
  | none => ([], .ok buffer)
  | some (block, after) =>
    match parseFrame hasIdentityFields block with
    | .error message => ([], .error message)
    | .ok frame =>
      have := findBoundary_length found
      let (frames, left) := drain hasIdentityFields after
      (frame.toList ++ frames, left)
termination_by buffer.length

def maxBufferLength : Nat := 5 * 1024 * 1024

def finish (hasIdentityFields : IdentityFields) (buffer : Chars) :
    List SseFrame × Option TransportError :=
  match trim (normalise buffer) with
  | [] => ([], none)
  | tail =>
    match parseFrame hasIdentityFields tail with
    | .error message => ([], some message)
    | .ok frame => (frame.toList, none)

/-- The read loop over the decoded chunks: the frames yielded and the exception thrown. What
the server sends is ASCII, so each chunk decodes by itself. -/
def readChunks (hasIdentityFields : IdentityFields) :
    Chars → List Chars → List SseFrame × Option TransportError
  | buffer, [] => finish hasIdentityFields buffer
  | buffer, chunk :: rest =>
    let buffer := buffer ++ normalise chunk
    if textLength buffer > maxBufferLength then
      ([], some "Stream exceeded the maximum allowed size.")
    else
      match drain hasIdentityFields buffer with
      | (frames, .error message) => (frames, some message)
      | (frames, .ok buffer) =>
        let (more, thrown) := readChunks hasIdentityFields buffer rest
        (frames ++ more, thrown)

def parseSseStream (hasIdentityFields : IdentityFields) (chunks : List Chars) :
    List SseFrame × Option TransportError :=
  readChunks hasIdentityFields [] chunks

end Counselle.Sse
