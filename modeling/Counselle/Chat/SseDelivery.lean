import Counselle.Chat.SseCuts
import Mathlib

/-! When the client reads the frames the server sent, however the stream is cut. -/
namespace Counselle.Sse

variable {check : IdentityFields}

def Frame.isEvent : Frame → Bool
  | .event _ _ => true
  | .ping _ _ => false

/-- Every event has the fields the client asks of its type. -/
def accepted (check : IdentityFields) (frames : List Frame) : Bool :=
  frames.all fun frame =>
    match frame with
    | .event _ sent => check sent.type (some (.object sent.data))
    | .ping _ _ => true

/-- From this position on no event comes while another one is pending: between two events
the empty line of some frame is not cut inside its line end. -/
def apart (cut : Nat → Bool) : Nat → Bool → List Frame → Bool
  | _, _, [] => true
  | n, pending, frame :: rest =>
    let next := n + frame.encode.length
    !(pending && frame.isEvent) &&
      apart cut next (cut (next - 1) && (pending || frame.isEvent)) rest

def fieldsFor : Option (Nat × Event) → Fields
  | none => {}
  | some (seq, sent) => ⟨some seq.repr.toList, some sent.type.name, [sent.modelDump.dumps]⟩

def received (check : IdentityFields) (pending : Option (Nat × Event)) :
    Except TransportError (Option SseFrame) :=
  (fieldsFor pending).frame check

theorem read_event (fields : Fields) (seq : Nat) (sent : Event) :
    (Frame.event seq sent).lines.foldl readLine fields =
      ⟨some seq.repr.toList, some sent.type.name, fields.dataLines ++ [sent.modelDump.dumps]⟩ := by
  have solidId : trimStart (' ' :: seq.repr.toList) = seq.repr.toList := by
    have digits := digits_repr seq
    cases text : seq.repr.toList with
    | nil => simp at text
    | cons c rest =>
      have digit := printable_digit (digits c (by simp [text]))
      simp [trimStart, digit.2, show isSpace ' ' = true by decide]
  have solidName : trimStart (' ' :: sent.type.name) = sent.type.name := by
    cases sent.type <;> decide
  have solidData : trimStart (' ' :: sent.modelDump.dumps) = sent.modelDump.dumps := rfl
  have isId : readLine fields ('i' :: 'd' :: ':' :: ' ' :: seq.repr.toList) =
      { fields with id := some (trimStart (' ' :: seq.repr.toList)) } := by
    have last := (sent_id seq).return
    rw [readLine, if_neg fun bad => last (List.mem_of_getLast? bad)]
    rfl
  have isName (fields : Fields) :
      readLine fields ('e' :: 'v' :: 'e' :: 'n' :: 't' :: ':' :: ' ' :: sent.type.name) =
        { fields with event := some (trimStart (' ' :: sent.type.name)) } := by
    have last := (sent_event sent.type).return
    rw [readLine, if_neg fun bad => last (List.mem_of_getLast? bad)]
    rfl
  have isData (fields : Fields) :
      readLine fields ('d' :: 'a' :: 't' :: 'a' :: ':' :: ' ' :: sent.modelDump.dumps) =
        { fields with dataLines := fields.dataLines ++ [trimStart (' ' :: sent.modelDump.dumps)] } := by
    have last := (sent_data sent).return
    rw [readLine, if_neg fun bad => last (List.mem_of_getLast? bad)]
    rfl
  rw [Frame.lines, List.foldl_cons, isId, List.foldl_cons, isName, List.foldl_cons, isData,
    List.foldl_nil, solidId, solidName, solidData]

theorem read_ping (fields : Fields) (comment : Chars) (plain : ∀ c ∈ comment, Json.printable c) :
    (Frame.ping comment plain).lines.foldl readLine fields = fields :=
  readLine_comment fields _

theorem eventTypeOf_name (type : EventType) : eventTypeOf (units type.name) = some type := by
  cases type <;> decide

theorem field_type (sent : Event) :
    field sent.modelDump ['t', 'y', 'p', 'e'] = some (.string (units sent.type.name)) := by
  have apart : (units ['t', 'y', 'p', 'e'] == units ['d', 'a', 't', 'a']) = false := by decide
  simp [field, Event.modelDump, List.lookup, apart]

theorem field_data (sent : Event) :
    field sent.modelDump ['d', 'a', 't', 'a'] = some (.object sent.data) := by
  simp [field, Event.modelDump]

theorem coerce_modelDump (check : IdentityFields) (sent : Event) :
    (check sent.type (some (.object sent.data)) = true ∧
      ∃ data, coerceProtocolEvent check sent.modelDump = .ok data ∧
        (eventTypeOf data.type).isSome) ∨
    (check sent.type (some (.object sent.data)) = false ∧
      ∃ message, coerceProtocolEvent check sent.modelDump = .error message) := by
  unfold coerceProtocolEvent
  rw [field_type, field_data]
  simp only [eventTypeOf_name]
  cases isFit : check sent.type (some (.object sent.data)) with
  | false => exact .inr ⟨rfl, _, rfl⟩
  | true =>
    refine .inl ⟨rfl, ?_⟩
    simp only [not_true_eq_false, if_false, isRecord]
    split
    · exact ⟨_, rfl, by rw [eventTypeOf_name]; rfl⟩
    · exact ⟨_, rfl, by rw [eventTypeOf_name]; rfl⟩

theorem received_event (check : IdentityFields) (seq : Nat) (sent : Event) :
    (check sent.type (some (.object sent.data)) = true ∧
      ∃ found, received check (some (seq, sent)) = .ok found) ∨
    (check sent.type (some (.object sent.data)) = false ∧
      ∃ message, received check (some (seq, sent)) = .error message) := by
  have parsed : Json.parse (['\n'].intercalate [sent.modelDump.dumps]) = some sent.modelDump := by
    rw [List.intercalate_singleton]
    exact Json.parse_dumps sent.modelDump
  have frame : received check (some (seq, sent)) =
      (coerceProtocolEvent check sent.modelDump).map fun data => if (eventTypeOf data.type).isSome then
        some ⟨some seq.repr.toList, some sent.type.name, data⟩ else none := by
    rw [received, Fields.frame, fieldsFor, if_neg (List.cons_ne_nil _ _)]
    cases coerced : coerceProtocolEvent check sent.modelDump <;> simp only [parsed, coerced, Except.map]
  rw [frame]
  obtain ⟨isFit, data, coerced, -⟩ | ⟨isFit, message, thrown⟩ := coerce_modelDump check sent
  · rw [coerced]
    exact .inl ⟨isFit, _, rfl⟩
  · rw [thrown]
    exact .inr ⟨isFit, message, rfl⟩

theorem frame_many {fields : Fields} (each : ∀ line ∈ fields.dataLines, ∃ sent : Event,
    line = sent.modelDump.dumps) (many : 2 ≤ fields.dataLines.length) :
    fields.frame check = .error "Stream returned malformed JSON." := by
  match lines : fields.dataLines with
  | [] => simp [lines] at many
  | [line] => simp [lines] at many
  | first :: second :: rest =>
    rw [lines] at each
    obtain ⟨sent, rfl⟩ := each first (by simp)
    obtain ⟨next, rfl⟩ := each second (by simp)
    have goesOn : Json.skipBlanks (['\n'].intercalate (next.modelDump.dumps :: rest)) ≠ [] := by
      obtain ⟨c, text, isText, solid, -⟩ := Json.dumps_head next.modelDump
      cases rest with
      | nil =>
        rw [List.intercalate_singleton, isText, Json.skipBlanks_cons solid]
        exact List.cons_ne_nil _ _
      | cons third rest =>
        rw [List.intercalate_cons_cons, isText, List.cons_append, List.cons_append,
          Json.skipBlanks_cons solid]
        exact List.cons_ne_nil _ _
    have parsed : Json.parse (['\n'].intercalate
        (sent.modelDump.dumps :: next.modelDump.dumps :: rest)) = none := by
      rw [List.intercalate_cons_cons, List.append_assoc]
      exact Json.parse_append (by decide) goesOn
    rw [Fields.frame, lines, if_neg (List.cons_ne_nil _ _), parsed]

/-- What comes of the frames when each is read by itself. -/
def delivered (check : IdentityFields) : Option (Nat × Event) → List Frame → List SseFrame
  | pending, [] => ((received check pending).toOption.bind id).toList
  | pending, .ping _ _ :: rest => delivered check pending rest
  | pending, .event seq sent :: rest =>
    ((received check pending).toOption.bind id).toList ++ delivered check (some (seq, sent)) rest

def acceptedPending (check : IdentityFields) : Option (Nat × Event) → Bool
  | none => true
  | some (_, sent) => check sent.type (some (.object sent.data))

theorem received_ok {pending : Option (Nat × Event)} (isFit : acceptedPending check pending = true) :
    ∃ found, received check pending = .ok found := by
  cases pending with
  | none => exact ⟨none, rfl⟩
  | some event =>
    obtain ⟨seq, sent⟩ := event
    obtain ⟨-, found⟩ | ⟨unfit, -⟩ := received_event check seq sent
    · exact found
    · rw [acceptedPending, unfit] at isFit
      cases isFit

theorem delivered_split (pending : Option (Nat × Event)) (frames : List Frame) :
    delivered check pending frames =
      ((received check pending).toOption.bind id).toList ++ delivered check none frames := by
  induction frames with
  | nil => exact (List.append_nil _).symm
  | cons frame rest ih =>
    cases frame with
    | event seq sent => rfl
    | ping comment plain => exact ih

def pendingAfter (pending : Option (Nat × Event)) : Frame → Option (Nat × Event)
  | .event seq sent => some (seq, sent)
  | .ping _ _ => pending

theorem read_frame {pending : Option (Nat × Event)} {frame : Frame}
    (alone : (pending.isSome && frame.isEvent) = false) :
    frame.lines.foldl readLine (fieldsFor pending) = fieldsFor (pendingAfter pending frame) := by
  cases frame with
  | ping comment plain => exact read_ping _ comment plain
  | event seq sent =>
    cases pending with
    | none => exact read_event _ seq sent
    | some event => cases alone

theorem isSome_pendingAfter (pending : Option (Nat × Event)) (frame : Frame) :
    (pendingAfter pending frame).isSome = (pending.isSome || frame.isEvent) := by
  cases frame <;> simp [pendingAfter, Frame.isEvent]

theorem expect_apart (cut : Nat → Bool) (frames : List Frame) (n : Nat)
    (pending : Option (Nat × Event)) (isFit : acceptedPending check pending = true)
    (fit : accepted check frames = true) (isApart : apart cut n pending.isSome frames = true) :
    expect check cut n (fieldsFor pending) frames = (delivered check pending frames, none) := by
  induction frames generalizing n pending with
  | nil =>
    obtain ⟨found, isFound⟩ := received_ok isFit
    rw [expect, lastFrame, delivered, isFound]
    have frame : (fieldsFor pending).frame check = .ok found := isFound
    rw [frame]
    rfl
  | cons frame rest ih =>
    rw [apart, Bool.and_eq_true, Bool.not_eq_true'] at isApart
    obtain ⟨alone, isApart⟩ := isApart
    have both : accepted check [frame] = true ∧ accepted check rest = true := by
      simpa [accepted] using fit
    have next : acceptedPending check (pendingAfter pending frame) = true := by
      cases frame with
      | ping => exact isFit
      | event seq sent => simpa [accepted, acceptedPending, pendingAfter] using both.1
    have behind : delivered check pending (frame :: rest) =
        delivered check (pendingAfter pending frame) rest := by
      cases frame with
      | ping => rfl
      | event seq sent =>
        cases pending with
        | none => rfl
        | some event => cases alone
    rw [← isSome_pendingAfter] at isApart
    rw [expect, read_frame alone, behind]
    split
    case isTrue isCut =>
      rw [isCut, Bool.true_and] at isApart
      exact ih _ _ next both.2 isApart
    case isFalse isWhole =>
      rw [Bool.not_eq_true] at isWhole
      rw [isWhole, Bool.false_and] at isApart
      have later := ih (n + frame.encode.length) none rfl both.2 isApart
      obtain ⟨found, isFound⟩ := received_ok next
      have read : (fieldsFor (pendingAfter pending frame)).frame check = .ok found := isFound
      rw [read, show ({} : Fields) = fieldsFor none from rfl, later,
        delivered_split (pendingAfter pending frame) rest, isFound]
      rfl

def Payloads (fields : Fields) : Prop :=
  ∀ line ∈ fields.dataLines, ∃ sent : Event, line = sent.modelDump.dumps

theorem read_payloads {fields : Fields} (each : Payloads fields) (frame : Frame) :
    Payloads (frame.lines.foldl readLine fields) ∧
      fields.dataLines.length ≤ (frame.lines.foldl readLine fields).dataLines.length := by
  cases frame with
  | ping comment plain =>
    rw [read_ping]
    exact ⟨each, Nat.le_refl _⟩
  | event seq sent =>
    rw [read_event]
    refine ⟨?_, by simp⟩
    intro line isIn
    obtain isOld | isNew := List.mem_append.mp isIn
    · exact each line isOld
    · exact ⟨sent, List.mem_singleton.mp isNew⟩

theorem expect_crowded (cut : Nat → Bool) (frames : List Frame) (n : Nat) {fields : Fields}
    (each : Payloads fields) (many : 2 ≤ fields.dataLines.length) :
    (expect check cut n fields frames).2 ≠ none := by
  induction frames generalizing n fields with
  | nil =>
    rw [expect, lastFrame, frame_many each many]
    exact Option.some_ne_none _
  | cons frame rest ih =>
    obtain ⟨later, grows⟩ := read_payloads each frame
    have still : 2 ≤ (frame.lines.foldl readLine fields).dataLines.length := many.trans grows
    rw [expect]
    split
    · exact ih _ later still
    · rw [frame_many later still]
      exact Option.some_ne_none _

theorem payloads_fieldsFor (pending : Option (Nat × Event)) : Payloads (fieldsFor pending) := by
  cases pending with
  | none => exact fun _ isIn => by cases isIn
  | some event =>
    intro line isIn
    exact ⟨event.2, List.mem_singleton.mp isIn⟩

theorem acceptedPending_of_ok {pending : Option (Nat × Event)} {found : Option SseFrame}
    (isFound : (fieldsFor pending).frame check = .ok found) : acceptedPending check pending = true := by
  cases pending with
  | none => rfl
  | some event =>
    obtain ⟨isFit, -⟩ | ⟨-, message, thrown⟩ := received_event check event.1 event.2
    · exact isFit
    · have thrown : (fieldsFor (some event)).frame check = .error message := thrown
      rw [thrown] at isFound
      cases isFound

theorem expect_calm (cut : Nat → Bool) (frames : List Frame) (n : Nat)
    (pending : Option (Nat × Event))
    (calm : (expect check cut n (fieldsFor pending) frames).2 = none) :
    acceptedPending check pending = true ∧ accepted check frames = true ∧
      apart cut n pending.isSome frames = true := by
  induction frames generalizing n pending with
  | nil =>
    rw [expect, lastFrame] at calm
    split at calm
    · cases calm
    case h_2 found isFound => exact ⟨acceptedPending_of_ok isFound, rfl, rfl⟩
  | cons frame rest ih =>
    cases alone : pending.isSome && frame.isEvent with
    | true =>
      -- a second event joins the one pending
      obtain ⟨each, -⟩ := read_payloads (payloads_fieldsFor pending) frame
      have many : 2 ≤ (frame.lines.foldl readLine (fieldsFor pending)).dataLines.length := by
        cases frame with
        | ping => simp [Frame.isEvent] at alone
        | event seq sent =>
          cases pending with
          | none => cases alone
          | some event => rw [read_event]; exact Nat.le_refl 2
      rw [expect] at calm
      split at calm
      · exact absurd calm (expect_crowded cut rest _ each many)
      · rw [frame_many each many] at calm
        cases calm
    | false =>
      have both : acceptedPending check (pendingAfter pending frame) = true ∧
          accepted check rest = true ∧
          apart cut (n + frame.encode.length) (cut (n + frame.encode.length - 1) &&
            (pendingAfter pending frame).isSome) rest = true := by
        rw [expect, read_frame alone] at calm
        split at calm
        case isTrue isCut =>
          rw [isCut, Bool.true_and]
          exact ih _ _ calm
        case isFalse isWhole =>
          rw [Bool.not_eq_true] at isWhole
          rw [isWhole, Bool.false_and]
          split at calm
          · cases calm
          case h_2 found isFound =>
            obtain ⟨-, fit, isApart⟩ := ih (n + frame.encode.length) none calm
            exact ⟨acceptedPending_of_ok isFound, fit, isApart⟩
      obtain ⟨next, fit, isApart⟩ := both
      rw [isSome_pendingAfter] at isApart
      refine ⟨?_, ?_, by rw [apart, alone, isApart]; rfl⟩
      · cases frame with
        | ping => exact next
        | event seq sent =>
          cases pending with
          | none => rfl
          | some event => cases alone
      · cases frame with
        | ping => exact fit
        | event seq sent =>
          have here : check sent.type (some (.object sent.data)) = true := next
          simpa [accepted, here] using fit

theorem parse_eq_expect {chunks : List Chars} {frames : List Frame}
    (whole : chunks.flatten = encodeAll frames) (small : fits [] chunks) :
    parseSseStream check chunks = expect check (cutAt chunks) 0 {} frames := by
  have read : readChunks check [] chunks = _ := readChunks_eq rfl small
  rw [List.nil_append, flatMap_normalise, whole] at read
  exact read.trans (outcome_eq_expect (cutAt chunks) frames 0 [] (by simp))

theorem textLength_append (front back : Chars) :
    textLength (front ++ back) = textLength front + textLength back := by
  simp [textLength, units]

theorem textLength_normalise (text : Chars) : textLength (normalise text) ≤ textLength text := by
  have cons (c : Char) (rest : Chars) : textLength (c :: rest) = textLength [c] + textLength rest :=
    textLength_append [c] rest
  fun_induction normalise text with
  | case1 => exact Nat.le_refl _
  | case2 rest ih =>
    rw [cons, cons '\r', cons '\n' rest]
    omega
  | case3 c rest _ ih =>
    rw [cons, cons c rest]
    omega

theorem textLength_lastOpen (text : Chars) : textLength (lastOpen text) ≤ textLength text := by
  induction length : text.length using Nat.strongRecOn generalizing text with
  | ind n ih =>
    rw [lastOpen]
    split
    · exact Nat.le_refl _
    case h_2 block after found =>
      have shorter := findBoundary_length found
      have later := ih after.length (by omega) after rfl
      obtain ⟨front, split⟩ := findBoundary_suffix found
      have lengths := congrArg textLength split
      rw [textLength_append] at lengths
      change textLength (lastOpen after) ≤ textLength text
      omega

theorem fits_of_short {openText : Chars} {chunks : List Chars}
    (short : textLength (openText ++ chunks.flatten) ≤ maxBufferLength) : fits openText chunks := by
  induction chunks generalizing openText with
  | nil => trivial
  | cons chunk rest ih =>
    have normal := textLength_normalise chunk
    have left := textLength_lastOpen (openText ++ normalise chunk)
    rw [List.flatten_cons, textLength_append, textLength_append] at short
    rw [textLength_append] at left
    refine ⟨by rw [textLength_append]; omega, ih ?_⟩
    rw [textLength_append]
    omega

theorem apart_uncut {cut : Nat → Bool} {total : Nat} (inside : ∀ n < total, cut n = false) {n : Nat}
    {frames : List Frame} (rest : n + (encodeAll frames).length ≤ total) :
    apart cut n false frames = true := by
  induction frames generalizing n with
  | nil => rfl
  | cons frame frames ih =>
    have length : (encodeAll (frame :: frames)).length =
        frame.encode.length + (encodeAll frames).length := by simp [encodeAll]
    have written : 2 ≤ frame.encode.length := by simp [Frame.encode, crlf]
    have whole : cut (n + frame.encode.length - 1) = false := inside _ (by omega)
    rw [apart, whole]
    simpa using ih (n := n + frame.encode.length) (by omega)

/-- The client reads from the chunks what it reads from the whole stream, and throws nothing,
exactly when each event has its fields, no chunk breaks the size limit and two events are
never merged by cuts inside every empty line between them. -/
theorem cuts_harmless_iff (check : IdentityFields) (frames : List Frame) (chunks : List Chars)
    (whole : chunks.flatten = encodeAll frames) :
    (parseSseStream check chunks = parseSseStream check [encodeAll frames] ∧
      (parseSseStream check chunks).2 = none) ↔
    fits [] chunks ∧ fits [] [encodeAll frames] ∧ accepted check frames = true ∧
      apart (cutAt chunks) 0 false frames = true := by
  have oneChunk : [encodeAll frames].flatten = encodeAll frames := by simp
  have uncut : apart (cutAt [encodeAll frames]) 0 false frames = true :=
    apart_uncut (fun n short => cutAt_inside short) (by omega)
  constructor
  · rintro ⟨same, calm⟩
    have small := fits_of_read calm
    have smallWhole := fits_of_read (show (readChunks check [] [encodeAll frames]).2 = none from
      (congrArg Prod.snd same).symm.trans calm)
    rw [parse_eq_expect whole small] at calm
    obtain ⟨-, fit, isApart⟩ := expect_calm (cutAt chunks) frames 0 none calm
    exact ⟨small, smallWhole, fit, isApart⟩
  · rintro ⟨small, smallWhole, fit, isApart⟩
    have read := expect_apart (cutAt chunks) frames 0 none rfl fit isApart
    have readWhole := expect_apart (cutAt [encodeAll frames]) frames 0 none rfl fit uncut
    rw [parse_eq_expect whole small, parse_eq_expect oneChunk smallWhole]
    exact ⟨read.trans readWhole.symm, congrArg Prod.snd read⟩

def twoDeltas : List Frame :=
  [.event 1 ⟨⟨['1'], by decide⟩, .delta, [(units ['t'], .string (units ['a']))]⟩,
    .event 2 ⟨⟨['1'], by decide⟩, .delta, [(units ['t'], .string (units ['b']))]⟩]

/-- The first frame up to the line feed of its empty line, and the rest. -/
def cutInSeparator : List Chars :=
  let first := (encodeAll twoDeltas).take ((encodeAll (twoDeltas.take 1)).length - 1)
  [first, (encodeAll twoDeltas).drop first.length]

def cutBetween : List Chars :=
  let first := encodeAll (twoDeltas.take 1)
  [first, (encodeAll twoDeltas).drop first.length]

theorem cuts_harmless_iff_cutBetween :
    parseSseStream (fun _ data => data.isSome) cutBetween =
        parseSseStream (fun _ data => data.isSome) [encodeAll twoDeltas] ∧
      (parseSseStream (fun _ data => data.isSome) cutBetween).2 = none :=
  (cuts_harmless_iff _ twoDeltas cutBetween (by decide +kernel)).mpr
    ⟨fits_of_short (by decide +kernel), fits_of_short (by decide +kernel), by decide +kernel,
      by decide +kernel⟩

/-- Cut inside the empty line's end the two frames are taken for one. -/
theorem cut_in_separator_throws :
    cutInSeparator.flatten = encodeAll twoDeltas ∧
    (parseSseStream (fun _ data => data.isSome) cutInSeparator).2 =
      some "Stream returned malformed JSON." ∧
    (parseSseStream (fun _ data => data.isSome) [encodeAll twoDeltas]).2 = none := by
  have cut : cutInSeparator.flatten = encodeAll twoDeltas := by decide +kernel
  have whole : [encodeAll twoDeltas].flatten = encodeAll twoDeltas := by decide +kernel
  refine ⟨cut, ?_, ?_⟩
  · rw [parse_eq_expect cut (fits_of_short (by decide +kernel))]
    decide +kernel
  · rw [parse_eq_expect whole (fits_of_short (by decide +kernel))]
    decide +kernel

end Counselle.Sse
