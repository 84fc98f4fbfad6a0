import Counselle.Chat.Sse
import Counselle.Lines

/-! The parser of the event stream against the cuts between the chunks. -/
namespace Counselle.Sse
open Lines

variable {check : IdentityFields}

theorem findBoundary_append {text block after : Chars} (more : Chars)
    (found : findBoundary text = some (block, after)) :
    findBoundary (text ++ more) = some (block, after ++ more) := by
  fun_induction findBoundary text generalizing block with
  | case1 => cases found
  | case2 rest =>
    cases found
    rfl
  | case3 c rest apart ih =>
    obtain ⟨⟨inner, later⟩, isFound, same⟩ := Option.map_eq_some_iff.mp found
    cases same
    rw [List.cons_append, findBoundary, ih isFound]
    · rfl
    · intro next isMark same
      cases rest with
      | nil => cases isFound
      | cons d rest =>
        obtain ⟨rfl, -⟩ := List.cons.inj same
        exact apart rest isMark rfl

theorem findBoundary_suffix {text block after : Chars}
    (found : findBoundary text = some (block, after)) : ∃ front, text = front ++ after := by
  fun_induction findBoundary text generalizing block with
  | case1 => cases found
  | case2 rest =>
    cases found
    exact ⟨['\n', '\n'], rfl⟩
  | case3 c rest _ ih =>
    obtain ⟨⟨inner, later⟩, isFound, same⟩ := Option.map_eq_some_iff.mp found
    cases same
    obtain ⟨front, split⟩ := ih isFound
    exact ⟨c :: front, by rw [split, List.cons_append]⟩

theorem drain_none {buffer : Chars} (none : findBoundary buffer = none) :
    drain check buffer = ([], .ok buffer) := by
  rw [drain]
  split
  · rfl
  case h_2 found =>
    rw [none] at found
    cases found

theorem drain_some {buffer block after : Chars} (some : findBoundary buffer = some (block, after)) :
    drain check buffer =
      match parseFrame check block with
      | .error message => ([], .error message)
      | .ok frame => (frame.toList ++ (drain check after).1, (drain check after).2) := by
  rw [drain]
  split
  case h_1 found =>
    rw [some] at found
    cases found
  case h_2 found =>
    rw [some] at found
    cases found
    rfl

theorem drain_left {buffer left : Chars} {frames : List SseFrame}
    (drained : drain check buffer = (frames, .ok left)) : findBoundary left = none := by
  induction length : buffer.length using Nat.strongRecOn generalizing buffer frames with
  | ind n ih =>
    cases found : findBoundary buffer with
    | none =>
      rw [drain_none found] at drained
      cases drained
      exact found
    | some cut =>
      obtain ⟨block, after⟩ := cut
      rw [drain_some found] at drained
      split at drained
      · cases drained
      · have shorter := findBoundary_length found
        have isLeft : (drain check after).2 = .ok left := by simpa using congrArg Prod.snd drained
        exact ih after.length (by omega) (Prod.ext rfl isLeft) rfl

/-- What a buffer yields, the end of the stream behind it. -/
def outcome (check : IdentityFields) (buffer : Chars) : List SseFrame × Option TransportError :=
  match drain check buffer with
  | (frames, .error message) => (frames, some message)
  | (frames, .ok left) => (frames ++ (finish check left).1, (finish check left).2)

theorem outcome_none {buffer : Chars} (none : findBoundary buffer = none) :
    outcome check buffer = finish check buffer := by
  rw [outcome, drain_none none]
  rfl

theorem outcome_some {buffer block after : Chars} (some : findBoundary buffer = some (block, after)) :
    outcome check buffer =
      match parseFrame check block with
      | .error message => ([], Option.some message)
      | .ok frame => (frame.toList ++ (outcome check after).1, (outcome check after).2) := by
  rw [outcome, drain_some some]
  cases parseFrame check block with
  | error message => rfl
  | ok frame =>
    simp only [outcome]
    cases drain check after with
    | mk frames left =>
      cases left with
      | error message => rfl
      | ok left => simp

theorem outcome_append (buffer more : Chars) :
    outcome check (buffer ++ more) =
      match drain check buffer with
      | (frames, .error message) => (frames, some message)
      | (frames, .ok left) =>
        (frames ++ (outcome check (left ++ more)).1, (outcome check (left ++ more)).2) := by
  induction length : buffer.length using Nat.strongRecOn generalizing buffer with
  | ind n ih =>
    cases found : findBoundary buffer with
    | none =>
      rw [drain_none found]
      rfl
    | some cut =>
      obtain ⟨block, after⟩ := cut
      have shorter := findBoundary_length found
      rw [outcome_some (findBoundary_append more found), drain_some found,
        ih after.length (by omega) after rfl]
      cases parseFrame check block with
      | error message => rfl
      | ok frame =>
        simp only
        cases drain check after with
        | mk frames left =>
          cases left with
          | error message => rfl
          | ok left => simp

def lastOpen (text : Chars) : Chars :=
  match found : findBoundary text with
  | none => text
  | some (_, after) =>
    have := findBoundary_length found
    lastOpen after
termination_by text.length

theorem drain_lastOpen {buffer left : Chars} {frames : List SseFrame}
    (drained : drain check buffer = (frames, .ok left)) : lastOpen buffer = left := by
  induction length : buffer.length using Nat.strongRecOn generalizing buffer frames with
  | ind n ih =>
    rw [lastOpen]
    split
    case h_1 found =>
      rw [drain_none found] at drained
      cases drained
      rfl
    case h_2 after found =>
      have shorter := findBoundary_length found
      rw [drain_some found] at drained
      split at drained
      · cases drained
      · have isLeft : (drain check after).2 = .ok left := by simpa using congrArg Prod.snd drained
        exact ih after.length (by omega) (Prod.ext rfl isLeft) rfl

/-- No chunk brings the text behind the last complete frame over the size limit. -/
def fits : Chars → List Chars → Prop
  | _, [] => True
  | openText, chunk :: rest =>
    textLength (openText ++ normalise chunk) ≤ maxBufferLength ∧
      fits (lastOpen (openText ++ normalise chunk)) rest

theorem readChunks_eq {buffer : Chars} {chunks : List Chars} (none : findBoundary buffer = none)
    (small : fits buffer chunks) :
    readChunks check buffer chunks = outcome check (buffer ++ chunks.flatMap normalise) := by
  induction chunks generalizing buffer with
  | nil => rw [readChunks, List.flatMap_nil, List.append_nil, outcome_none none]
  | cons chunk rest ih =>
    obtain ⟨here, later⟩ := small
    rw [List.flatMap_cons, ← List.append_assoc, readChunks, outcome_append]
    simp only
    rw [if_neg (Nat.not_lt.mpr here)]
    cases drained : drain check (buffer ++ normalise chunk) with
    | mk frames left =>
      cases left with
      | error message => rfl
      | ok left =>
        rw [drain_lastOpen drained] at later
        simp only
        rw [ih (drain_left drained) later]

theorem fits_of_read {buffer : Chars} {chunks : List Chars}
    (calm : (readChunks check buffer chunks).2 = none) : fits buffer chunks := by
  induction chunks generalizing buffer with
  | nil => trivial
  | cons chunk rest ih =>
    rw [readChunks] at calm
    simp only at calm
    split at calm
    · cases calm
    case isFalse small =>
      split at calm
      · cases calm
      case h_2 left drained =>
        refine ⟨Nat.not_lt.mp small, ?_⟩
        rw [drain_lastOpen drained]
        exact ih calm

def cutAt : List Chars → Nat → Bool
  | [], _ => false
  | chunk :: rest, n => n == chunk.length || (chunk.length < n && cutAt rest (n - chunk.length))

/-- Only a line end that is not cut is normalised; `n` characters stand before the text. -/
def normaliseCut (cut : Nat → Bool) : Nat → Chars → Chars
  | _, [] => []
  | n, '\r' :: '\n' :: rest =>
    (if cut (n + 1) then ['\r', '\n'] else ['\n']) ++ normaliseCut cut (n + 2) rest
  | n, c :: rest => c :: normaliseCut cut (n + 1) rest

theorem normaliseCut_congr {cut other : Nat → Bool} {n m : Nat} (text : Chars)
    (same : ∀ k, cut (n + 1 + k) = other (m + 1 + k)) :
    normaliseCut cut n text = normaliseCut other m text := by
  fun_induction normaliseCut cut n text generalizing m with
  | case1 => simp [normaliseCut]
  | case2 n rest ih =>
    have here : cut (n + 1) = other (m + 1) := same 0
    have later : normaliseCut cut (n + 2) rest = normaliseCut other (m + 2) rest := by
      apply ih
      intro k
      have next := same (k + 2)
      rwa [show n + 1 + (k + 2) = n + 2 + 1 + k by omega,
        show m + 1 + (k + 2) = m + 2 + 1 + k by omega] at next
    rw [normaliseCut, here, later]
  | case3 n c rest apart ih =>
    have later : normaliseCut cut (n + 1) rest = normaliseCut other (m + 1) rest := by
      apply ih
      intro k
      have next := same (k + 1)
      rwa [show n + 1 + (k + 1) = n + 1 + 1 + k by omega,
        show m + 1 + (k + 1) = m + 1 + 1 + k by omega] at next
    rw [normaliseCut, later]
    exact apart

theorem normaliseCut_append {cut : Nat → Bool} {n : Nat} {chunk : Chars} (rest : Chars)
    (inside : ∀ k, 0 < k → k < chunk.length → cut (n + k) = false)
    (behind : chunk ≠ [] → cut (n + chunk.length) = true) :
    normaliseCut cut n (chunk ++ rest) =
      normalise chunk ++ normaliseCut cut (n + chunk.length) rest := by
  fun_induction normalise chunk generalizing n with
  | case1 => rfl
  | case2 tail ih =>
    have whole : cut (n + 1) = false := inside 1 (by omega) (by simp)
    have later := ih (n := n + 2) (fun k pos short => by
        have next := inside (k + 2) (by omega) (by simp; omega)
        rwa [show n + (k + 2) = n + 2 + k by omega] at next)
      (fun _ => by
        have next := behind (List.cons_ne_nil _ _)
        rwa [List.length_cons, List.length_cons,
          show n + (tail.length + 1 + 1) = n + 2 + tail.length by omega] at next)
    rw [List.cons_append, List.cons_append, normaliseCut, whole, later]
    simp only [List.length_cons, show n + (tail.length + 1 + 1) = n + 2 + tail.length by omega]
    rfl
  | case3 c tail apart ih =>
    have later := ih (n := n + 1) (fun k pos short => by
        have next := inside (k + 1) (by omega) (by simp; omega)
        rwa [show n + (k + 1) = n + 1 + k by omega] at next)
      (fun _ => by
        have next := behind (List.cons_ne_nil _ _)
        rwa [List.length_cons, show n + (tail.length + 1) = n + 1 + tail.length by omega] at next)
    have length : n + (c :: tail).length = n + 1 + tail.length := by
      rw [List.length_cons]
      omega
    rw [length, List.cons_append, List.cons_append, ← later]
    -- a line end that begins in this chunk and ends in the next is cut
    by_cases broken : c = '\r' ∧ ∃ more, tail ++ rest = '\n' :: more
    · obtain ⟨rfl, more, split⟩ := broken
      cases tail with
      | nil =>
        have isCut : cut (n + 1) = true := behind (List.cons_ne_nil _ _)
        rw [split, normaliseCut, isCut, normaliseCut]
        · rfl
        · intro _ bad
          cases bad
      | cons d tail =>
        obtain ⟨rfl, -⟩ := List.cons.inj split
        exact absurd rfl (apart _ rfl)
    · rw [normaliseCut]
      intro more isReturn split
      exact broken ⟨isReturn, more, split⟩

theorem cutAt_inside {chunk : Chars} {rest : List Chars} {n : Nat} (short : n < chunk.length) :
    cutAt (chunk :: rest) n = false := by
  simp [cutAt, Nat.ne_of_lt short, Nat.not_lt.mpr (Nat.le_of_lt short)]

theorem cutAt_later {chunk : Chars} {rest : List Chars} {n : Nat} (later : 0 < n) :
    cutAt (chunk :: rest) (chunk.length + n) = cutAt rest n := by
  have other : (chunk.length + n == chunk.length) = false := by simp; omega
  simp [cutAt, other, later]

theorem flatMap_normalise (chunks : List Chars) :
    chunks.flatMap normalise = normaliseCut (cutAt chunks) 0 chunks.flatten := by
  induction chunks with
  | nil => rfl
  | cons chunk rest ih =>
    rw [List.flatMap_cons, List.flatten_cons, ih]
    rw [normaliseCut_append rest.flatten]
    · congr 1
      apply normaliseCut_congr
      intro k
      have shift : cutAt (chunk :: rest) (chunk.length + (0 + 1 + k)) = cutAt rest (0 + 1 + k) :=
        cutAt_later (by omega)
      rw [← shift]
      congr 1
      omega
    · intro k _ short
      rw [Nat.zero_add]
      exact cutAt_inside short
    · intro _
      rw [Nat.zero_add]
      simp [cutAt]

def returnOf (cut : Bool) : Chars := if cut then ['\r'] else []

def lineEnd (cut : Bool) : Chars := returnOf cut ++ ['\n']

/-- Lines with whether their ends were cut, as they stand in the buffer. -/
def heldText (held : List (Chars × Bool)) : Chars :=
  held.flatMap fun (line, cut) => line ++ lineEnd cut

def blockText : List (Chars × Bool) → Chars
  | [] => []
  | [(line, cut)] => line ++ returnOf cut
  | (line, cut) :: next :: rest => line ++ lineEnd cut ++ blockText (next :: rest)

def fieldsOf (fields : Fields) (held : List (Chars × Bool)) : Fields :=
  held.foldl (fun fields (line, _) => readLine fields line) fields

/-- What holds of each line sent: blanks at its end do not matter. -/
structure Sent (line : Chars) : Prop where
  plain : ∀ c ∈ line, Json.printable c
  solid : ∃ c rest, line = c :: rest ∧ isSpace c = false
  trimmed : ∀ fields, readLine fields (line.rdropWhile isSpace) = readLine fields line

/-- A line held is one that was sent, or an empty one whose end was cut. -/
def Held (entry : Chars × Bool) : Prop := Sent entry.1 ∨ entry = ([], true)

theorem Sent.return {line : Chars} (sent : Sent line) : '\r' ∉ line := fun bad =>
  absurd (sent.plain _ bad) (by decide)

theorem Sent.feed {line : Chars} (sent : Sent line) : '\n' ∉ line := fun bad =>
  absurd (sent.plain _ bad) (by decide)

theorem Held.return {entry : Chars × Bool} (held : Held entry) : '\r' ∉ entry.1 := by
  obtain sent | rfl := held
  · exact sent.return
  · exact List.not_mem_nil

theorem Held.feed {entry : Chars × Bool} (held : Held entry) : '\n' ∉ entry.1 := by
  obtain sent | rfl := held
  · exact sent.feed
  · exact List.not_mem_nil

theorem Held.head {entry : Chars × Bool} (held : Held entry) (rest : Chars) :
    ∃ c more, entry.1 ++ lineEnd entry.2 ++ rest = c :: more ∧ c ≠ '\n' := by
  obtain sent | rfl := held
  · obtain ⟨c, more, split, solid⟩ := sent.solid
    refine ⟨c, more ++ lineEnd entry.2 ++ rest, by rw [split]; rfl, ?_⟩
    rintro rfl
    exact absurd solid (by decide)
  · exact ⟨'\r', '\n' :: rest, rfl, by decide⟩

theorem feed_not_mem {line : Chars} (feed : '\n' ∉ line) (cut : Bool) :
    '\n' ∉ line ++ returnOf cut := by
  cases cut <;> simp [returnOf, feed]

theorem findBoundary_skip {line : Chars} (rest : Chars) (feed : '\n' ∉ line) :
    findBoundary (line ++ rest) =
      (findBoundary rest).map fun (block, after) => (line ++ block, after) := by
  induction line with
  | nil => simp
  | cons c line ih =>
    rw [List.mem_cons, not_or] at feed
    rw [List.cons_append, findBoundary, ih feed.2, Option.map_map]
    · rfl
    · intro more isFeed
      exact absurd isFeed.symm feed.1

theorem findBoundary_lines {line rest : Chars} (feed : '\n' ∉ line) (cut : Bool)
    (goesOn : ∃ c more, rest = c :: more ∧ c ≠ '\n') :
    findBoundary (line ++ lineEnd cut ++ rest) =
      (findBoundary rest).map fun (block, after) => (line ++ lineEnd cut ++ block, after) := by
  obtain ⟨c, more, rfl, other⟩ := goesOn
  have split : line ++ lineEnd cut ++ c :: more = (line ++ returnOf cut) ++ '\n' :: c :: more := by
    simp [lineEnd]
  rw [split, findBoundary_skip _ (feed_not_mem feed cut), findBoundary]
  · cases findBoundary (c :: more) with
    | none => rfl
    | some found => simp [lineEnd]
  · intro _ _ same
    exact other (List.cons.inj same).1

theorem heldText_head {entry : Chars × Bool} (held : Held entry) (rest : List (Chars × Bool))
    (more : Chars) : ∃ c text, heldText (entry :: rest) ++ more = c :: text ∧ c ≠ '\n' := by
  have first := held.head (heldText rest ++ more)
  rwa [← List.append_assoc] at first

theorem findBoundary_held {held : List (Chars × Bool)} (each : ∀ entry ∈ held, Held entry) :
    findBoundary (heldText held) = none := by
  induction held with
  | nil => rfl
  | cons entry rest ih =>
    have later := ih fun next isIn => each next (List.mem_cons_of_mem _ isIn)
    have here := each entry List.mem_cons_self
    cases rest with
    | nil =>
      have split : heldText [entry] = (entry.1 ++ returnOf entry.2) ++ ['\n'] := by
        simp [heldText, lineEnd]
      rw [split, findBoundary_skip _ (feed_not_mem here.feed _)]
      rfl
    | cons next rest =>
      have next := heldText_head (each next (by simp)) rest []
      rw [List.append_nil] at next
      have lines := findBoundary_lines here.feed entry.2 next
      rw [later] at lines
      exact lines

theorem findBoundary_end {held : List (Chars × Bool)} (holds : held ≠ []) (rest : Chars)
    (each : ∀ entry ∈ held, Held entry) :
    findBoundary (heldText held ++ '\n' :: rest) = some (blockText held, rest) := by
  induction held with
  | nil => exact absurd rfl holds
  | cons entry later ih =>
    have here := each entry List.mem_cons_self
    cases later with
    | nil =>
      have split : heldText [entry] ++ '\n' :: rest =
          (entry.1 ++ returnOf entry.2) ++ '\n' :: '\n' :: rest := by simp [heldText, lineEnd]
      rw [split, findBoundary_skip _ (feed_not_mem here.feed _)]
      simp [findBoundary, blockText]
    | cons next later =>
      have found := ih (List.cons_ne_nil _ _) fun entry isIn => each entry (List.mem_cons_of_mem _ isIn)
      have lines := findBoundary_lines here.feed entry.2
        (heldText_head (each next (by simp)) later ('\n' :: rest))
      rw [found, ← List.append_assoc] at lines
      exact lines

theorem readLine_return {line : Chars} (plain : '\r' ∉ line) (fields : Fields) (cut : Bool) :
    readLine fields (line ++ returnOf cut) = readLine fields line := by
  have last : line.getLast? ≠ some '\r' := fun bad => plain (List.mem_of_getLast? bad)
  cases cut with
  | false => simp [returnOf]
  | true => simp [readLine, returnOf, last]

theorem readLines_cons {line rest : Chars} (feed : '\n' ∉ line) (fields : Fields) :
    readLines fields (line ++ '\n' :: rest) = readLines (readLine fields line) rest := by
  rw [readLines, List.splitOn_append_cons_self_of_not_mem feed]
  rfl

theorem readLines_blockText {held : List (Chars × Bool)} (holds : held ≠ []) (fields : Fields)
    (each : ∀ entry ∈ held, Held entry) :
    readLines fields (blockText held) = fieldsOf fields held := by
  induction held generalizing fields with
  | nil => exact absurd rfl holds
  | cons entry rest ih =>
    have here := each entry List.mem_cons_self
    obtain ⟨line, cut⟩ := entry
    cases rest with
    | nil =>
      rw [blockText, readLines, List.splitOn_eq_singleton (feed_not_mem here.feed cut)]
      exact readLine_return here.return fields cut
    | cons next rest =>
      have split : blockText ((line, cut) :: next :: rest) =
          (line ++ returnOf cut) ++ '\n' :: blockText (next :: rest) := by simp [blockText, lineEnd]
      rw [split, readLines_cons (feed_not_mem here.feed cut), readLine_return here.return,
        ih (List.cons_ne_nil _ _) _ fun entry isIn => each entry (List.mem_cons_of_mem _ isIn)]
      rfl

theorem fieldsOf_append (fields : Fields) (held more : List (Chars × Bool)) :
    fieldsOf fields (held ++ more) = fieldsOf (fieldsOf fields held) more :=
  List.foldl_append

@[simp] theorem readLine_nil (fields : Fields) : readLine fields [] = fields := rfl

@[simp] theorem readLines_nil (fields : Fields) : readLines fields [] = fields := rfl

theorem heldText_append (held more : List (Chars × Bool)) :
    heldText (held ++ more) = heldText held ++ heldText more :=
  List.flatMap_append

def plainText (held : List (Chars × Bool)) : Chars := held.flatMap fun (line, _) => line ++ ['\n']

theorem normalise_line {line : Chars} (plain : '\r' ∉ line) (cut : Bool) (rest : Chars) :
    normalise (line ++ lineEnd cut ++ rest) = line ++ '\n' :: normalise rest := by
  induction line with
  | nil => cases cut <;> rfl
  | cons c line ih =>
    rw [List.mem_cons, not_or] at plain
    have apart : ∀ more, c = '\r' → line ++ lineEnd cut ++ rest = '\n' :: more → False :=
      fun _ isReturn _ => plain.1 isReturn.symm
    rw [List.cons_append, List.cons_append, normalise, ih plain.2, List.cons_append]
    exact apart

theorem normalise_held {held : List (Chars × Bool)} (each : ∀ entry ∈ held, Held entry) :
    normalise (heldText held) = plainText held := by
  induction held with
  | nil => rfl
  | cons entry rest ih =>
    have here := normalise_line (each entry List.mem_cons_self).return entry.2 (heldText rest)
    rw [ih fun next isIn => each next (List.mem_cons_of_mem _ isIn)] at here
    have split : plainText (entry :: rest) = entry.1 ++ '\n' :: plainText rest := by simp [plainText]
    rw [split]
    exact here

theorem readLines_plainText {held : List (Chars × Bool)} {last : Chars} (fields : Fields)
    (each : ∀ entry ∈ held, Held entry) (feed : '\n' ∉ last) :
    readLines fields (plainText held ++ last) = readLine (fieldsOf fields held) last := by
  induction held generalizing fields with
  | nil =>
    rw [plainText, List.flatMap_nil, List.nil_append, readLines, List.splitOn_eq_singleton feed]
    rfl
  | cons entry rest ih =>
    have split : plainText (entry :: rest) ++ last = entry.1 ++ '\n' :: (plainText rest ++ last) := by
      simp [plainText]
    rw [split, readLines_cons (each entry List.mem_cons_self).feed,
      ih _ fun next isIn => each next (List.mem_cons_of_mem _ isIn)]
    rfl

theorem readLines_trimmed {held : List (Chars × Bool)} (fields : Fields)
    (each : ∀ entry ∈ held, Held entry) :
    readLines fields ((plainText held).rdropWhile isSpace) = fieldsOf fields held := by
  induction held using List.reverseRecOn with
  | nil => rfl
  | append_singleton front entry ih =>
    have earlier : ∀ entry ∈ front, Held entry := fun next isIn => each next (by simp [isIn])
    have split : plainText (front ++ [entry]) = (plainText front ++ entry.1) ++ ['\n'] := by
      simp [plainText]
    rw [split, List.rdropWhile_concat_pos _ _ _ (by decide), fieldsOf_append]
    obtain sent | rfl := each entry (by simp)
    · obtain ⟨c, rest, isLine, solid⟩ := sent.solid
      have visible : entry.1.all isSpace = false := by simp [isLine, solid]
      rw [rdropWhile_append, visible, if_neg Bool.false_ne_true, readLines_plainText _ earlier]
      · exact sent.trimmed _
      · exact fun bad => sent.feed ((List.rdropWhile_prefix isSpace entry.1).sublist.mem bad)
    · rw [List.append_nil, ih earlier]
      rfl

theorem readLines_trim {held : List (Chars × Bool)} (fields : Fields)
    (each : ∀ entry ∈ held, Held entry) :
    readLines fields (trim (plainText held)) = fieldsOf fields held := by
  induction held with
  | nil => rfl
  | cons entry rest ih =>
    obtain sent | rfl := each entry List.mem_cons_self
    · obtain ⟨c, text, isLine, solid⟩ := sent.solid
      have kept : (plainText (entry :: rest)).dropWhile isSpace = plainText (entry :: rest) := by
        simp [plainText, isLine, solid]
      rw [trim, kept, readLines_trimmed fields each]
    · have dropped : (plainText (([], true) :: rest)).dropWhile isSpace =
          (plainText rest).dropWhile isSpace := by
        simp [plainText, show isSpace '\n' = true by decide]
      rw [trim, dropped]
      exact ih fun next isIn => each next (List.mem_cons_of_mem _ isIn)

def lastFrame (check : IdentityFields) (fields : Fields) : List SseFrame × Option TransportError :=
  match fields.frame check with
  | .error message => ([], some message)
  | .ok found => (found.toList, none)

theorem finish_held {held : List (Chars × Bool)} (each : ∀ entry ∈ held, Held entry) :
    finish check (heldText held) = lastFrame check (fieldsOf {} held) := by
  have read := readLines_trim {} each
  unfold finish
  rw [normalise_held each]
  split
  case h_1 empty =>
    rw [empty] at read
    rw [← read]
    rfl
  case h_2 =>
    rw [parseFrame, read]
    rfl

/-- The lines sent from this position on, with the cuts in their ends. -/
def markLines (cut : Nat → Bool) : Nat → List Chars → List (Chars × Bool)
  | _, [] => []
  | n, line :: rest =>
    (line, cut (n + line.length + 1)) :: markLines cut (n + line.length + 2) rest

theorem normaliseCut_line {cut : Nat → Bool} {n : Nat} {line : Chars} (plain : '\r' ∉ line)
    (rest : Chars) : normaliseCut cut n (line ++ crlf ++ rest) =
      line ++ lineEnd (cut (n + line.length + 1)) ++ normaliseCut cut (n + line.length + 2) rest := by
  induction line generalizing n with
  | nil =>
    rw [List.nil_append, List.nil_append, crlf, List.cons_append, List.cons_append, normaliseCut]
    cases isCut : cut (n + 1) <;> simp [lineEnd, returnOf]
  | cons c line ih =>
    rw [List.mem_cons, not_or] at plain
    have apart : ∀ more, c = '\r' → line ++ crlf ++ rest = '\n' :: more → False :=
      fun _ isReturn _ => plain.1 isReturn.symm
    rw [List.cons_append, List.cons_append, normaliseCut, ih plain.2, List.length_cons,
      show n + 1 + line.length = n + (line.length + 1) by omega]
    · rfl
    · exact apart

theorem normaliseCut_lines {cut : Nat → Bool} {n : Nat} {lines : List Chars}
    (plain : ∀ line ∈ lines, '\r' ∉ line) (rest : Chars) :
    normaliseCut cut n (lines.flatMap (· ++ crlf) ++ rest) =
      heldText (markLines cut n lines) ++
        normaliseCut cut (n + (lines.flatMap (· ++ crlf)).length) rest := by
  induction lines generalizing n with
  | nil => rfl
  | cons line lines ih =>
    rw [List.flatMap_cons, List.append_assoc, normaliseCut_line (plain line List.mem_cons_self),
      ih fun next isIn => plain next (List.mem_cons_of_mem _ isIn), ← List.append_assoc]
    have length : n + line.length + 2 + (lines.flatMap (· ++ crlf)).length =
        n + (line ++ crlf ++ lines.flatMap (· ++ crlf)).length := by
      simp [crlf]
      omega
    rw [length]
    rfl

theorem markLines_lines (cut : Nat → Bool) (n : Nat) (lines : List Chars) :
    (markLines cut n lines).map Prod.fst = lines := by
  induction lines generalizing n with
  | nil => rfl
  | cons line rest ih => rw [markLines, List.map_cons, ih]

theorem fieldsOf_markLines (cut : Nat → Bool) (n : Nat) (lines : List Chars) (fields : Fields) :
    fieldsOf fields (markLines cut n lines) = lines.foldl readLine fields := by
  induction lines generalizing n fields with
  | nil => rfl
  | cons line rest ih => exact ih _ _

theorem readLine_comment (fields : Fields) (text : Chars) : readLine fields (':' :: text) = fields := by
  unfold readLine
  split
  · cases text <;> rfl
  · rfl

theorem sent_of_last {line front : Chars} {c last : Char} {rest : Chars} (starts : line = c :: rest)
    (ends : line = front ++ [last]) (solid : isSpace c = false) (shown : isSpace last = false)
    (plain : ∀ c ∈ line, Json.printable c) : Sent line where
  plain := plain
  solid := ⟨c, rest, starts, solid⟩
  trimmed fields := by rw [ends, List.rdropWhile_concat_neg _ _ _ (by simp [shown])]

theorem printable_digit {c : Char} (digit : c.isDigit = true) :
    Json.printable c ∧ isSpace c = false := by
  simp only [Char.isDigit, Bool.and_eq_true, decide_eq_true_eq] at digit
  have low : 48 ≤ c.toNat := digit.1
  have high : c.toNat ≤ 57 := digit.2
  refine ⟨⟨by omega, by omega⟩, ?_⟩
  simp only [isSpace]
  simp
  omega

theorem digits_repr (seq : Nat) : ∀ c ∈ seq.repr.toList, c.isDigit = true := by
  intro c isIn
  have digits : c ∈ Nat.toDigits 10 seq := by simpa using isIn
  exact Nat.isDigit_of_mem_toDigits (by decide) (by decide) digits

theorem sent_id (seq : Nat) : Sent ('i' :: 'd' :: ':' :: ' ' :: seq.repr.toList) := by
  have digits := digits_repr seq
  have written : seq.repr.toList ≠ [] := by simp
  obtain ⟨front, last, split⟩ := List.eq_nil_or_concat' seq.repr.toList |>.resolve_left written
  have ends : 'i' :: 'd' :: ':' :: ' ' :: seq.repr.toList =
      ('i' :: 'd' :: ':' :: ' ' :: front) ++ [last] := by rw [split]; rfl
  refine sent_of_last rfl ends (by decide) (printable_digit (digits last (by simp [split]))).2 ?_
  intro c isIn
  simp only [List.mem_cons] at isIn
  obtain rfl | rfl | rfl | rfl | isIn := isIn
  · decide
  · decide
  · decide
  · decide
  · exact (printable_digit (digits c isIn)).1

theorem sent_event (type : EventType) :
    Sent ('e' :: 'v' :: 'e' :: 'n' :: 't' :: ':' :: ' ' :: type.name) := by
  have names : ∀ type : EventType, (∀ c ∈ type.name, Json.printable c) ∧
      ∃ front last, type.name = front ++ [last] ∧ isSpace last = false := by
    intro type
    cases type <;> exact ⟨by simp [EventType.name, Json.printable], _, _,
      (List.dropLast_append_getLast (by decide)).symm, by decide⟩
  obtain ⟨plain, front, last, split, shown⟩ := names type
  have ends : 'e' :: 'v' :: 'e' :: 'n' :: 't' :: ':' :: ' ' :: type.name =
      ('e' :: 'v' :: 'e' :: 'n' :: 't' :: ':' :: ' ' :: front) ++ [last] := by rw [split]; rfl
  refine sent_of_last rfl ends (by decide) shown ?_
  intro c isIn
  simp only [List.mem_cons] at isIn
  obtain rfl | rfl | rfl | rfl | rfl | rfl | rfl | isIn := isIn
  all_goals first | decide | exact plain c isIn

theorem sent_data (event : Event) :
    Sent ('d' :: 'a' :: 't' :: 'a' :: ':' :: ' ' :: event.modelDump.dumps) := by
  obtain ⟨inside, text⟩ := Json.dumps_object
    [(units ['v'], .number event.v), (units ['t', 'y', 'p', 'e'], .string (units event.type.name)),
      (units ['d', 'a', 't', 'a'], .object event.data)]
  have text : event.modelDump.dumps = '{' :: (inside ++ ['}']) := text
  have ends : 'd' :: 'a' :: 't' :: 'a' :: ':' :: ' ' :: event.modelDump.dumps =
      ('d' :: 'a' :: 't' :: 'a' :: ':' :: ' ' :: '{' :: inside) ++ ['}'] := by rw [text]; rfl
  refine sent_of_last rfl ends (by decide) (by decide) ?_
  intro c isIn
  simp only [List.mem_cons] at isIn
  obtain rfl | rfl | rfl | rfl | rfl | rfl | isIn := isIn
  all_goals first | decide | exact Json.printable_dumps _ c isIn

theorem sent_comment {comment : Chars} (plain : ∀ c ∈ comment, Json.printable c) :
    Sent (':' :: ' ' :: comment) where
  plain := by
    intro c isIn
    simp only [List.mem_cons] at isIn
    obtain rfl | rfl | isIn := isIn
    · decide
    · decide
    · exact plain c isIn
  solid := ⟨':', ' ' :: comment, rfl, by decide⟩
  trimmed fields := by
    have colon : [':'].rdropWhile isSpace = [':'] := by decide
    have cut := rdropWhile_append isSpace [':'] (' ' :: comment)
    rw [colon] at cut
    rw [readLine_comment]
    split at cut
    · exact (congrArg (readLine fields) cut).trans (readLine_comment fields [])
    · exact (congrArg (readLine fields) cut).trans (readLine_comment fields _)

theorem sent_lines (frame : Frame) : ∀ line ∈ frame.lines, Sent line := by
  cases frame with
  | event seq sent =>
    intro line isIn
    simp only [Frame.lines, List.mem_cons, List.not_mem_nil, or_false] at isIn
    obtain rfl | rfl | rfl := isIn
    · exact sent_id seq
    · exact sent_event sent.type
    · exact sent_data sent
  | ping comment plain =>
    intro line isIn
    rw [List.mem_singleton.mp isIn]
    exact sent_comment plain

def encodeAll (frames : List Frame) : Chars := frames.flatMap Frame.encode

/-- What the frames from this position on yield, with what is read of the block they are in:
a block goes on over every frame whose empty line is cut. -/
def expect (check : IdentityFields) (cut : Nat → Bool) :
    Nat → Fields → List Frame → List SseFrame × Option TransportError
  | _, fields, [] => lastFrame check fields
  | n, fields, frame :: rest =>
    let fields := frame.lines.foldl readLine fields
    let next := n + frame.encode.length
    if cut (next - 1) then expect check cut next fields rest
    else
      match fields.frame check with
      | .error message => ([], some message)
      | .ok found =>
        (found.toList ++ (expect check cut next {} rest).1, (expect check cut next {} rest).2)

theorem held_markLines (cut : Nat → Bool) (n : Nat) (frame : Frame) :
    ∀ entry ∈ markLines cut n frame.lines, Held entry := by
  intro entry isIn
  have isLine := List.mem_map_of_mem (f := Prod.fst) isIn
  rw [markLines_lines] at isLine
  exact .inl (sent_lines frame _ isLine)

theorem lines_ne_nil (frame : Frame) : frame.lines ≠ [] := by
  cases frame <;> exact List.cons_ne_nil _ _

/-- By induction on the frames, the lines of the open block held. -/
theorem outcome_eq_expect (cut : Nat → Bool) (frames : List Frame) (n : Nat)
    (held : List (Chars × Bool)) (each : ∀ entry ∈ held, Held entry) :
    outcome check (heldText held ++ normaliseCut cut n (encodeAll frames)) =
      expect check cut n (fieldsOf {} held) frames := by
  induction frames generalizing n held with
  | nil =>
    rw [encodeAll, List.flatMap_nil, normaliseCut, List.append_nil, outcome_none (findBoundary_held each),
      finish_held each]
    rfl
  | cons frame rest ih =>
    have plain : ∀ line ∈ frame.lines, '\r' ∉ line := fun line isLine =>
      (sent_lines frame line isLine).return
    have both : ∀ entry ∈ held ++ markLines cut n frame.lines, Held entry := by
      intro entry isIn
      obtain isHeld | isNew := List.mem_append.mp isIn
      · exact each entry isHeld
      · exact held_markLines cut n frame entry isNew
    have some : held ++ markLines cut n frame.lines ≠ [] := by
      intro empty
      have none := (List.append_eq_nil_iff.mp empty).2
      have lines := markLines_lines cut n frame.lines
      rw [none] at lines
      exact lines_ne_nil frame lines.symm
    have read : fieldsOf {} (held ++ markLines cut n frame.lines) =
        frame.lines.foldl readLine (fieldsOf {} held) := by
      rw [fieldsOf_append, fieldsOf_markLines]
    -- the frame's lines, the end of its empty line, and the rest
    have text : heldText held ++ normaliseCut cut n (encodeAll (frame :: rest)) =
        heldText (held ++ markLines cut n frame.lines) ++
          (lineEnd (cut (n + frame.encode.length - 1)) ++
            normaliseCut cut (n + frame.encode.length) (encodeAll rest)) := by
      have whole : encodeAll (frame :: rest) =
          frame.lines.flatMap (· ++ crlf) ++ ([] ++ crlf ++ encodeAll rest) := by
        simp [encodeAll, Frame.encode]
      have length : frame.encode.length = (frame.lines.flatMap (· ++ crlf)).length + 2 := by
        simp [Frame.encode, crlf]
      rw [whole, normaliseCut_lines plain, normaliseCut_line List.not_mem_nil, heldText_append, length]
      simp only [List.append_assoc, List.nil_append, List.length_nil, Nat.add_zero]
      rw [show n + ((frame.lines.flatMap (· ++ crlf)).length + 2) - 1 =
        n + (frame.lines.flatMap (· ++ crlf)).length + 1 by omega, Nat.add_assoc n _ 2]
    rw [text, expect, ← read]
    split
    case isTrue isCut =>
      have open' : ∀ entry ∈ held ++ markLines cut n frame.lines ++ [([], true)], Held entry := by
        intro entry isIn
        obtain isIn | isEmpty := List.mem_append.mp isIn
        · exact both entry isIn
        · exact .inr (List.mem_singleton.mp isEmpty)
      have more := ih (n + frame.encode.length) _ open'
      rw [heldText_append, fieldsOf_append, List.append_assoc] at more
      rw [isCut]
      exact more
    case isFalse isWhole =>
      have later := ih (n + frame.encode.length) [] (by simp)
      rw [Bool.not_eq_true] at isWhole
      rw [isWhole, show lineEnd false = ['\n'] from rfl, List.singleton_append,
        outcome_some (findBoundary_end some _ both), parseFrame, readLines_blockText some _ both]
      exact congrArg (fun tail : List SseFrame × Option TransportError =>
        match (fieldsOf {} (held ++ markLines cut n frame.lines)).frame check with
        | .error message => ([], Option.some message)
        | .ok found => (found.toList ++ tail.1, tail.2)) later

end Counselle.Sse
