import Counselle.CommonMark

/-! Code spans and fenced code blocks, as CommonMark defines them. -/
namespace Counselle.CommonMark

/-- The null character reads as the replacement character. -/
def secured (c : Char) : Char := if c = '\x00' then '\uFFFD' else c

theorem not_mem_map_secured (text : List Char) : '\x00' ∉ text.map secured := by
  intro bad
  obtain ⟨c, -, isNull⟩ := List.mem_map.mp bad
  rw [secured] at isNull
  split at isNull
  · exact absurd isNull (by decide)
  · contradiction

theorem map_secured {text : List Char} : text.map secured = text ↔ '\x00' ∉ text := by
  constructor
  · intro same bad
    rw [← same] at bad
    exact not_mem_map_secured text bad
  · intro clean
    refine (List.map_congr_left fun c isIn => ?_).trans (List.map_id text)
    rw [secured, if_neg]
    · rfl
    · rintro rfl
      exact clean isIn

section Runs
variable {mark : Char} {n pending : Nat}

/-- The lengths of the runs of the mark, where `pending` marks stand in front. -/
def runs (mark : Char) : Nat → List Char → List Nat
  | pending, [] => if pending = 0 then [] else [pending]
  | pending, c :: rest =>
    if c = mark then runs mark (pending + 1) rest
    else if pending = 0 then runs mark 0 rest
    else pending :: runs mark 0 rest

theorem run_cons (mark c : Char) (rest : List Char) :
    run mark (c :: rest) = if c = mark then run mark rest + 1 else 0 := by
  rw [run, List.takeWhile_cons]
  split <;> simp_all [run]

theorem behindRun_cons (mark c : Char) (rest : List Char) :
    behindRun mark (c :: rest) = if c = mark then behindRun mark rest else c :: rest := by
  rw [behindRun, List.dropWhile_cons]
  simp [behindRun]

theorem run_replicate (n : Nat) {rest : List Char} (other : rest.head? ≠ some mark) :
    run mark (List.replicate n mark ++ rest) = n := by
  induction n with
  | zero =>
    cases rest with
    | nil => rfl
    | cons c rest => exact (run_cons mark c rest).trans (if_neg fun same => other (congrArg some same))
  | succ n ih => rw [List.replicate_succ, List.cons_append, run_cons, if_pos rfl, ih]

theorem behindRun_replicate (n : Nat) {rest : List Char} (other : rest.head? ≠ some mark) :
    behindRun mark (List.replicate n mark ++ rest) = rest := by
  induction n with
  | zero =>
    cases rest with
    | nil => rfl
    | cons c rest => exact (behindRun_cons mark c rest).trans (if_neg fun same => other (congrArg some same))
  | succ n ih => rw [List.replicate_succ, List.cons_append, behindRun_cons, if_pos rfl, ih]

theorem run_append_le (mark : Char) (front back : List Char) : run mark front ≤ run mark (front ++ back) := by
  induction front with
  | nil => exact Nat.zero_le _
  | cons c front ih =>
    rw [List.cons_append, run_cons, run_cons]
    split
    · exact Nat.succ_le_succ ih
    · exact Nat.le_refl 0

theorem pending_mem_runs (text : List Char) (some : 0 < pending + run mark text) :
    pending + run mark text ∈ runs mark pending text := by
  induction text generalizing pending with
  | nil =>
    have isRun : pending + run mark [] = pending := rfl
    rw [isRun] at some ⊢
    rw [runs, if_neg (Nat.ne_of_gt some)]
    exact List.mem_singleton_self pending
  | cons c rest ih =>
    rw [run_cons] at some ⊢
    rw [runs]
    by_cases here : c = mark
    · rw [if_pos here, ← Nat.add_assoc, Nat.add_right_comm] at some
      rw [if_pos here, if_pos here, ← Nat.add_assoc, Nat.add_right_comm]
      exact ih some
    · rw [if_neg here, Nat.add_zero] at some
      rw [if_neg here, if_neg here, Nat.add_zero, if_neg (Nat.ne_of_gt some)]
      exact List.mem_cons_self

theorem runs_ended {c : Char} (other : c ≠ mark) {rest : List Char} (positive : 0 < n)
    (below : ∀ r ∈ runs mark pending (c :: rest), r < n) : pending < n ∧ ∀ r ∈ runs mark 0 rest, r < n := by
  rw [runs, if_neg other] at below
  split at below
  case isTrue none => exact ⟨none ▸ positive, below⟩
  case isFalse _ => exact List.forall_mem_cons.mp below

theorem run_lt_of_runs {front back : List Char} (below : ∀ r ∈ runs mark pending (front ++ back), r < n)
    (positive : 0 < n) : run mark back < n := by
  induction front generalizing pending with
  | nil =>
    obtain none | some := Nat.eq_zero_or_pos (pending + run mark back)
    · omega
    · exact Nat.lt_of_le_of_lt (Nat.le_add_left _ _) (below _ (pending_mem_runs back some))
  | cons c front ih =>
    by_cases here : c = mark
    · rw [List.cons_append, runs, if_pos here] at below
      exact ih below
    · exact ih (runs_ended here positive below).2

end Runs

/-- What is before the next run of `n` backticks, of which `pending` have been seen, and
what is behind it. -/
def untilRun (n : Nat) : Nat → List Char → Option (List Char × List Char)
  | pending, [] => if pending = n then some ([], []) else none
  | pending, c :: rest =>
    if c = '`' then untilRun n (pending + 1) rest
    else if pending = n then some ([], c :: rest)
    else (untilRun n 0 rest).map fun (content, behind) => (List.replicate pending '`' ++ c :: content, behind)

def asOneLine (content : List Char) : List Char := [' '].intercalate (lines content)

/-- One space goes from each side where both sides are spaces, unless there is nothing else. -/
def stripSpan (content : List Char) : List Char :=
  if content.head? = some ' ' ∧ content.getLast? = some ' ' ∧ ¬ content.all (· = ' ') then content.tail.dropLast
  else content

/-- The content of the code span that a text starts with, and what is behind the span. -/
def readSpan (text : List Char) : Option (List Char × List Char) :=
  if run '`' text = 0 then none
  else (untilRun (run '`' text) 0 (behindRun '`' text)).map fun (content, behind) =>
    ((stripSpan (asOneLine content)).map secured, behind)

section Span
variable {n pending : Nat}

theorem untilRun_fence (more : Nat) : untilRun (pending + more) pending (List.replicate more '`') = some ([], []) := by
  induction more generalizing pending with
  | zero => exact if_pos rfl
  | succ more ih =>
    rw [List.replicate_succ, untilRun, if_pos rfl, ← Nat.add_assoc, Nat.add_right_comm]
    exact ih

theorem untilRun_content (content : List Char) {last : Char} (other : last ≠ '`') (positive : 0 < n)
    (shorter : ∀ r ∈ runs '`' pending (content ++ [last]), r < n) :
    untilRun n pending (content ++ last :: List.replicate n '`') =
      some (List.replicate pending '`' ++ (content ++ [last]), []) := by
  induction content generalizing pending with
  | nil =>
    obtain ⟨notYet, -⟩ := runs_ended other positive shorter
    have fence := @untilRun_fence 0 n
    rw [Nat.zero_add] at fence
    rw [List.nil_append, untilRun, if_neg other, if_neg (Nat.ne_of_lt notYet), fence]
    rfl
  | cons c content ih =>
    rw [List.cons_append, untilRun]
    split
    case isTrue here =>
      rw [List.cons_append, runs, if_pos here] at shorter
      rw [ih shorter, here, List.replicate_succ']
      simp
    case isFalse text =>
      obtain ⟨notYet, later⟩ := runs_ended text positive shorter
      rw [if_neg (Nat.ne_of_lt notYet), ih later]
      rfl

theorem readSpan_fenced {content : List Char} (start : content.head? ≠ some '`') (stop : content.getLast? ≠ some '`')
    (isSome : content ≠ []) (positive : 0 < n) (shorter : ∀ r ∈ runs '`' 0 content, r < n) :
    readSpan (List.replicate n '`' ++ (content ++ List.replicate n '`')) =
      some ((stripSpan (asOneLine content)).map secured, []) := by
  have other : (content ++ List.replicate n '`').head? ≠ some '`' := by
    rwa [List.head?_append_of_ne_nil _ isSome]
  obtain ⟨front, last, rfl⟩ := List.eq_nil_or_concat' content |>.resolve_left isSome
  rw [List.getLast?_concat] at stop
  rw [readSpan, run_replicate n other, behindRun_replicate n other, if_neg (Nat.ne_of_gt positive), List.append_assoc]
  rw [show front ++ ([last] ++ List.replicate n '`') = front ++ last :: List.replicate n '`' from rfl,
    untilRun_content front (fun same => stop (congrArg some same)) positive shorter]
  rfl

theorem lines_single {text : List Char} (noFeed : '\n' ∉ text) (noReturn : '\r' ∉ text) : lines text = [text] := by
  induction text with
  | nil => rfl
  | cons c rest ih =>
    rw [List.mem_cons, not_or] at noFeed noReturn
    rw [lines, if_neg (not_or.mpr ⟨Ne.symm noFeed.1, Ne.symm noReturn.1⟩), ih noFeed.2 noReturn.2]
    · rfl
    · exact fun _ same => absurd same (Ne.symm noReturn.1)

theorem asOneLine_single {text : List Char} (noFeed : '\n' ∉ text) (noReturn : '\r' ∉ text) : asOneLine text = text := by
  rw [asOneLine, lines_single noFeed noReturn, List.intercalate_singleton]

end Span

structure Fence where
  mark : Char
  length : Nat
  indent : Nat
  info : List Char

def openingFence (line : List Char) : Option Fence :=
  let body := dropIndent 3 line
  let indent := line.length - body.length
  if isBacktickFence body then some ⟨'`', run '`' body, indent, behindRun '`' body⟩
  else if isTildeFence body then some ⟨'~', run '~' body, indent, behindRun '~' body⟩
  else none

def closesFence (fence : Fence) (line : List Char) : Bool :=
  let body := dropIndent 3 line
  fence.length ≤ run fence.mark body && (behindRun fence.mark body).all isGap

/-- The info string of a code block, its lines, each with its ending, and the lines behind. -/
structure FencedCode where
  info : List Char
  content : List Char
  behind : List (List Char)

def contentLines (fence : Fence) (rest : List (List Char)) : List (List Char) :=
  rest.takeWhile fun line => !closesFence fence line

/-- The code block that a text starts with and that a closing fence ends. -/
def readFence (text : List Char) : Option FencedCode :=
  match lines text with
  | [] => none
  | first :: rest =>
    (openingFence first).bind fun fence =>
      match rest.dropWhile fun line => !closesFence fence line with
      | [] => none
      | _ :: behind => some {
        info := fence.info.map secured
        content := (((contentLines fence rest).map (dropIndent fence.indent)).flatMap (· ++ ['\n'])).map secured
        behind }

section Lines
variable {text : List Char}

theorem dropIndent_suffix (n : Nat) (line : List Char) : dropIndent n line <:+ line := by
  fun_induction dropIndent n line with
  | case1 n rest ih => exact ih.trans (List.suffix_cons ' ' rest)
  | case2 n line _ => exact List.suffix_refl line

theorem lines_cons_of_ne {c : Char} (noReturn : c ≠ '\r') (rest : List Char) :
    lines (c :: rest) = if c = '\n' then [] :: lines rest else (lines rest).modifyHead (c :: ·) := by
  rw [lines]
  · simp only [noReturn, or_false]
  · exact fun _ same => absurd same noReturn

theorem lines_append_feed {front : List Char} (noReturn : '\r' ∉ front) (rest : List Char) :
    lines (front ++ '\n' :: rest) = lines front ++ lines rest := by
  induction front with
  | nil => exact lines_cons_of_ne (by decide) rest
  | cons c front ih =>
    rw [List.mem_cons, not_or] at noReturn
    rw [List.cons_append, lines_cons_of_ne (Ne.symm noReturn.1), lines_cons_of_ne (Ne.symm noReturn.1), ih noReturn.2]
    split
    · rfl
    · obtain ⟨first, others, more, areLines, -, -⟩ := lines_pieces front
      rw [areLines]
      rfl

theorem flatMap_lines (noReturn : '\r' ∉ text) : (lines text).flatMap (· ++ ['\n']) = text ++ ['\n'] := by
  induction text with
  | nil => rfl
  | cons c rest ih =>
    rw [List.mem_cons, not_or] at noReturn
    rw [lines_cons_of_ne (Ne.symm noReturn.1)]
    split
    case isTrue feed => rw [List.flatMap_cons, ih noReturn.2, feed]; rfl
    case isFalse _ =>
      have later := ih noReturn.2
      obtain ⟨first, others, more, areLines, -, -⟩ := lines_pieces rest
      rw [areLines, List.flatMap_cons] at later
      rw [areLines, List.modifyHead_cons, List.flatMap_cons, List.cons_append, List.cons_append, later]
      rfl

theorem lines_infix (text : List Char) : ∃ first others, lines text = first :: others ∧ first <+: text ∧
    ∀ line ∈ others, line <:+: text := by
  fun_induction lines text with
  | case1 => exact ⟨[], [], rfl, List.prefix_refl _, List.forall_mem_nil _⟩
  | case2 rest ih =>
    obtain ⟨first, others, areLines, isFirst, areOthers⟩ := ih
    refine ⟨[], first :: others, by rw [areLines], List.nil_prefix, ?_⟩
    rw [List.forall_mem_cons]
    exact ⟨isFirst.isInfix.trans (List.suffix_append ['\r', '\n'] rest).isInfix,
      fun line isIn => (areOthers line isIn).trans (List.suffix_append ['\r', '\n'] rest).isInfix⟩
  | case3 c rest _ _ ih =>
    obtain ⟨first, others, areLines, isFirst, areOthers⟩ := ih
    refine ⟨[], first :: others, by rw [areLines], List.nil_prefix, ?_⟩
    rw [List.forall_mem_cons]
    exact ⟨isFirst.isInfix.trans (List.suffix_cons c rest).isInfix,
      fun line isIn => (areOthers line isIn).trans (List.suffix_cons c rest).isInfix⟩
  | case4 c rest _ _ ih =>
    obtain ⟨first, others, areLines, isFirst, areOthers⟩ := ih
    refine ⟨c :: first, others, by rw [areLines]; rfl, List.cons_prefix_cons.mpr ⟨rfl, isFirst⟩, ?_⟩
    exact fun line isIn => (areOthers line isIn).trans (List.suffix_cons c rest).isInfix

theorem no_return_of_mem_lines {line : List Char} (isLine : line ∈ lines text) : '\r' ∉ line := by
  fun_induction lines text generalizing line with
  | case1 => rw [List.mem_singleton.mp isLine]; exact List.not_mem_nil
  | case2 rest ih =>
    obtain rfl | later := List.mem_cons.mp isLine
    · exact List.not_mem_nil
    · exact ih later
  | case3 c rest _ _ ih =>
    obtain rfl | later := List.mem_cons.mp isLine
    · exact List.not_mem_nil
    · exact ih later
  | case4 c rest _ inner ih =>
    obtain ⟨first, others, more, areLines, -, -⟩ := lines_pieces rest
    rw [areLines] at ih isLine
    obtain rfl | later := List.mem_cons.mp isLine
    · rw [List.mem_cons, not_or]
      exact ⟨fun same => inner (Or.inr same.symm), ih List.mem_cons_self⟩
    · exact ih (List.mem_cons_of_mem _ later)

end Lines

section Block
variable {text : List Char} {n : Nat}

theorem dropIndent_backticks (positive : 0 < n) (rest : List Char) :
    dropIndent 3 (List.replicate n '`' ++ rest) = List.replicate n '`' ++ rest := by
  obtain ⟨more, rfl⟩ := Nat.exists_eq_succ_of_ne_zero (Nat.ne_of_gt positive)
  rfl

theorem openingFence_backticks {info : List Char} (three : 3 ≤ n) (noMark : '`' ∉ info) :
    openingFence (List.replicate n '`' ++ info) = some ⟨'`', n, 0, info⟩ := by
  have other : info.head? ≠ some '`' := fun same => noMark (List.mem_of_head? same)
  rw [openingFence, dropIndent_backticks (by omega), isBacktickFence, run_replicate n other, behindRun_replicate n other,
    Nat.sub_self, if_pos]
  simpa using ⟨three, noMark⟩

theorem closesFence_backticks (three : 3 ≤ n) (info : List Char) :
    closesFence ⟨'`', n, 0, info⟩ (List.replicate n '`') = true := by
  have noRest : ([] : List Char).head? ≠ some '`' := nofun
  have alone := dropIndent_backticks (n := n) (by omega) []
  have isRun := run_replicate n noRest
  have isBehind := behindRun_replicate n noRest
  rw [List.append_nil] at alone isRun isBehind
  rw [closesFence, alone, isRun, isBehind]
  simp

theorem closesFence_line {info line : List Char} (positive : 0 < n) (isLine : line ∈ lines text)
    (shorter : ∀ r ∈ runs '`' 0 text, r < n) : closesFence ⟨'`', n, 0, info⟩ line = false := by
  obtain ⟨first, others, areLines, isFirst, areOthers⟩ := lines_infix text
  have within : line <:+: text := by
    rw [areLines] at isLine
    obtain rfl | later := List.mem_cons.mp isLine
    · exact isFirst.isInfix
    · exact areOthers line later
  obtain ⟨front, whole⟩ := dropIndent_suffix 3 line
  obtain ⟨before, behind, rfl⟩ := within
  rw [← whole, List.append_assoc, List.append_assoc, ← List.append_assoc before] at shorter
  have below := run_lt_of_runs shorter positive
  have least := run_append_le '`' (dropIndent 3 line) behind
  rw [closesFence, decide_eq_false (Nat.not_le.mpr (Nat.lt_of_le_of_lt least below)), Bool.false_and]

theorem readFence_content {code : FencedCode} (read : readFence text = some code) :
    '\r' ∉ code.content ∧ '\x00' ∉ code.content := by
  rw [readFence] at read
  obtain ⟨first, others, more, areLines, -, -⟩ := lines_pieces text
  rw [areLines] at read
  obtain ⟨fence, -, read⟩ := Option.bind_eq_some_iff.mp read
  split at read
  case h_1 => cases read
  case h_2 =>
    cases read
    refine ⟨fun bad => ?_, not_mem_map_secured _⟩
    obtain ⟨c, isIn, isReturn⟩ := List.mem_map.mp bad
    have same : c = '\r' := by
      rw [secured] at isReturn
      split at isReturn
      · exact absurd isReturn (by decide)
      · exact isReturn
    subst same
    obtain ⟨cut, isCut, isIn⟩ := List.mem_flatMap.mp isIn
    obtain ⟨line, isLine, rfl⟩ := List.mem_map.mp isCut
    obtain inLine | bad := List.mem_append.mp isIn
    · have inText : line ∈ lines text := areLines ▸ List.mem_cons_of_mem _ ((List.takeWhile_sublist _).mem isLine)
      exact no_return_of_mem_lines inText ((dropIndent_suffix _ line).sublist.mem inLine)
    · exact absurd bad (by decide)

theorem readFence_backticks {info : List Char} (three : 3 ≤ n) (noMark : '`' ∉ info) (infoFeed : '\n' ∉ info)
    (infoReturn : '\r' ∉ info) (noReturn : '\r' ∉ text) (shorter : ∀ r ∈ runs '`' 0 text, r < n) :
    readFence (List.replicate n '`' ++ info ++ '\n' :: (text ++ '\n' :: List.replicate n '`')) =
      some { info := info.map secured, content := (text ++ ['\n']).map secured, behind := [] } := by
  have positive : 0 < n := by omega
  have noEnding (c : Char) (other : c ≠ '`') : c ∉ List.replicate n '`' := fun bad => other (List.eq_of_mem_replicate bad)
  have firstLine : lines (List.replicate n '`' ++ info) = [List.replicate n '`' ++ info] :=
    lines_single (List.not_mem_append (noEnding _ (by decide)) infoFeed)
      (List.not_mem_append (noEnding _ (by decide)) infoReturn)
  have lastLine := lines_single (noEnding '\n' (by decide)) (noEnding '\r' (by decide))
  have isText : ∀ line ∈ lines text, (!closesFence ⟨'`', n, 0, info⟩ line) = true := fun line isLine => by
    rw [closesFence_line positive isLine shorter]
    rfl
  rw [readFence, lines_append_feed (List.not_mem_append (noEnding _ (by decide)) infoReturn), firstLine,
    lines_append_feed noReturn, lastLine]
  simp only [List.singleton_append]
  rw [openingFence_backticks three noMark, Option.bind_some, contentLines, List.dropWhile_append_of_pos isText,
    List.takeWhile_append_of_pos isText]
  simp only [List.dropWhile_cons, List.takeWhile_cons, closesFence_backticks three, Bool.not_true, Bool.false_eq_true,
    if_false, List.append_nil]
  rw [← flatMap_lines noReturn]
  simp [dropIndent]

end Block

end Counselle.CommonMark
