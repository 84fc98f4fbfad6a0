import Counselle.Essays.Escaping
import Counselle.Lines

/-! Whether the lines of a paragraph of plain text are lines of a paragraph to CommonMark
as well, and which are not. -/
namespace Counselle.Essays.Escaping
open PyText (isSpace)
open CommonMark Lines

def isPlain (c : Char) : Bool := !alwaysEscape.contains c && c ≠ '_'

section Inline
variable {isAlnum : Char → Bool}

theorem escapeChar_plain {c : Char} (plain : isPlain c = true) (previous : Option Char) (rest : List Char) :
    escapeChar isAlnum previous c rest = [c] := by
  rw [isPlain, Bool.and_eq_true, Bool.not_eq_true', decide_eq_true_eq] at plain
  rw [escapeChar, plain.1, if_neg (by decide), if_neg plain.2]

theorem escapeChar_marked {c : Char} (marked : isPlain c = false) (previous : Option Char) (rest : List Char) :
    escapeChar isAlnum previous c rest = ['\\', c] ∨
      (c = '_' ∧ previous.any isAlnum = true ∧ escapeChar isAlnum previous c rest = [c]) := by
  unfold escapeChar
  split
  · exact Or.inl rfl
  next quiet =>
    have underscore : c = '_' := by
      rw [isPlain, Bool.and_eq_false_iff, Bool.not_eq_false', decide_eq_false_iff_not, not_not] at marked
      exact marked.resolve_left quiet
    subst underscore
    rw [if_pos rfl]
    split
    next word =>
      rw [Bool.and_eq_true] at word
      exact Or.inr ⟨rfl, word.1, rfl⟩
    · exact Or.inl rfl

theorem escapeFrom_plain {text : List Char} (plain : ∀ c ∈ text, isPlain c = true) (previous : Option Char) :
    escapeFrom isAlnum previous text = text := by
  induction text generalizing previous with
  | nil => rfl
  | cons c rest ih =>
    rw [List.forall_mem_cons] at plain
    rw [escapeFrom, escapeChar_plain plain.1, ih plain.2]
    rfl

theorem escapeFrom_cons_marked {c : Char} (marked : isPlain c = false) (previous : Option Char) (rest : List Char) :
    ∃ d tail, escapeFrom isAlnum previous (c :: rest) = d :: tail ∧ isPlain d = false := by
  rw [escapeFrom]
  rcases escapeChar_marked marked previous rest with same | ⟨-, -, same⟩
  · exact ⟨'\\', c :: escapeFrom isAlnum (some c) rest, by rw [same]; rfl, by decide⟩
  · exact ⟨c, escapeFrom isAlnum (some c) rest, by rw [same]; rfl, marked⟩

section Quiet
variable {quiet : Char → Bool} (isQuiet : ∀ c, quiet c = true → isPlain c = true)
include isQuiet

theorem quiet_marked {c : Char} (marked : isPlain c = false) : ¬ quiet c = true := by
  intro isIn
  rw [isQuiet c isIn] at marked
  cases marked

theorem takeWhile_escapeFrom (previous : Option Char) (text : List Char) :
    (escapeFrom isAlnum previous text).takeWhile quiet = text.takeWhile quiet := by
  induction text generalizing previous with
  | nil => rfl
  | cons c rest ih =>
    cases plain : isPlain c with
    | true =>
      rw [escapeFrom, escapeChar_plain plain, List.singleton_append, List.takeWhile_cons, List.takeWhile_cons, ih]
    | false =>
      obtain ⟨d, tail, same, marked⟩ := @escapeFrom_cons_marked isAlnum c plain previous rest
      rw [same, List.takeWhile_cons_of_neg (quiet_marked isQuiet marked),
        List.takeWhile_cons_of_neg (quiet_marked isQuiet plain)]

theorem dropWhile_escapeFrom (previous : Option Char) (text : List Char) :
    ∃ last, (escapeFrom isAlnum previous text).dropWhile quiet = escapeFrom isAlnum last (text.dropWhile quiet) := by
  induction text generalizing previous with
  | nil => exact ⟨previous, rfl⟩
  | cons c rest ih =>
    by_cases isIn : quiet c = true
    · obtain ⟨last, same⟩ := ih (some c)
      refine ⟨last, ?_⟩
      rw [escapeFrom, escapeChar_plain (isQuiet c isIn), List.singleton_append, List.dropWhile_cons_of_pos isIn,
        List.dropWhile_cons_of_pos isIn, same]
    · refine ⟨previous, ?_⟩
      rw [List.dropWhile_cons_of_neg isIn]
      cases plain : isPlain c with
      | true =>
        rw [escapeFrom, escapeChar_plain plain, List.singleton_append, List.dropWhile_cons_of_neg isIn]
      | false =>
        obtain ⟨d, tail, same, marked⟩ := @escapeFrom_cons_marked isAlnum c plain previous rest
        rw [same, List.dropWhile_cons_of_neg (quiet_marked isQuiet marked)]

theorem all_escapeFrom (previous : Option Char) (text : List Char) :
    (escapeFrom isAlnum previous text).all quiet = text.all quiet := by
  induction text generalizing previous with
  | nil => rfl
  | cons c rest ih =>
    cases plain : isPlain c with
    | true => rw [escapeFrom, escapeChar_plain plain, List.singleton_append, List.all_cons, List.all_cons, ih]
    | false =>
      obtain ⟨d, tail, same, marked⟩ := @escapeFrom_cons_marked isAlnum c plain previous rest
      have stops (e : Char) (marked : isPlain e = false) : quiet e = false := by
        simpa using quiet_marked isQuiet marked
      rw [same, List.all_cons, List.all_cons, stops d marked, stops c plain, Bool.false_and, Bool.false_and]

end Quiet

theorem mem_escapeFrom {previous : Option Char} {text : List Char} {c : Char}
    (isIn : c ∈ escapeFrom isAlnum previous text) : c = '\\' ∨ c ∈ text := by
  induction text generalizing previous with
  | nil => cases isIn
  | cons d rest ih =>
    rw [escapeFrom, List.mem_append] at isIn
    rcases isIn with here | later
    · cases plain : isPlain d with
      | true =>
        rw [escapeChar_plain plain, List.mem_singleton] at here
        exact Or.inr (here ▸ List.mem_cons_self)
      | false =>
        rcases @escapeChar_marked isAlnum d plain previous rest with same | ⟨-, -, same⟩
        · rw [same, List.mem_cons, List.mem_singleton] at here
          exact here.imp_right fun (same : c = d) => same ▸ List.mem_cons_self
        · rw [same, List.mem_singleton] at here
          exact Or.inr (here ▸ List.mem_cons_self)
    · exact (ih later).imp_right (List.mem_cons_of_mem d)

/-! A mark that is neither escaped nor part of a word parts the text. -/

section Parted
variable {mark : Char} (plain : isPlain mark = true) (apart : isAlnum mark = false)
include apart

theorem escapeFrom_apart (text : List Char) :
    escapeFrom isAlnum (some mark) text = escapeFrom isAlnum none text := by
  cases text with
  | nil => rfl
  | cons c rest => rw [escapeFrom, escapeFrom, escapeChar, escapeChar, Option.any_some, Option.any_none, apart]

theorem escapeChar_append (previous : Option Char) (c : Char) (text rest : List Char) :
    escapeChar isAlnum previous c (text ++ mark :: rest) = escapeChar isAlnum previous c text := by
  cases text with
  | nil =>
    rw [List.nil_append, escapeChar, escapeChar, List.head?_cons, List.head?_nil, Option.any_some, Option.any_none,
      apart]
  | cons => rfl

include plain

theorem escapeFrom_append (previous : Option Char) (text rest : List Char) :
    escapeFrom isAlnum previous (text ++ mark :: rest) =
      escapeFrom isAlnum previous text ++ mark :: escapeInline isAlnum rest := by
  induction text generalizing previous with
  | nil =>
    rw [List.nil_append, escapeFrom, escapeFrom, escapeChar_plain plain, escapeFrom_apart apart]
    rfl
  | cons c text ih =>
    rw [List.cons_append, escapeFrom, escapeFrom, ih, escapeChar_append apart, List.append_assoc]

theorem escapeInline_joined (first : List Char) (rest : List (List Char)) :
    escapeInline isAlnum (joined mark first rest) =
      joined mark (escapeInline isAlnum first) (rest.map (escapeInline isAlnum)) := by
  induction rest generalizing first with
  | nil => simp [joined]
  | cons next rest ih =>
    have split : joined mark first (next :: rest) = first ++ mark :: joined mark next rest := by simp [joined]
    rw [split, escapeInline, escapeFrom_append plain apart, ih]
    simp [joined, escapeInline]

end Parted

/-- The marks of blocks that the inline pass escapes at the start of a piece. -/
def innerMarks : List Char := ['*', '_', '`', '~']

/-- The piece starts a block with a mark that the inline pass leaves. -/
def plainStart (piece : List Char) : Bool := opensBlock piece && !piece.head?.any innerMarks.contains

def Unindented (line : List Char) : Prop := line.head?.any isGap = false

instance : DecidablePred Unindented := fun line => inferInstanceAs (Decidable (line.head?.any isGap = false))

theorem dropIndent_unindented {line : List Char} (unindented : Unindented line) (n : Nat) :
    dropIndent n line = line := by
  cases line with
  | nil => cases n <;> rfl
  | cons c rest =>
    have solid : c ≠ ' ' := by
      rintro rfl
      cases unindented
    cases n with
    | zero => rfl
    | succ n =>
      unfold dropIndent
      split
      next same => exact absurd (List.cons.inj same).1 solid
      · rfl

theorem opensBlock_unindented {line : List Char} (unindented : Unindented line) :
    opensBlock line = startsBlock line := by
  rw [opensBlock, dropIndent_unindented unindented]

theorem quiet_of_marks {quiet : Char → Bool} (none : ('_' :: alwaysEscape).all (!quiet ·) = true) :
    ∀ c, quiet c = true → isPlain c = true := by
  intro c isIn
  rw [isPlain, Bool.and_eq_true, Bool.not_eq_true', decide_eq_true_eq]
  rw [List.all_eq_true] at none
  constructor
  · by_contra escaped
    rw [Bool.not_eq_false, List.contains_iff_mem] at escaped
    simpa [isIn] using none c (List.mem_cons_of_mem _ escaped)
  · rintro rfl
    simpa [isIn] using none '_' List.mem_cons_self

theorem isPlain_of_isGap : ∀ c, isGap c = true → isPlain c = true := quiet_of_marks (by decide)

theorem isPlain_of_isDigit : ∀ c, Char.isDigit c = true → isPlain c = true := quiet_of_marks (by decide)

theorem isPlain_of_isSpace : ∀ c, isSpace c = true → isPlain c = true := quiet_of_marks (by decide)

theorem isPlain_of_eq {mark : Char} (plain : isPlain mark = true) :
    ∀ c, decide (c = mark) = true → isPlain c = true := by
  intro c same
  rwa [of_decide_eq_true same]

theorem endsMarker_escapeFrom (previous : Option Char) (text : List Char) :
    endsMarker (escapeFrom isAlnum previous text) = endsMarker text := by
  cases text with
  | nil => rfl
  | cons c rest =>
    cases plain : isPlain c with
    | true =>
      rw [escapeFrom, escapeChar_plain plain]
      rfl
    | false =>
      obtain ⟨d, tail, same, marked⟩ := @escapeFrom_cons_marked isAlnum c plain previous rest
      have stops (e : Char) (marked : isPlain e = false) : isGap e = false := by
        simpa using quiet_marked isPlain_of_isGap marked
      rw [same, endsMarker, endsMarker, stops d marked, stops c plain]

theorem run_escapeFrom {mark : Char} (plain : isPlain mark = true) (previous : Option Char) (text : List Char) :
    run mark (escapeFrom isAlnum previous text) = run mark text :=
  congrArg List.length (takeWhile_escapeFrom (isPlain_of_eq plain) previous text)

theorem isAtxHeading_escapeFrom (previous : Option Char) (text : List Char) :
    isAtxHeading (escapeFrom isAlnum previous text) = isAtxHeading text := by
  obtain ⟨last, behind⟩ := @dropWhile_escapeFrom isAlnum _ (isPlain_of_eq (by decide : isPlain '#' = true)) previous text
  rw [isAtxHeading, isAtxHeading, run_escapeFrom (by decide), behindRun, behind, endsMarker_escapeFrom, behindRun]

theorem isSetextUnderlineOf_escapeFrom {mark : Char} (plain : isPlain mark = true) (previous : Option Char)
    (text : List Char) :
    isSetextUnderlineOf mark (escapeFrom isAlnum previous text) = isSetextUnderlineOf mark text := by
  obtain ⟨last, behind⟩ := @dropWhile_escapeFrom isAlnum _ (isPlain_of_eq plain) previous text
  rw [isSetextUnderlineOf, isSetextUnderlineOf, run_escapeFrom plain, behindRun, behind,
    all_escapeFrom isPlain_of_isGap, behindRun]

theorem isOrderedItem_escapeFrom (previous : Option Char) (text : List Char) :
    isOrderedItem (escapeFrom isAlnum previous text) = isOrderedItem text := by
  obtain ⟨last, behind⟩ := @dropWhile_escapeFrom isAlnum _ isPlain_of_isDigit previous text
  rw [isOrderedItem, isOrderedItem, takeWhile_escapeFrom isPlain_of_isDigit, behind]
  cases text.dropWhile Char.isDigit with
  | nil => rfl
  | cons c rest =>
    cases plain : isPlain c with
    | true =>
      rw [escapeFrom, escapeChar_plain plain, List.singleton_append]
      simp only [endsMarker_escapeFrom]
    | false =>
      obtain ⟨d, tail, same, marked⟩ := @escapeFrom_cons_marked isAlnum c plain last rest
      have stops (e : Char) (marked : isPlain e = false) : (decide (e = '.') || decide (e = ')')) = false := by
        simpa using quiet_marked (@quiet_of_marks (fun c => decide (c = '.') || decide (c = ')')) (by decide)) marked
      rw [same]
      simp only [stops d marked, stops c plain, Bool.false_and]

theorem isThematicBreakOf_escapeFrom {mark : Char} (plain : isPlain mark = true) (previous : Option Char)
    (text : List Char) (head : (escapeFrom isAlnum previous text).head? = some mark ↔ text.head? = some mark) :
    isThematicBreakOf mark (escapeFrom isAlnum previous text) = isThematicBreakOf mark text := by
  have isQuiet : ∀ c, (decide (c = mark) || isGap c) = true → isPlain c = true := by
    intro c isIn
    rw [Bool.or_eq_true] at isIn
    exact isIn.elim (isPlain_of_eq plain c) (isPlain_of_isGap c)
  rw [isThematicBreakOf, isThematicBreakOf, all_escapeFrom isQuiet, decide_eq_decide.mpr head]
  cases every : text.all fun c => decide (c = mark) || isGap c with
  | false => simp
  | true =>
    rw [List.all_eq_true] at every
    rw [escapeFrom_plain fun c isIn => isQuiet c (every c isIn)]

def blockMarks : List Char := ['#', '-', '+', '*', '>', '`', '~', '_', '=']

theorem startsBlock_unmarked {c : Char} (unmarked : blockMarks.contains c = false) (rest : List Char) :
    startsBlock (c :: rest) = isOrderedItem (c :: rest) := by
  rw [List.contains_eq_mem, decide_eq_false_iff_not] at unmarked
  have apart {mark : Char} (isIn : mark ∈ blockMarks) : c ≠ mark := by
    rintro rfl
    exact unmarked isIn
  have noRun {mark : Char} (isIn : mark ∈ blockMarks) : run mark (c :: rest) = 0 := by
    rw [run, List.takeWhile_cons_of_neg (by simpa using apart isIn)]
    rfl
  have noHead {mark : Char} (isIn : mark ∈ blockMarks) : (c :: rest).head? ≠ some mark :=
    fun same => apart isIn (Option.some.inj same)
  simp (disch := decide) [startsBlock, isAtxHeading, isBulletItem, isBlockQuote, isBacktickFence, isTildeFence,
    isThematicBreakOf, isSetextUnderlineOf, noRun, apart, -List.head?_cons, noHead]

theorem startsBlock_cons_of_ne {c : Char} (rest : List Char)
    (other : (blockMarks.contains c || c.isDigit) = false) : startsBlock (c :: rest) = false := by
  rw [Bool.or_eq_false_iff] at other
  have undigit : ¬ c.isDigit = true := by simpa using other.2
  rw [startsBlock_unmarked other.1, isOrderedItem, List.takeWhile_cons_of_neg undigit]
  rfl

theorem isBulletItem_escapeFrom {c : Char} (plain : isPlain c = true) (previous : Option Char) (rest : List Char) :
    isBulletItem (escapeFrom isAlnum previous (c :: rest)) = isBulletItem (c :: rest) := by
  rw [escapeFrom, escapeChar_plain plain, List.singleton_append, isBulletItem, isBulletItem, endsMarker_escapeFrom]

theorem head_of_plain {c mark : Char} (plain : isPlain c = true) (marked : isPlain mark = false) (rest : List Char) :
    (c :: rest).head? ≠ some mark ∧ run mark (c :: rest) = 0 := by
  have apart : c ≠ mark := by
    rintro rfl
    rw [plain] at marked
    cases marked
  refine ⟨fun same => apart (Option.some.inj same), ?_⟩
  rw [run, List.takeWhile_cons_of_neg (by simpa using apart)]
  rfl

theorem escapeFrom_cons_plain {c : Char} (plain : isPlain c = true) (previous : Option Char) (rest : List Char) :
    escapeFrom isAlnum previous (c :: rest) = c :: escapeFrom isAlnum (some c) rest := by
  rw [escapeFrom, escapeChar_plain plain]
  rfl

theorem startsBlock_plain {c : Char} (plain : isPlain c = true) (text : List Char) :
    startsBlock (c :: text) = (isAtxHeading (c :: text) || isBulletItem (c :: text) || isOrderedItem (c :: text) ||
      isBlockQuote (c :: text) || isThematicBreakOf '-' (c :: text) ||
      (isSetextUnderlineOf '=' (c :: text) || isSetextUnderlineOf '-' (c :: text))) := by
  have star := @head_of_plain c '*' plain (by decide)
  have underscore := @head_of_plain c '_' plain (by decide)
  have backtick := @head_of_plain c '`' plain (by decide)
  have tilde := @head_of_plain c '~' plain (by decide)
  simp [startsBlock, isBacktickFence, isTildeFence, backtick, tilde, isThematicBreakOf, star, underscore,
    -List.head?_cons]

theorem startsBlock_escapeFrom {c : Char} (plain : isPlain c = true) (rest : List Char) :
    startsBlock (escapeFrom isAlnum none (c :: rest)) = startsBlock (c :: rest) := by
  have dash : isThematicBreakOf '-' (escapeFrom isAlnum none (c :: rest)) = isThematicBreakOf '-' (c :: rest) := by
    apply isThematicBreakOf_escapeFrom (by decide)
    rw [escapeFrom_cons_plain plain]
    rfl
  have quote : isBlockQuote (escapeFrom isAlnum none (c :: rest)) = isBlockQuote (c :: rest) := by
    rw [escapeFrom_cons_plain plain]
    rfl
  rw [escapeFrom_cons_plain plain, startsBlock_plain plain, ← escapeFrom_cons_plain plain none rest,
    isAtxHeading_escapeFrom, isBulletItem_escapeFrom plain, isOrderedItem_escapeFrom, quote, dash,
    isSetextUnderlineOf_escapeFrom (by decide), isSetextUnderlineOf_escapeFrom (by decide), startsBlock_plain plain]

theorem startsBlock_backslash (rest : List Char) : startsBlock ('\\' :: rest) = false :=
  startsBlock_cons_of_ne rest (by decide)

theorem escapeInline_marked {c : Char} (marked : isPlain c = false) (rest : List Char) :
    ∃ tail, escapeInline isAlnum (c :: rest) = '\\' :: tail := by
  rw [escapeInline, escapeFrom]
  rcases @escapeChar_marked isAlnum c marked none rest with same | ⟨-, impossible, -⟩
  · exact ⟨c :: escapeFrom isAlnum (some c) rest, by rw [same]; rfl⟩
  · cases impossible

theorem opensBlock_escapeInline {piece : List Char} (unindented : Unindented piece) :
    opensBlock (escapeInline isAlnum piece) = plainStart piece := by
  cases piece with
  | nil => rfl
  | cons c rest =>
    rw [plainStart, opensBlock_unindented unindented]
    cases plain : isPlain c with
    | false =>
      obtain ⟨tail, same⟩ := @escapeInline_marked isAlnum c plain rest
      have head : Unindented ('\\' :: tail) := by simp [Unindented, isGap]
      rw [same, opensBlock_unindented head, startsBlock_backslash]
      cases inner : innerMarks.contains c with
      | true => rw [List.head?_cons, Option.any_some, inner, Bool.not_true, Bool.and_false]
      | false =>
        rw [startsBlock_cons_of_ne rest, Bool.false_and]
        rw [isPlain, Bool.and_eq_false_iff, Bool.not_eq_false', decide_eq_false_iff_not, not_not] at plain
        rcases plain with escaped | rfl
        · have every : (alwaysEscape.all fun mark =>
              innerMarks.contains mark || !(blockMarks.contains mark || mark.isDigit)) = true := by decide
          have other := List.all_eq_true.mp every c (List.contains_iff_mem.mp escaped)
          rwa [inner, Bool.false_or, Bool.not_eq_true'] at other
        · cases inner
    | true =>
      have outer : innerMarks.contains c = false := by
        by_contra inner
        rw [Bool.not_eq_false, List.contains_iff_mem] at inner
        have every : (innerMarks.all fun mark => !isPlain mark) = true := by decide
        have marked := List.all_eq_true.mp every c inner
        rw [plain] at marked
        cases marked
      have head : Unindented (escapeFrom isAlnum none (c :: rest)) := by
        rw [escapeFrom_cons_plain plain]
        exact unindented
      rw [escapeInline, opensBlock_unindented head, startsBlock_escapeFrom plain, List.head?_cons, Option.any_some, outer,
        Bool.not_false, Bool.and_true]

end Inline

def blank (pieces : List (List Char)) : Bool := pieces.all fun piece => piece.all isSpace

def startsTwice (piece : List Char) : Bool := ['-', '-'].isPrefixOf piece

/-- Breaks and underlines that the patterns do not see: two dashes, or what is behind a
carriage return, come in their way. -/
def hidden (first : List Char) (rest : List (List Char)) : Bool :=
  (isSetextUnderlineOf '=' first && !blank rest) ||
    (startsTwice first && (isThematicBreakOf '-' first || isSetextUnderlineOf '-' first) &&
      !((thematicBreakRe first || setextRe '-' first) && blank rest))

section Pieces
variable {quiet : Char → Bool} {front behind : List Char}

theorem takeWhile_append_stop (stops : behind.head?.any quiet = false) :
    (front ++ behind).takeWhile quiet = front.takeWhile quiet ∧
      (front ++ behind).dropWhile quiet = front.dropWhile quiet ++ behind := by
  induction front with
  | nil =>
    cases behind with
    | nil => exact ⟨rfl, rfl⟩
    | cons c rest =>
      have stop : ¬ quiet c = true := by simpa using stops
      exact ⟨List.takeWhile_cons_of_neg stop, List.dropWhile_cons_of_neg stop⟩
  | cons c front ih =>
    rw [List.cons_append]
    by_cases isIn : quiet c = true
    · rw [List.takeWhile_cons_of_pos isIn, List.takeWhile_cons_of_pos isIn, List.dropWhile_cons_of_pos isIn,
        List.dropWhile_cons_of_pos isIn, ih.1, ih.2]
      exact ⟨rfl, rfl⟩
    · rw [List.takeWhile_cons_of_neg isIn, List.takeWhile_cons_of_neg isIn, List.dropWhile_cons_of_neg isIn,
        List.dropWhile_cons_of_neg isIn]
      exact ⟨rfl, rfl⟩

theorem spacedMarks_stop {mark c : Char} {rest : List Char} (other : c ≠ mark)
    (stops : c = ' ' → rest.head? ≠ some mark) : spacedMarks mark (c :: rest) = (0, c :: rest) := by
  rw [spacedMarks.eq_def]
  simp only
  rw [if_neg other]
  split
  next d rest =>
    have apart : d ≠ mark := fun same => stops rfl (congrArg some same)
    rw [if_neg apart]
  · rfl

theorem spacedMarks_append {mark : Char}
    (stops : behind.head?.any (fun c => c = mark || c = ' ') = false) :
    spacedMarks mark (front ++ behind) = ((spacedMarks mark front).1, (spacedMarks mark front).2 ++ behind) := by
  have unmarked : behind.head? ≠ some mark := by
    intro same
    simp [same] at stops
  fun_induction spacedMarks mark front with
  | case1 =>
    cases behind with
    | nil => rfl
    | cons c rest =>
      have other : c ≠ mark ∧ c ≠ ' ' := by simpa using stops
      exact spacedMarks_stop other.1 fun bad => absurd bad other.2
  | case2 rest ih =>
    rw [List.cons_append, spacedMarks.eq_def]
    simp only [if_true, ih]
  | case3 rest apart ih =>
    rw [List.cons_append, List.cons_append, spacedMarks, if_neg apart]
    simp only [if_true, ih]
  | case4 d rest other apart =>
    exact spacedMarks_stop apart fun _ same => other (Option.some.inj same)
  | case5 c rest narrow apart =>
    apply spacedMarks_stop apart
    rintro rfl
    cases rest with
    | nil => exact unmarked
    | cons d rest => exact absurd rfl (narrow d rest rfl)

end Pieces

theorem stops_behind {quiet : Char → Bool} (stops : quiet '\r' = false) (pieces : List (List Char)) :
    (pieces.flatMap ('\r' :: ·)).head?.any quiet = false := by
  cases pieces with
  | nil => rfl
  | cons piece rest => exact stops

theorem all_behind (pieces : List (List Char)) : (pieces.flatMap ('\r' :: ·)).all isSpace = blank pieces := by
  induction pieces with
  | nil => rfl
  | cons piece rest ih =>
    have space : isSpace '\r' = true := by decide
    rw [List.flatMap_cons, List.all_append, ih, List.all_cons, space, Bool.true_and]
    rfl

theorem unindented_joined {first : List Char} (unindented : Unindented first) (rest : List (List Char)) :
    Unindented (joined '\r' first rest) := by
  cases first with
  | nil => exact stops_behind (by decide) rest
  | cons => exact unindented

theorem setextRe_joined {mark : Char} (apart : '\r' ≠ mark) {first : List Char} (unindented : Unindented first)
    (rest : List (List Char)) :
    setextRe mark (joined '\r' first rest) = (setextRe mark first && blank rest) := by
  rw [setextRe, setextRe, dropIndent_unindented (unindented_joined unindented rest), dropIndent_unindented unindented,
    joined]
  obtain ⟨taken, dropped⟩ := @takeWhile_append_stop (fun c => decide (c = mark)) first _
    (stops_behind (by simpa using apart) rest)
  rw [taken, dropped, List.all_append, all_behind, Bool.and_assoc]

theorem thematicBreakRe_joined {mark : Char} {first : List Char} (unindented : Unindented (mark :: first))
    (rest : List (List Char)) :
    thematicBreakRe (joined '\r' (mark :: first) rest) = (thematicBreakRe (mark :: first) && blank rest) := by
  rw [thematicBreakRe, thematicBreakRe, dropIndent_unindented (unindented_joined unindented rest),
    dropIndent_unindented unindented, joined, List.cons_append]
  simp only
  cases isMark : (decide (mark = '-') || decide (mark = '*') || decide (mark = '_')) with
  | false => simp only [Bool.false_and]
  | true =>
    have other : '\r' ≠ mark := by
      rintro rfl
      cases isMark
    rw [spacedMarks_append (stops_behind (by simpa using other) rest), List.all_append, all_behind]
    simp only [Bool.and_assoc]

theorem startsTwice_iff {piece : List Char} : startsTwice piece = true ↔ ∃ tail, piece = '-' :: '-' :: tail := by
  rw [startsTwice, List.isPrefixOf_iff_prefix]
  constructor
  · rintro ⟨tail, rfl⟩
    exact ⟨tail, rfl⟩
  · rintro ⟨tail, rfl⟩
    exact ⟨tail, rfl⟩

theorem marked_of_dashes {first : List Char} (twice : startsTwice first = true) (rest : List (List Char)) :
    orderedRe (joined '\r' first rest) = none ∧
      isMarked (joined '\r' first rest) = ((thematicBreakRe first || setextRe '-' first) && blank rest) := by
  obtain ⟨tail, rfl⟩ := startsTwice_iff.mp twice
  have unindented : Unindented ('-' :: '-' :: tail) := by simp [Unindented, isGap]
  constructor
  · rfl
  · have marks : isMarked (joined '\r' ('-' :: '-' :: tail) rest) =
        (thematicBreakRe (joined '\r' ('-' :: '-' :: tail) rest) || false ||
          setextRe '-' (joined '\r' ('-' :: '-' :: tail) rest)) := rfl
    rw [marks, Bool.or_false, thematicBreakRe_joined unindented, setextRe_joined (by decide) unindented,
      Bool.and_or_distrib_right]

theorem marked_of_equals (first : List Char) (rest : List (List Char)) :
    orderedRe (joined '\r' ('=' :: first) rest) = none ∧
      isMarked (joined '\r' ('=' :: first) rest) = (setextRe '=' ('=' :: first) && blank rest) := by
  have unindented : Unindented ('=' :: first) := by simp [Unindented, isGap]
  constructor
  · rfl
  · have marks : isMarked (joined '\r' ('=' :: first) rest) =
        (setextRe '=' (joined '\r' ('=' :: first) rest) || false) := rfl
    rw [marks, Bool.or_false, setextRe_joined (by decide) unindented]

section Line
variable {isAlnum : Char → Bool}

theorem blank_escaped (rest : List (List Char)) : blank (rest.map (escapeInline isAlnum)) = blank rest := by
  rw [blank, blank, List.all_map]
  congr 1
  exact funext fun piece => all_escapeFrom isPlain_of_isSpace none piece

theorem isSpace_of_isGap {c : Char} (gap : isGap c = true) : isSpace c = true := by
  rw [isGap, Bool.or_eq_true, decide_eq_true_eq, decide_eq_true_eq] at gap
  rcases gap with rfl | rfl
  · decide
  · decide

theorem escapeInline_of_all {mark : Char} (plain : isPlain mark = true) {piece : List Char}
    (every : (piece.all fun c => c = mark || isGap c) = true) : escapeInline isAlnum piece = piece := by
  rw [List.all_eq_true] at every
  apply escapeFrom_plain
  intro c isIn
  have isMark := every c isIn
  rw [Bool.or_eq_true] at isMark
  exact isMark.elim (isPlain_of_eq plain c) (isPlain_of_isGap c)

theorem all_of_setext {mark : Char} {piece : List Char} (underline : isSetextUnderlineOf mark piece = true) :
    (piece.all fun c => c = mark || isGap c) = true := by
  rw [isSetextUnderlineOf, Bool.and_eq_true, behindRun, List.all_eq_true] at underline
  rw [← List.takeWhile_append_dropWhile (p := fun c => decide (c = mark)) (l := piece), List.all_append, Bool.and_eq_true,
    List.all_eq_true, List.all_eq_true]
  constructor
  · intro c isIn
    rw [List.mem_takeWhile_imp isIn, Bool.true_or]
  · intro c isIn
    rw [underline.2 c isIn, Bool.or_true]

theorem setextRe_of_underline {mark : Char} {piece : List Char} (unindented : Unindented piece)
    (underline : isSetextUnderlineOf mark piece = true) : setextRe mark piece = true := by
  rw [isSetextUnderlineOf, Bool.and_eq_true, behindRun, List.all_eq_true] at underline
  rw [setextRe, dropIndent_unindented unindented, Bool.and_eq_true, List.all_eq_true]
  exact ⟨underline.1, fun c isIn => isSpace_of_isGap (underline.2 c isIn)⟩

theorem run_pos {mark : Char} {piece : List Char} (some : 1 ≤ run mark piece) : ∃ tail, piece = mark :: tail := by
  cases piece with
  | nil => cases some
  | cons c tail =>
    by_cases same : c = mark
    · exact ⟨tail, by rw [same]⟩
    · rw [run, List.takeWhile_cons_of_neg (by simpa using same)] at some
      cases some

theorem plainStart_cons {c : Char} {rest : List Char} (outer : (isGap c || innerMarks.contains c) = false)
    (starts : startsBlock (c :: rest) = true) : plainStart (c :: rest) = true := by
  rw [Bool.or_eq_false_iff] at outer
  have unindented : Unindented (c :: rest) := outer.1
  rw [plainStart, opensBlock_unindented unindented, starts, List.head?_cons, Option.any_some, outer.2]
  rfl

variable (lineEnd : isAlnum '\r' = false)
include lineEnd

theorem escapeInline_line {first : List Char} (same : escapeInline isAlnum first = first) (rest : List (List Char)) :
    escapeInline isAlnum (joined '\r' first rest) = joined '\r' first (rest.map (escapeInline isAlnum)) := by
  rw [escapeInline_joined (by decide) lineEnd, same]

theorem hidden_unmarked {first : List Char} {rest : List (List Char)} (isHidden : hidden first rest = true) :
    plainStart first = true ∧ orderedRe (escapeInline isAlnum (joined '\r' first rest)) = none ∧
      isMarked (escapeInline isAlnum (joined '\r' first rest)) = false := by
  rw [hidden, Bool.or_eq_true, Bool.and_eq_true, Bool.and_eq_true, Bool.and_eq_true] at isHidden
  rcases isHidden with ⟨underline, behind⟩ | ⟨⟨twice, starts⟩, unseen⟩
  · have same := @escapeInline_of_all isAlnum _ (by decide) _ (all_of_setext underline)
    obtain ⟨tail, rfl⟩ := run_pos (of_decide_eq_true (Bool.and_eq_true _ _ ▸ underline).1)
    rw [escapeInline_line lineEnd same]
    obtain ⟨unordered, marks⟩ := marked_of_equals tail (rest.map (escapeInline isAlnum))
    refine ⟨plainStart_cons (by decide) ?_, unordered, ?_⟩
    · simp [startsBlock, underline]
    · rw [Bool.not_eq_true'] at behind
      rw [marks, blank_escaped, behind, Bool.and_false]
  · have every : (first.all fun c => c = '-' || isGap c) = true := by
      rw [Bool.or_eq_true] at starts
      rcases starts with breaks | underline
      · rw [isThematicBreakOf, Bool.and_eq_true, Bool.and_eq_true] at breaks
        exact breaks.1.2
      · exact all_of_setext underline
    have same := @escapeInline_of_all isAlnum _ (by decide) _ every
    rw [escapeInline_line lineEnd same]
    obtain ⟨unordered, marks⟩ := marked_of_dashes twice (rest.map (escapeInline isAlnum))
    obtain ⟨tail, rfl⟩ := startsTwice_iff.mp twice
    refine ⟨plainStart_cons (by decide) ?_, unordered, ?_⟩
    · rw [Bool.or_eq_true] at starts
      rcases starts with breaks | underline
      · simp [startsBlock, breaks]
      · simp [startsBlock, underline]
    · rw [Bool.not_eq_true'] at unseen
      rw [marks, blank_escaped, unseen]

omit lineEnd in
theorem spaceOrEnd_append {text : List Char} (ends : endsMarker text = true) (rest : List (List Char)) :
    spaceOrEnd (text ++ rest.flatMap ('\r' :: ·)) = true := by
  cases text with
  | cons c text => exact isSpace_of_isGap ends
  | nil =>
    cases rest with
    | nil => rfl
    | cons => exact (by decide : isSpace '\r' = true)

omit lineEnd in
theorem atxRe_joined {first : List Char} (heading : isAtxHeading first = true) (rest : List (List Char)) :
    atxRe (joined '\r' first rest) = true := by
  rw [isAtxHeading, Bool.and_eq_true, behindRun] at heading
  obtain ⟨taken, dropped⟩ := @takeWhile_append_stop (fun c => decide (c = '#')) first _ (stops_behind (by decide) rest)
  rw [atxRe, joined, taken, dropped, Bool.and_eq_true]
  exact ⟨heading.1, spaceOrEnd_append heading.2 rest⟩

omit lineEnd in
theorem bulletRe_joined {first : List Char} (item : isBulletItem first = true) (rest : List (List Char)) :
    bulletRe (joined '\r' first rest) = true := by
  cases first with
  | nil => cases item
  | cons c first =>
    rw [isBulletItem, Bool.and_eq_true] at item
    rw [joined, List.cons_append, bulletRe, spaceOrEnd_append item.2, Bool.and_true, ← item.1, Bool.or_right_comm]

omit lineEnd in
theorem isDigit_of_isDigit {c : Char} (digit : c.isDigit = true) : PyText.isDigit c = true := by
  rw [Char.isDigit, Bool.and_eq_true, decide_eq_true_eq, decide_eq_true_eq] at digit
  have low : 48 ≤ c.toNat := digit.1
  have high : c.toNat ≤ 57 := digit.2
  have first : (decide (0x30 ≤ c.toNat) && decide (c.toNat < 0x30 + 10)) = true := by
    simp only [Bool.and_eq_true, decide_eq_true_eq]
    omega
  rw [PyText.isDigit, PyText.digitValue, Option.isSome_map, List.find?_isSome]
  exact ⟨0x30, by decide, first⟩

omit lineEnd in
theorem orderedRe_joined {first : List Char} (item : isOrderedItem first = true) (rest : List (List Char)) :
    orderedRe (joined '\r' first rest) ≠ none := by
  rw [isOrderedItem, Bool.and_eq_true, Bool.and_eq_true, decide_eq_true_eq] at item
  obtain ⟨⟨some, -⟩, delimited⟩ := item
  have digits : ∀ c ∈ first.takeWhile Char.isDigit, PyText.isDigit c = true :=
    fun c isIn => isDigit_of_isDigit (List.mem_takeWhile_imp isIn)
  have whole := @List.takeWhile_append_dropWhile _ Char.isDigit first
  cases behind : first.dropWhile Char.isDigit with
  | nil =>
    rw [behind] at delimited
    cases delimited
  | cons delim text =>
    rw [behind, Bool.and_eq_true] at delimited
    have undigit : ¬ PyText.isDigit delim = true := by
      have isDelim := delimited.1
      rw [Bool.or_eq_true, decide_eq_true_eq, decide_eq_true_eq] at isDelim
      rcases isDelim with rfl | rfl
      · decide
      · decide
    have taken : (joined '\r' first rest).takeWhile PyText.isDigit = first.takeWhile Char.isDigit ∧
        (joined '\r' first rest).dropWhile PyText.isDigit = delim :: (text ++ rest.flatMap ('\r' :: ·)) := by
      rw [joined, ← whole, behind, List.append_assoc, List.cons_append]
      constructor
      · rw [List.takeWhile_append_of_pos digits, List.takeWhile_cons_of_neg undigit, List.append_nil, ← behind, whole]
      · rw [List.dropWhile_append_of_pos digits, List.dropWhile_cons_of_neg undigit]
    have filled : (first.takeWhile Char.isDigit).isEmpty = false := by
      rw [List.isEmpty_eq_false_iff, ← List.length_pos_iff]
      exact some
    rw [orderedRe, taken.1, taken.2]
    simp only [filled, delimited.1, spaceOrEnd_append delimited.2, Bool.not_false, Bool.and_true, if_true, ne_eq,
      reduceCtorEq, not_false_eq_true]

omit lineEnd in
theorem isMarked_joined {first : List Char} {rest : List (List Char)} (unmarked : isMarked (joined '\r' first rest) = false) :
    isAtxHeading first = false ∧ isBulletItem first = false ∧ isBlockQuote first = false := by
  simp only [isMarked, Bool.or_eq_false_iff] at unmarked
  obtain ⟨⟨⟨⟨⟨⟨atx, bullet⟩, quote⟩, -⟩, -⟩, -⟩, -⟩ := unmarked
  refine ⟨?_, ?_, ?_⟩
  · by_contra heading
    rw [Bool.not_eq_false] at heading
    rw [atxRe_joined heading] at atx
    cases atx
  · by_contra item
    rw [Bool.not_eq_false] at item
    rw [bulletRe_joined item] at bullet
    cases bullet
  · cases first with
    | nil => rfl
    | cons c first => exact quote

omit lineEnd in
theorem startsTwice_of_dash {piece : List Char} (every : (piece.all fun c => c = '-' || isGap c) = true)
    (isDash : piece.head? = some '-') (noBullet : isBulletItem piece = false) : startsTwice piece = true := by
  cases piece with
  | nil => cases isDash
  | cons c tail =>
    obtain rfl := Option.some.inj isDash
    cases tail with
    | nil => cases noBullet
    | cons d tail =>
      rw [isBulletItem, endsMarker, Bool.and_eq_false_iff] at noBullet
      have solid : isGap d = false := noBullet.resolve_left (by decide)
      simp only [List.all_cons, Bool.and_eq_true, solid, Bool.or_false, decide_eq_true_eq] at every
      exact startsTwice_iff.mpr ⟨tail, by rw [every.2.1]⟩

theorem hidden_of_unmarked {first : List Char} {rest : List (List Char)} (unindented : Unindented first)
    (starts : plainStart first = true)
    (unordered : orderedRe (escapeInline isAlnum (joined '\r' first rest)) = none)
    (unmarked : isMarked (escapeInline isAlnum (joined '\r' first rest)) = false) : hidden first rest = true := by
  have opens := @opensBlock_escapeInline isAlnum first unindented
  rw [starts] at opens
  cases first with
  | nil => cases starts
  | cons c first =>
    cases plain : isPlain c with
    | false =>
      obtain ⟨tail, same⟩ := @escapeInline_marked isAlnum c plain first
      have head : Unindented ('\\' :: tail) := by simp [Unindented, isGap]
      rw [same, opensBlock_unindented head, startsBlock_backslash] at opens
      cases opens
    | true =>
      rw [escapeInline_joined (by decide) lineEnd] at unordered unmarked
      obtain ⟨noHeading, noBullet, noQuote⟩ := isMarked_joined unmarked
      have noOrdered : isOrderedItem (escapeInline isAlnum (c :: first)) = false := by
        by_contra item
        rw [Bool.not_eq_false] at item
        exact orderedRe_joined item _ unordered
      have head : Unindented (escapeInline isAlnum (c :: first)) := by
        rw [escapeInline, escapeFrom_cons_plain plain]
        exact unindented
      have dash : isThematicBreakOf '-' (escapeInline isAlnum (c :: first)) = isThematicBreakOf '-' (c :: first) := by
        apply isThematicBreakOf_escapeFrom (by decide)
        rw [escapeFrom_cons_plain plain]
        rfl
      rw [opensBlock_unindented head, escapeInline, escapeFrom_cons_plain plain, startsBlock_plain plain,
        ← escapeFrom_cons_plain plain none, ← escapeInline, noHeading, noBullet, noOrdered, noQuote, dash] at opens
      rw [escapeInline, isSetextUnderlineOf_escapeFrom (by decide), isSetextUnderlineOf_escapeFrom (by decide)] at opens
      rw [escapeInline, isBulletItem_escapeFrom plain] at noBullet
      simp only [Bool.false_or, Bool.or_eq_true] at opens
      have dashed (every : ((c :: first).all fun c => c = '-' || isGap c) = true) (isDash : (c :: first).head? = some '-')
          (shape : (isThematicBreakOf '-' (c :: first) || isSetextUnderlineOf '-' (c :: first)) = true) :
          hidden (c :: first) rest = true := by
        have twice := startsTwice_of_dash every isDash noBullet
        rw [@escapeInline_of_all isAlnum _ (by decide) _ every, (marked_of_dashes twice _).2, blank_escaped] at unmarked
        rw [hidden, twice, shape, unmarked]
        exact Bool.or_true _
      rcases opens with breaks | underline | underline
      · have parts := breaks
        rw [isThematicBreakOf, Bool.and_eq_true, Bool.and_eq_true, decide_eq_true_eq] at parts
        exact dashed parts.1.2 parts.1.1 (by rw [breaks, Bool.true_or])
      · rw [@escapeInline_of_all isAlnum _ (by decide) _ (all_of_setext underline)] at unmarked
        have shape := setextRe_of_underline unindented underline
        obtain ⟨tail, same⟩ := run_pos (of_decide_eq_true (Bool.and_eq_true _ _ ▸ underline).1)
        obtain ⟨rfl, rfl⟩ := List.cons.inj same
        rw [(marked_of_equals first _).2, blank_escaped, shape, Bool.true_and] at unmarked
        rw [hidden, underline, unmarked]
        rfl
      · obtain ⟨tail, same⟩ := run_pos (of_decide_eq_true (Bool.and_eq_true _ _ ▸ underline).1)
        exact dashed (all_of_setext underline) (by rw [same]; rfl) (by rw [underline, Bool.or_true])

/-! What is put in front of a line. -/

omit lineEnd in
theorem escapeLeadingLine_eq (line : List Char) : escapeLeadingLine line =
    match orderedRe line with
    | some (digits, delim, rest) => digits ++ '\\' :: delim :: rest
    | none => if isMarked line then '\\' :: line else line := by
  cases line with
  | nil => rfl
  | cons => rfl

omit lineEnd in
theorem unordered_of_digits {digits : List Char} (each : ∀ c ∈ digits, PyText.isDigit c = true) (tail : List Char) :
    isOrderedItem (digits ++ '\\' :: tail) = false := by
  rw [isOrderedItem, Bool.and_eq_false_iff]
  refine Or.inr ?_
  induction digits with
  | nil => rfl
  | cons d digits ih =>
    rw [List.forall_mem_cons] at each
    rw [List.cons_append]
    by_cases digit : d.isDigit = true
    · rw [List.dropWhile_cons_of_pos digit]
      exact ih each.2
    · rw [List.dropWhile_cons_of_neg digit]
      have other : d ≠ '.' ∧ d ≠ ')' := by
        constructor
        · rintro rfl
          exact absurd each.1 (by decide)
        · rintro rfl
          exact absurd each.1 (by decide)
      simp [other]

omit lineEnd in
theorem opensBlock_escapedItem {digits : List Char} (each : ∀ c ∈ digits, PyText.isDigit c = true) (some : digits ≠ [])
    (tail : List Char) : opensBlock (digits ++ '\\' :: tail) = false := by
  have unordered := unordered_of_digits each tail
  cases digits with
  | nil => exact absurd rfl some
  | cons d digits =>
    have digit := each d List.mem_cons_self
    have solid : isGap d = false := by
      by_contra gap
      rw [Bool.not_eq_false, isGap, Bool.or_eq_true, decide_eq_true_eq, decide_eq_true_eq] at gap
      rcases gap with rfl | rfl
      · exact absurd digit (by decide)
      · exact absurd digit (by decide)
    have unmarked : blockMarks.contains d = false := by
      have every : (blockMarks.all fun mark => !PyText.isDigit mark) = true := by decide
      by_contra isMark
      rw [Bool.not_eq_false, List.contains_iff_mem] at isMark
      have other := List.all_eq_true.mp every d isMark
      rw [digit] at other
      cases other
    have unindented : Unindented (d :: digits ++ '\\' :: tail) := solid
    rw [opensBlock_unindented unindented]
    exact (startsBlock_unmarked unmarked _).trans unordered

/-- Either the line is left as it is, or its first piece no longer opens a block. -/
inductive Leads (first : List Char) (rest : List (List Char)) : Prop where
  | left (unordered : orderedRe (joined '\r' first rest) = none) (unmarked : isMarked (joined '\r' first rest) = false)
      (same : escapeLeadingLine (joined '\r' first rest) = joined '\r' first rest)
  | escaped (marked : ¬ (orderedRe (joined '\r' first rest) = none ∧ isMarked (joined '\r' first rest) = false))
      (next : List Char) (single : '\r' ∉ next) (closed : opensBlock next = false)
      (same : escapeLeadingLine (joined '\r' first rest) = joined '\r' next rest)

omit lineEnd in
theorem leads {first : List Char} (single : '\r' ∉ first) (rest : List (List Char)) : Leads first rest := by
  have whole := escapeLeadingLine_eq (joined '\r' first rest)
  cases ordered : orderedRe (joined '\r' first rest) with
  | none =>
    rw [ordered] at whole
    cases marked : isMarked (joined '\r' first rest) with
    | false => exact .left ordered marked (by rw [whole, marked]; rfl)
    | true =>
      refine .escaped (by simp [marked]) ('\\' :: first) (by simpa using single) ?_ (by rw [whole, marked]; rfl)
      rw [@opensBlock_unindented ('\\' :: first) (by simp [Unindented, isGap]), startsBlock_backslash]
  | some parts =>
    obtain ⟨digits, delim, behind⟩ := parts
    rw [ordered] at whole
    obtain ⟨taken, dropped⟩ := @takeWhile_append_stop PyText.isDigit first _ (stops_behind (by decide) rest)
    have shape := ordered
    rw [orderedRe, joined, taken, dropped] at shape
    cases inner : first.dropWhile PyText.isDigit with
    | nil =>
      rw [inner, List.nil_append] at shape
      cases rest with
      | nil => cases shape
      | cons piece rest =>
        simp only [List.flatMap_cons, List.cons_append, decide_eq_false (by decide : ¬ '\r' = '.'),
          decide_eq_false (by decide : ¬ '\r' = ')'), Bool.or_self, Bool.and_false, Bool.false_and, Bool.false_eq_true,
          if_false] at shape
        cases shape
    | cons d text =>
      rw [inner, List.cons_append] at shape
      simp only [Option.ite_none_right_eq_some, Option.some.injEq, Prod.mk.injEq, Bool.and_eq_true,
        Bool.not_eq_true'] at shape
      obtain ⟨⟨⟨some, -⟩, -⟩, rfl, rfl, rfl⟩ := shape
      have parted : first.takeWhile PyText.isDigit ++ d :: text = first := by
        rw [← inner]
        exact List.takeWhile_append_dropWhile
      refine .escaped (by simp [ordered]) (first.takeWhile PyText.isDigit ++ '\\' :: d :: text) ?_ ?_ ?_
      · intro isIn
        rw [List.mem_append, List.mem_cons] at isIn
        rcases isIn with isDigit | bad | isText
        · exact single (parted ▸ List.mem_append_left _ isDigit)
        · cases bad
        · exact single (parted ▸ List.mem_append_right _ isText)
      · apply opensBlock_escapedItem fun c isIn => List.mem_takeWhile_imp isIn
        simpa using some
      · rw [whole]
        simp [joined]

omit lineEnd in
theorem single_escapeInline {piece : List Char} (single : '\r' ∉ piece) : '\r' ∉ escapeInline isAlnum piece := by
  intro isIn
  rcases mem_escapeFrom isIn with bad | isIn
  · cases bad
  · exact single isIn

theorem line_opens_iff {first : List Char} {rest : List (List Char)} (single : '\r' ∉ first)
    (singles : ∀ piece ∈ rest, '\r' ∉ piece) (unindented : Unindented first)
    (allUnindented : ∀ piece ∈ rest, Unindented piece) :
    (∀ piece ∈ (escapeLeadingLine (escapeInline isAlnum (joined '\r' first rest))).splitOn '\r',
        opensBlock piece = false) ↔ hidden first rest = false ∧ ∀ piece ∈ rest, plainStart piece = false := by
  have singles' : ∀ piece ∈ rest.map (escapeInline isAlnum), '\r' ∉ piece := by
    intro piece isIn
    obtain ⟨source, isSource, rfl⟩ := List.mem_map.mp isIn
    exact single_escapeInline (singles source isSource)
  have later : (∀ piece ∈ rest.map (escapeInline isAlnum), opensBlock piece = false) ↔
      ∀ piece ∈ rest, plainStart piece = false := by
    rw [List.forall_mem_map]
    apply forall₂_congr
    intro piece isIn
    rw [opensBlock_escapeInline (allUnindented piece isIn)]
  have line : escapeInline isAlnum (joined '\r' first rest) =
      joined '\r' (escapeInline isAlnum first) (rest.map (escapeInline isAlnum)) :=
    escapeInline_joined (by decide) lineEnd first rest
  cases leads (@single_escapeInline isAlnum _ single) (rest.map (escapeInline isAlnum)) with
  | left unordered unmarked same =>
    rw [line, same, splitOn_joined (single_escapeInline single) singles', List.forall_mem_cons, later,
      opensBlock_escapeInline unindented]
    apply and_congr_left'
    rw [← Bool.not_eq_true, ← Bool.not_eq_true, not_iff_not]
    rw [← line] at unordered unmarked
    exact ⟨fun starts => hidden_of_unmarked lineEnd unindented starts unordered unmarked,
      fun isHidden => (hidden_unmarked lineEnd isHidden).1⟩
  | escaped marked next single closed same =>
    rw [line, same, splitOn_joined single singles', List.forall_mem_cons, later]
    apply and_congr_left'
    rw [← line] at marked
    refine iff_of_true closed ?_
    by_contra isHidden
    rw [Bool.not_eq_false] at isHidden
    exact marked (hidden_unmarked lineEnd isHidden).2

end Line

def kept (line : List Char) : Bool :=
  match line.splitOn '\r' with
  | [] => true
  | first :: rest => !hidden first rest && rest.all fun piece => !plainStart piece

theorem splitOn_escapeInline {isAlnum : Char → Bool} (lineFeed : isAlnum '\n' = false) (text : List Char) :
    (escapeInline isAlnum text).splitOn '\n' = (text.splitOn '\n').map (escapeInline isAlnum) := by
  obtain ⟨first, rest, rfl, single, singles⟩ := exists_joined '\n' text
  have unescaped {piece : List Char} (single : '\n' ∉ piece) : '\n' ∉ escapeInline isAlnum piece := fun isIn =>
    (mem_escapeFrom isIn).elim (by decide) single
  rw [escapeInline_joined (by decide) lineFeed, splitOn_joined single singles, splitOn_joined (unescaped single)]
  · rfl
  · rw [List.forall_mem_map]
    exact fun piece isIn => unescaped (singles piece isIn)

theorem orderedRe_some {line digits rest : List Char} {delim : Char}
    (ordered : orderedRe line = some (digits, delim, rest)) : digits ++ delim :: rest = line := by
  unfold orderedRe at ordered
  simp only at ordered
  split at ordered
  next => cases ordered
  next d text dropped =>
    split at ordered
    next =>
      obtain ⟨rfl, same⟩ := Prod.mk.inj (Option.some.inj ordered)
      obtain ⟨rfl, rfl⟩ := Prod.mk.inj same
      rw [← dropped, List.takeWhile_append_dropWhile]
    next => cases ordered

theorem mem_escapeLeadingLine {line : List Char} {c : Char} (isIn : c ∈ escapeLeadingLine line) :
    c = '\\' ∨ c ∈ line := by
  rw [escapeLeadingLine_eq] at isIn
  split at isIn
  next digits delim rest ordered =>
    rw [← orderedRe_some ordered]
    rw [List.mem_append, List.mem_cons] at isIn
    rcases isIn with isDigit | bad | isRest
    · exact Or.inr (List.mem_append_left _ isDigit)
    · exact Or.inl bad
    · exact Or.inr (List.mem_append_right _ isRest)
  next =>
    split at isIn
    · exact List.mem_cons.mp isIn
    · exact Or.inr isIn

theorem splitOn_escapeBlockLeading (text : List Char) :
    (escapeBlockLeading text).splitOn '\n' = (text.splitOn '\n').map escapeLeadingLine := by
  apply List.splitOn_intercalate
  · rw [List.forall_mem_map]
    intro line isLine isIn
    rcases mem_escapeLeadingLine isIn with bad | isIn
    · cases bad
    · exact not_mem_of_mem_splitOn isLine isIn
  · simp

/-- The lines of a paragraph of plain text, none of them indented, open no block and
underline no heading exactly when each line of the text is kept. -/
theorem paragraph_stays_iff (isAlnum : Char → Bool) (lineFeed : isAlnum '\n' = false)
    (carriageReturn : isAlnum '\r' = false) (text : List Char) (unindented : ∀ line ∈ lines text, Unindented line) :
    (∀ line ∈ lines (serializeText isAlnum text), opensBlock line = false) ↔
      ∀ line ∈ text.splitOn '\n', kept line = true := by
  rw [forall_lines_iff (by rfl)] at unindented
  rw [forall_lines_iff (by decide), serializeText, splitOn_escapeBlockLeading, splitOn_escapeInline lineFeed, List.map_map,
    List.forall_mem_map]
  apply forall₂_congr
  intro line isLine
  obtain ⟨first, rest, rfl, single, singles⟩ := exists_joined '\r' line
  have each := unindented _ isLine
  rw [splitOn_joined single singles, List.forall_mem_cons] at each
  rw [Function.comp, line_opens_iff carriageReturn single singles each.1 each.2, kept, splitOn_joined single singles]
  simp

theorem paragraph_stays_iff_marked :
    (∀ line ∈ lines (serializeText Char.isAlphanum "# One\n2. two".toList), opensBlock line = false) ↔
      ∀ line ∈ "# One\n2. two".toList.splitOn '\n', kept line = true :=
  paragraph_stays_iff Char.isAlphanum rfl rfl "# One\n2. two".toList (by decide +kernel)

/-- Two spaces between dashes: a break that no pattern sees, in a text that is trimmed. -/
theorem wide_break_opens :
    (∀ line ∈ lines ['-', '-', ' ', ' ', '-'], Unindented line ∧ Unindented line.reverse) ∧
      ∀ isAlnum : Char → Bool,
        opensBlock (escapeLeadingLine (escapeInline isAlnum ['-', '-', ' ', ' ', '-'])) = true := by
  refine ⟨by decide, fun isAlnum => ?_⟩
  have same : escapeInline isAlnum ['-', '-', ' ', ' ', '-'] = ['-', '-', ' ', ' ', '-'] :=
    escapeFrom_plain (by simp [isPlain, alwaysEscape]) none
  rw [same]
  decide

end Counselle.Essays.Escaping
