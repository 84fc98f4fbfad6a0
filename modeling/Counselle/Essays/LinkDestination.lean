import Counselle.CommonMarkLinks

/-! The destination of a link in an essay: how `essay_markdown.py` writes it, and what is
read back. -/
namespace Counselle.Essays.LinkDestination
open CommonMark

/-- `text.replace(old, new)` for one character -/
def replace (old : Char) (new text : List Char) : List Char := text.flatMap fun c => if c = old then new else [c]

def unsafeBareHref (c : Char) : Bool := c = ' ' || c = '\t' || c = '\n' || c = '<' || c = '>'

/-- The loop of `_parens_balanced` -/
def parensBalancedFrom : Nat → List Char → Bool
  | depth, [] => depth = 0
  | depth, ch :: rest =>
    if ch = '(' then parensBalancedFrom (depth + 1) rest
    else if ch = ')' then depth ≠ 0 && parensBalancedFrom (depth - 1) rest
    else parensBalancedFrom depth rest

def parensBalanced (href : List Char) : Bool := parensBalancedFrom 0 href

def isAngled (href : List Char) : Bool := href.any unsafeBareHref || !parensBalanced href

def linkDestination (href : List Char) : List Char :=
  if isAngled href then
    '<' :: (replace '>' ['\\', '>'] (replace '<' ['\\', '<'] (replace '\\' ['\\', '\\'] href)) ++ ['>'])
  else href

structure Href where
  chars : List Char
  noFeed : '\n' ∉ chars
  noReturn : '\r' ∉ chars

def angled (c : Char) : List Char := if c = '\\' ∨ c = '<' ∨ c = '>' then ['\\', c] else [c]

theorem replace_append (old : Char) (new front back : List Char) :
    replace old new (front ++ back) = replace old new front ++ replace old new back :=
  List.flatMap_append

theorem replace_single (c : Char) :
    replace '>' ['\\', '>'] (replace '<' ['\\', '<'] (replace '\\' ['\\', '\\'] [c])) = angled c := by
  by_cases backslash : c = '\\'
  · subst backslash
    decide
  by_cases less : c = '<'
  · subst less
    decide
  by_cases greater : c = '>'
  · subst greater
    decide
  simp [replace, angled, backslash, less, greater]

theorem replace_angled (href : List Char) :
    replace '>' ['\\', '>'] (replace '<' ['\\', '<'] (replace '\\' ['\\', '\\'] href)) = href.flatMap angled := by
  induction href with
  | nil => rfl
  | cons c rest ih =>
    have split : c :: rest = [c] ++ rest := rfl
    rw [split, replace_append, replace_append, replace_append, ih, replace_single, List.flatMap_append, List.flatMap_singleton]

theorem angled_special {c : Char} (special : angled c ≠ [c]) :
    angled c = ['\\', c] ∧ (c = '\\' ∨ c = '<' ∨ c = '>') := by
  rw [angled] at special ⊢
  split
  case isTrue is => exact ⟨rfl, is⟩
  case isFalse not => exact absurd (if_neg not) special

theorem angled_plain {c : Char} (plain : angled c = [c]) : c ≠ '\\' ∧ c ≠ '<' ∧ c ≠ '>' := by
  rw [angled] at plain
  split at plain
  · cases plain
  case isFalse not => simpa only [not_or] using not

theorem escape_special {c : Char} (special : c = '\\' ∨ c = '<' ∨ c = '>') (behind : List Char) :
    escape ('\\' :: c :: behind) = some ([c], 2) := by
  have punctuation : isPunctuation c = true := by obtain rfl | rfl | rfl := special <;> decide
  exact if_pos punctuation

theorem escape_plain {c : Char} (plain : c ≠ '\\') (behind : List Char) : escape (c :: behind) = none := by
  rw [escape.eq_def]
  split
  case h_1 same => exact absurd (List.cons.inj same).1 plain
  case h_2 => rfl

theorem angleContent_angled {href : List Char} (noFeed : '\n' ∉ href) (noReturn : '\r' ∉ href) :
    angleContent false (href.flatMap angled ++ ['>']) = some (href.flatMap angled, []) := by
  induction href with
  | nil => rfl
  | cons c rest ih =>
    rw [List.mem_cons, not_or] at noFeed noReturn
    have later := ih noFeed.2 noReturn.2
    rw [List.flatMap_cons]
    by_cases plain : angled c = [c]
    · obtain ⟨backslash, less, greater⟩ := angled_plain plain
      rw [plain, List.append_assoc, List.singleton_append, angleContent, if_neg greater, escape_plain backslash, if_neg]
      · rw [Option.isSome_none, later]
        rfl
      · rintro (bad | bad | bad)
        · exact less bad
        · exact noFeed.1 bad.symm
        · exact noReturn.1 bad.symm
    · obtain ⟨isTwo, special⟩ := angled_special plain
      rw [isTwo, List.append_assoc, List.cons_append, List.singleton_append, angleContent, if_neg (by decide),
        if_neg (by decide), escape_special special, Option.isSome_some, angleContent, later]
      rfl

section Reference
variable {entities : Entities} {text : List Char}

theorem inReference_plain {c : Char} (within : inReference c = true) : angled c = [c] := by
  by_contra special
  obtain ⟨-, rfl | rfl | rfl⟩ := angled_special special <;> exact absurd within (by decide)

theorem head_angled {c : Char} (outside : inReference c = false) : ∃ first behind, angled c = first :: behind ∧
    inReference first = false ∧ (first = ';' ↔ c = ';') := by
  by_cases plain : angled c = [c]
  · exact ⟨c, [], plain, outside, Iff.rfl⟩
  · obtain ⟨isTwo, special⟩ := angled_special plain
    refine ⟨'\\', [c], isTwo, by decide, ?_⟩
    obtain rfl | rfl | rfl := special <;> decide

theorem span_angled (text : List Char) : (text.flatMap angled).takeWhile inReference = text.takeWhile inReference ∧
    (((text.flatMap angled).dropWhile inReference).head? = some ';' ↔ (text.dropWhile inReference).head? = some ';') := by
  induction text with
  | nil => exact ⟨rfl, Iff.rfl⟩
  | cons c rest ih =>
    rw [List.flatMap_cons, List.takeWhile_cons, List.dropWhile_cons]
    split
    case isTrue within =>
      rw [inReference_plain within, List.singleton_append, List.takeWhile_cons, List.dropWhile_cons, if_pos within,
        if_pos within, ih.1]
      exact ⟨rfl, ih.2⟩
    case isFalse outside =>
      obtain ⟨first, behind, isAngled, other, same⟩ := head_angled (Bool.not_eq_true _ ▸ outside)
      rw [isAngled, List.cons_append, List.takeWhile_cons, List.dropWhile_cons, other]
      refine ⟨rfl, ?_⟩
      simpa using same

theorem reference_angled (c : Char) (text : List Char) :
    reference entities (c :: text.flatMap angled) = reference entities (c :: text) := by
  obtain ⟨body, ends⟩ := span_angled text
  simp only [reference, body, ends]

theorem reference_other {c : Char} (other : c ≠ '&') : reference entities (c :: text) = none := by
  simp only [reference]
  exact if_neg fun bad => other bad.1

theorem reference_plain {c : Char} {value : List Char} {width : Nat}
    (isRead : reference entities (c :: text) = some (value, width)) : ∀ d ∈ text.take (width - 1), angled d = [d] := by
  simp only [reference] at isRead
  split at isRead
  case isTrue ends =>
    obtain ⟨value, -, same⟩ := Option.map_eq_some_iff.mp isRead
    cases same
    have split : text.take ((text.takeWhile inReference).length + 1) = text.takeWhile inReference ++ [';'] := by
      obtain ⟨rest, isRest⟩ := List.head?_eq_some_iff.mp ends.2
      have whole := List.takeWhile_append_dropWhile (p := inReference) (l := text)
      rw [isRest] at whole
      have same : text.take ((text.takeWhile inReference).length + 1) =
          (text.takeWhile inReference ++ ';' :: rest).take ((text.takeWhile inReference).length + 1) := by rw [whole]
      rw [same, List.take_length_add_append]
      rfl
    change ∀ d ∈ text.take ((text.takeWhile inReference).length + 1), angled d = [d]
    rw [split]
    intro d isIn
    obtain within | isEnd := List.mem_append.mp isIn
    · exact inReference_plain (List.mem_takeWhile_imp within)
    · rw [List.mem_singleton.mp isEnd]
      rfl
  case isFalse => cases isRead

end Reference

theorem decodeWith_angled (entities : Entities) (skip : Nat) {href : List Char} (plain : ∀ c ∈ href.take skip, angled c = [c]) :
    decodeWith (escapeOrReference entities) skip (href.flatMap angled) = decodeWith (reference entities) skip href := by
  induction href generalizing skip with
  | nil => cases skip <;> rfl
  | cons c rest ih =>
    rw [List.flatMap_cons]
    cases skip with
    | succ skip =>
      rw [List.take_succ_cons, List.forall_mem_cons] at plain
      rw [plain.1, List.singleton_append, decodeWith, decodeWith]
      exact ih skip plain.2
    | zero =>
      by_cases special : angled c = [c]
      · rw [special, List.singleton_append, decodeWith, decodeWith, escapeOrReference, escape_plain (angled_plain special).1,
          Option.none_or, reference_angled]
        split
        case h_1 value width isRead => rw [ih (width - 1) (reference_plain isRead)]
        case h_2 => rw [ih 0 (by simp)]
      · obtain ⟨isTwo, is⟩ := angled_special special
        have noReference : reference entities (c :: rest) = none := by
          refine reference_other fun same => ?_
          obtain rfl | rfl | rfl := is <;> exact absurd same (by decide)
        rw [isTwo, List.cons_append, List.singleton_append, decodeWith, escapeOrReference, escape_special is,
          Option.some_or]
        simp only [decodeWith, noReference]
        exact congrArg (c :: ·) (ih 0 (by simp))

theorem isBare_plain {href : List Char} (plain : Plain escape href) (clean : ∀ c ∈ href, (c = ' ' || isControl c) = false)
    (depth : Nat) : isBare false depth href = parensBalancedFrom depth href := by
  induction href generalizing depth with
  | nil => rfl
  | cons c rest ih =>
    obtain ⟨noEscape, plain⟩ := plain_cons.mp plain
    obtain ⟨here, later⟩ := List.forall_mem_cons.mp clean
    rw [isBare, here, parensBalancedFrom, noEscape]
    simp only [ih plain later, Bool.false_eq_true, if_false, Option.isSome_none]

theorem noSpace_of_bare {href : List Char} (bare : isAngled href = false) :
    (∀ c ∈ href, unsafeBareHref c = false) ∧ parensBalanced href = true := by
  rw [isAngled, Bool.or_eq_false_iff, Bool.not_eq_false', List.any_eq_false] at bare
  exact ⟨fun c isIn => Bool.not_eq_true _ ▸ bare.1 c isIn, bare.2⟩

/-- The target has no reference; in the bare form, also no backslash before a punctuation
character and no control character. -/
structure Survives (entities : Entities) (href : List Char) : Prop where
  noNull : '\x00' ∉ href
  noReference : Plain (reference entities) href
  noEscape : isAngled href = false → Plain escape href
  noControl : isAngled href = false → ∀ c ∈ href, isControl c = false

theorem decode_iff {read : Decoder} {text : List Char} (shortens : Shortens read) (empty : read [] = none) :
    (decodeWith read 0 text).map secured = text ↔ '\x00' ∉ text ∧ Plain read text := by
  constructor
  · intro same
    have lengths := congrArg List.length same
    rw [List.length_map] at lengths
    have plain := plain_of_length shortens empty lengths
    rw [decodeWith_plain plain, map_secured] at same
    exact ⟨same, plain⟩
  · rintro ⟨noNull, plain⟩
    rw [decodeWith_plain plain, map_secured.mpr noNull]

theorem read_angled (entities : Entities) (href : Href) (form : isAngled href.chars = true) :
    readDestination entities (linkDestination href.chars) = some href.chars ↔ Survives entities href.chars := by
  have content : readDestination entities (linkDestination href.chars) =
      some (decoded entities (href.chars.flatMap angled)) := by
    rw [linkDestination, if_pos form, replace_angled, readDestination, if_pos rfl,
      angleContent_angled href.noFeed href.noReturn]
    rfl
  rw [content, Option.some.injEq, decoded, decodeWith_angled entities 0 (by simp),
    decode_iff (reference_shortens entities) rfl]
  constructor
  · rintro ⟨noNull, noReference⟩
    exact ⟨noNull, noReference, fun bare => absurd form (Bool.eq_false_iff.mp bare),
      fun bare => absurd form (Bool.eq_false_iff.mp bare)⟩
  · exact fun survives => ⟨survives.noNull, survives.noReference⟩

theorem readDestination_bare (entities : Entities) {href : List Char} (bare : isAngled href = false) :
    readDestination entities href = if isBare false 0 href then some (decoded entities href) else none := by
  cases href with
  | nil => rfl
  | cons c rest =>
    have noAngle : c ≠ '<' := by
      rintro rfl
      exact absurd ((noSpace_of_bare bare).1 '<' List.mem_cons_self) (by decide)
    rw [readDestination, if_neg noAngle]

theorem read_bare (entities : Entities) {href : List Char} (bare : isAngled href = false) :
    readDestination entities (linkDestination href) = some href ↔ Survives entities href := by
  obtain ⟨safe, balanced⟩ := noSpace_of_bare bare
  have isSelf : linkDestination href = href := if_neg (ne_true_of_eq_false bare)
  rw [isSelf, readDestination_bare entities bare]
  constructor
  · intro read
    split at read
    case isTrue isBare =>
      obtain ⟨noNull, plain⟩ := (decode_iff (escapeOrReference_shortens entities) rfl).mp (Option.some.inj read)
      obtain ⟨noEscape, noReference⟩ := plain_iff.mp plain
      exact ⟨noNull, noReference, fun _ => noEscape, fun _ => no_control_of_isBare isBare nofun⟩
    case isFalse => cases read
  · intro survives
    have clean : ∀ c ∈ href, (c = ' ' || isControl c) = false := fun c isIn => by
      have noSpace := safe c isIn
      simp only [unsafeBareHref, Bool.or_eq_false_iff] at noSpace
      rw [noSpace.1.1.1.1, survives.noControl bare c isIn]
      rfl
    rw [isBare_plain (survives.noEscape bare) clean, decoded]
    refine (if_pos balanced).trans ?_
    exact congrArg some ((decode_iff (escapeOrReference_shortens entities) rfl).mpr
      ⟨survives.noNull, plain_iff.mpr ⟨survives.noEscape bare, survives.noReference⟩⟩)

/-- A link target is read as it was written exactly if it holds no entity reference and, in
the bare form, nothing that the reader takes for an escape or refuses. -/
theorem destination_survives (entities : Entities) (href : Href) :
    readDestination entities (linkDestination href.chars) = some href.chars ↔ Survives entities href.chars := by
  cases form : isAngled href.chars with
  | true => exact read_angled entities href form
  | false => exact read_bare entities form

def markupEntities : Entities where
  value name := ([("amp".toList, '&'), ("lt".toList, '<'), ("gt".toList, '>')].lookup name).map ([·])
  shorter isValue := by
    obtain ⟨c, -, rfl⟩ := Option.map_eq_some_iff.mp isValue
    exact Nat.lt_add_left _ (Nat.lt_succ_self 1)

/-- In the bare form a backslash before an underscore is lost, and so is a reference. -/
def queryHref : Href := ⟨"/?q=a\\_b&amp;c".toList, by decide, by decide⟩

theorem query_lost : ¬ ∀ entities (href : Href), readDestination entities (linkDestination href.chars) = some href.chars :=
  fun each => absurd (each markupEntities queryHref) (by decide +kernel)

example : readDestination markupEntities (linkDestination queryHref.chars) = some "/?q=a_b&c".toList := by decide +kernel

end Counselle.Essays.LinkDestination
