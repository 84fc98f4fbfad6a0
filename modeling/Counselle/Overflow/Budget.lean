import Counselle.Overflow.Spill

/-! The bytes of a write's stand-in: what is cut is never below the mark that stands for an
omitted preview, so the stand-in fits its budget exactly when its receipt leaves the room. -/
namespace Counselle.Overflow
open CompactJson (quote bytes quoted escape shortEscapes)
open PyJson (PyFloat JsonValue)

def Visible (text : List Char) : Prop := ∀ c ∈ text, 32 ≤ c.toNat

theorem Visible.append {front back : List Char} (isFront : Visible front) (isBack : Visible back) :
    Visible (front ++ back) := by
  intro c isIn
  rcases List.mem_append.mp isIn with isIn | isIn
  · exact isFront c isIn
  · exact isBack c isIn

theorem Visible.cons {c : Char} {text : List Char} (isFirst : 32 ≤ c.toNat) (isRest : Visible text) :
    Visible (c :: text) := by
  intro other isIn
  rcases List.mem_cons.mp isIn with rfl | isIn
  · exact isFirst
  · exact isRest other isIn

theorem shortEscapes_visible : ∀ entry ∈ shortEscapes, 32 ≤ entry.2.toNat := by decide

theorem hexDigit_visible : ∀ n < 16, 32 ≤ (Json.hexDigit n).toNat := by decide

theorem escape_visible (c : Char) : Visible (escape c) := by
  unfold CompactJson.escape
  cases found : shortEscapes.lookup c with
  | some short =>
    obtain ⟨before, after, isIn, -⟩ := List.lookup_eq_some_iff.mp found
    have isShort := shortEscapes_visible (c, short) (by simp [isIn])
    exact .cons (by decide) (.cons isShort nofun)
  | none =>
    dsimp only
    split
    case isTrue isControl =>
      have high := hexDigit_visible (c.toNat / 16) (by omega)
      have low := hexDigit_visible (c.toNat % 16) (by omega)
      exact .cons (by decide) (.cons (by decide) (.cons (by decide) (.cons (by decide)
        (.cons high (.cons low nofun)))))
    case isFalse plain => exact Visible.cons (by omega) nofun

theorem quote_visible (text : String) : Visible (quote text) := by
  have inner : Visible (text.toList.flatMap escape) := by
    intro c isIn
    obtain ⟨given, -, isIn⟩ := List.mem_flatMap.mp isIn
    exact escape_visible given c isIn
  exact .cons (by decide) (inner.append (.cons (by decide) nofun))

theorem joined_visible {parts : List (List Char)} (each : ∀ part ∈ parts, Visible part) :
    Visible (joined parts) := by
  induction parts using joined.induct with
  | case1 => exact nofun
  | case2 part => exact each part List.mem_cons_self
  | case3 part next rest ih =>
    rw [List.forall_mem_cons] at each
    exact each.1.append (.cons (by decide) (ih each.2))

section Text
variable (floats : FloatText)

mutual
theorem toJson_visible : ∀ value : JsonValue, Visible (toJson floats value)
  | .null => by
    rw [toJson]
    exact .cons (by decide) (.cons (by decide) (.cons (by decide) (.cons (by decide) nofun)))
  | .bool true => by
    rw [toJson]
    exact .cons (by decide) (.cons (by decide) (.cons (by decide) (.cons (by decide) nofun)))
  | .bool false => by
    rw [toJson]
    exact .cons (by decide) (.cons (by decide) (.cons (by decide) (.cons (by decide) (.cons (by decide) nofun))))
  | .int n => by
    intro c isIn
    rw [toJson] at isIn
    rcases PyJson.intRepr_chars isIn with isDigit | rfl
    · have zero : '0'.toNat = 48 := rfl
      have range := Char.isDigit_iff_toNat.mp isDigit
      omega
    · decide
  | .float x => by
    rw [toJson]
    exact floats.visible x
  | .str s => by
    rw [toJson]
    exact quote_visible s
  | .list items => by
    rw [toJson]
    exact .cons (by decide) ((joined_visible (toJsonItems_visible items)).append (.cons (by decide) nofun))
  | .dict members => by
    rw [toJson]
    exact .cons (by decide) ((joined_visible (toJsonMembers_visible members)).append (.cons (by decide) nofun))

theorem toJsonItems_visible : ∀ items : List JsonValue, ∀ part ∈ toJsonItems floats items, Visible part
  | [] => by
    rw [toJsonItems]
    nofun
  | item :: rest => by
    rw [toJsonItems, List.forall_mem_cons]
    exact ⟨toJson_visible item, toJsonItems_visible rest⟩

theorem toJsonMembers_visible : ∀ members : Members, ∀ part ∈ toJsonMembers floats members, Visible part
  | [] => by
    rw [toJsonMembers]
    nofun
  | (key, value) :: rest => by
    rw [toJsonMembers, List.forall_mem_cons]
    exact ⟨(quote_visible key).append (.cons (by decide) (toJson_visible value)), toJsonMembers_visible rest⟩
end

end Text

theorem ansiEscape_eq_none {text : List Char} (isVisible : Visible text) : ansiEscape text = none := by
  cases text with
  | nil => rfl
  | cons first rest =>
    have isFirst := isVisible first List.mem_cons_self
    have apart : first ≠ escapeChar := by
      rintro rfl
      exact absurd isFirst (by decide)
    unfold ansiEscape
    split
    all_goals first
      | rfl
      | simp_all

theorem stripFrom_eq {fuel : Nat} {text : List Char} (isVisible : Visible text) (isEnough : text.length ≤ fuel) :
    stripFrom fuel text = text := by
  induction fuel generalizing text with
  | zero =>
    rw [List.length_eq_zero_iff.mp (Nat.le_zero.mp isEnough)]
    rfl
  | succ fuel ih =>
    have whole := ansiEscape_eq_none isVisible
    cases text with
    | nil => simp only [stripFrom, whole]
    | cons c rest =>
      have isRest : Visible rest := fun other isIn => isVisible other (List.mem_cons_of_mem c isIn)
      have fewer : rest.length ≤ fuel := by
        rw [List.length_cons] at isEnough
        omega
      simp only [stripFrom, whole, ih isRest fewer]

theorem stripAnsi_toJson (floats : FloatText) (value : JsonValue) :
    stripAnsi (toJson floats value) = toJson floats value :=
  stripFrom_eq (toJson_visible floats value) (Nat.le_refl _)

theorem bytes_length (text : List Char) : text.length ≤ bytes text := by
  induction text with
  | nil => exact Nat.le_refl _
  | cons c text ih =>
    have positive : 0 < c.utf8Size := c.utf8Size_pos
    rw [CompactJson.bytes_cons, List.length_cons]
    omega

theorem escape_ne_nil (c : Char) : 1 ≤ (escape c).length := by
  unfold CompactJson.escape
  cases shortEscapes.lookup c with
  | some short => simp
  | none =>
    dsimp only
    split <;> simp

theorem length_quote (text : String) : text.toList.length + 2 ≤ (quote text).length := by
  have each : ∀ given : List Char, given.length ≤ (given.flatMap escape).length := by
    intro given
    induction given with
    | nil => exact Nat.le_refl _
    | cons c given ih =>
      have some := escape_ne_nil c
      rw [List.flatMap_cons, List.length_append, List.length_cons]
      omega
  have inner := each text.toList
  simp only [CompactJson.quote, List.length_cons, List.length_append, List.length_nil]
  omega

theorem le_quoted (text : List Char) : text.length + 2 ≤ quoted (String.ofList text) := by
  have long := length_quote (String.ofList text)
  have atLeast := bytes_length (quote (String.ofList text))
  rw [String.toList_ofList] at long
  exact Nat.le_trans long atLeast

theorem quoted_append (s t : String) : quoted (s ++ t) + 2 = quoted s + quoted t := by
  have mark : ('"' : Char).utf8Size = 1 := by decide
  simp only [CompactJson.quoted, CompactJson.quote, String.toList_append, List.flatMap_append,
    CompactJson.bytes_cons, CompactJson.bytes_append, CompactJson.bytes_nil, mark]
  omega

theorem hex_plain : ("0123456789abcdef".toList.all fun c => bytes (escape c) == 1) = true := by decide

theorem quoted_hex (uuid : Uuid) : quoted (String.ofList uuid.hex) = 34 := by
  have each : ∀ digits : List Char, (∀ c ∈ digits, c ∈ "0123456789abcdef".toList) →
      bytes (digits.flatMap escape) = digits.length := by
    intro digits areDigits
    induction digits with
    | nil => rfl
    | cons c digits ih =>
      rw [List.forall_mem_cons] at areDigits
      rw [List.flatMap_cons, CompactJson.bytes_append, beq_iff_eq.mp (List.all_eq_true.mp hex_plain c areDigits.1),
        ih areDigits.2, List.length_cons]
      omega
  have mark : ('"' : Char).utf8Size = 1 := by decide
  simp only [CompactJson.quoted, CompactJson.quote, String.toList_ofList, CompactJson.bytes_cons,
    CompactJson.bytes_append, CompactJson.bytes_nil, mark, each uuid.hex uuid.digits, uuid.length_eq]

theorem quoted_handle (uuid other : Uuid) : quoted (handleOf uuid) = quoted (handleOf other) := by
  have first := quoted_append "tool-result-" (String.ofList uuid.hex)
  have second := quoted_append "tool-result-" (String.ofList other.hex)
  rw [quoted_hex] at first second
  unfold handleOf
  omega

theorem quoted_between {s t : String} (same : quoted s = quoted t) (front back : String) :
    quoted (front ++ s ++ back) = quoted (front ++ t ++ back) := by
  have first := quoted_append (front ++ s) back
  have second := quoted_append (front ++ t) back
  have firstFront := quoted_append front s
  have secondFront := quoted_append front t
  omega

theorem quoted_summary (chars : Nat) (uuid other : Uuid) :
    quoted (summary chars (handleOf uuid)) = quoted (summary chars (handleOf other)) :=
  quoted_between (quoted_handle uuid other) _ _

section Bytes
variable (floats : FloatText)

/-- The stand-in without its preview, its sketch and its receipt. -/
def frame (handle : String) (chars : Nat) (contract : Bool) : Envelope :=
  ⟨handle, chars, [], "", [], contract⟩

theorem bytes_eq (envelope : Envelope) : envelope.bytes floats + 6 =
    (frame envelope.handle envelope.chars envelope.contract).bytes floats +
      quoted (String.ofList envelope.preview) + quoted envelope.sketch + size floats (.dict envelope.publicReceipt) := by
  have nothing : bytes (quote "") = 2 := by decide
  have opening : ('{' : Char).utf8Size = 1 := by decide
  have closing : ('}' : Char).utf8Size = 1 := by decide
  obtain ⟨handle, chars, preview, sketch, receipt, contract⟩ := envelope
  cases contract with
  | true =>
    simp only [frame, Envelope.bytes, Envelope.members, size, CompactJson.quoted, toJson, toJsonMembers, joined,
      List.cons_append, List.nil_append, if_true, CompactJson.bytes_cons, CompactJson.bytes_append,
      CompactJson.bytes_nil, String.ofList_nil, nothing, opening, closing]
    omega
  | false =>
    simp only [frame, Envelope.bytes, Envelope.members, size, CompactJson.quoted, toJson, toJsonMembers, joined,
      List.cons_append, List.nil_append, Bool.false_eq_true, if_false, CompactJson.bytes_cons,
      CompactJson.bytes_append, CompactJson.bytes_nil, String.ofList_nil, nothing, opening, closing]
    omega

theorem frame_handle (uuid other : Uuid) (chars : Nat) (contract : Bool) :
    (frame (handleOf uuid) chars contract).bytes floats = (frame (handleOf other) chars contract).bytes floats := by
  have handle := quoted_handle uuid other
  have text := quoted_summary chars uuid other
  rw [CompactJson.quoted, CompactJson.quoted] at handle text
  cases contract with
  | true =>
    simp only [frame, Envelope.bytes, Envelope.members, size, toJson, toJsonMembers, joined, List.cons_append,
      List.nil_append, if_true, CompactJson.bytes_cons, CompactJson.bytes_append, handle, text]
  | false =>
    simp only [frame, Envelope.bytes, Envelope.members, size, toJson, toJsonMembers, joined, List.cons_append,
      List.nil_append, Bool.false_eq_true, if_false, CompactJson.bytes_cons, CompactJson.bytes_append, handle, text]

theorem bytes_mono {envelope : Envelope} {preview : List Char} {sketch : String}
    (shorter : quoted (String.ofList preview) ≤ quoted (String.ofList envelope.preview))
    (lesser : quoted sketch ≤ quoted envelope.sketch) :
    ({ envelope with preview := preview, sketch := sketch } : Envelope).bytes floats ≤ envelope.bytes floats := by
  have before := bytes_eq floats envelope
  have after := bytes_eq floats { envelope with preview := preview, sketch := sketch }
  dsimp only at after
  omega

end Bytes

theorem quoted_omitted : quoted (String.ofList previewOmitted) = 47 := by decide +kernel

theorem omitted_le {text : List Char} (isLong : 45 ≤ text.length) :
    quoted (String.ofList previewOmitted) ≤ quoted (String.ofList text) := by
  have atLeast := le_quoted text
  rw [quoted_omitted]
  omega

theorem length_lastChars {n : Nat} {text : List Char} (fits : n ≤ text.length) : n ≤ (lastChars n text).length := by
  unfold lastChars
  split
  · omega
  · rw [List.length_drop]
    omega

theorem le_length_truncate {text : List Char} {least maxChars : Nat} (isLong : least ≤ text.length)
    (keeps : least ≤ maxChars) (strategy : TruncationStrategy) :
    least ≤ (truncateText text maxChars strategy).length := by
  unfold truncateText
  dsimp only
  split
  case isTrue => exact isLong
  case isFalse more =>
    cases strategy with
    | head =>
      rw [List.length_append, List.length_take]
      omega
    | tail =>
      have last := @length_lastChars maxChars text (by omega)
      rw [List.length_append]
      omega
    | headTail =>
      have last := @length_lastChars (maxChars - maxChars * 2 / 5) text (by omega)
      rw [List.length_append, List.length_append, List.length_take]
      omega

section Shrink
variable (floats : FloatText) {overflowed : Envelope}

def Envelope.cut (envelope : Envelope) : Envelope := { envelope with preview := previewOmitted, sketch := "" }

theorem shrink_fits_iff (isLong : 45 ≤ overflowed.preview.length) :
    fitsBudget floats (shrinkToCompactBudget floats overflowed) = true ↔
      fitsBudget floats overflowed.cut = true := by
  have some : overflowed.preview ≠ [] := by
    intro isEmpty
    rw [isEmpty, List.length_nil] at isLong
    omega
  have noSketch : quoted "" ≤ quoted overflowed.sketch := by
    have nothing : quoted "" = 2 := by decide
    have atLeast := CompactJson.two_le_quoted overflowed.sketch
    omega
  have cut_of_fits : ∀ preview : List Char, 45 ≤ preview.length →
      fitsBudget floats { overflowed with preview := preview } = true → fitsBudget floats overflowed.cut = true := by
    intro preview long fits
    rw [fitsBudget, decide_eq_true_iff] at fits ⊢
    exact Nat.le_trans (@bytes_mono floats { overflowed with preview := preview } _ _
      (omitted_le long) noSketch) fits
  unfold shrinkToCompactBudget
  by_cases whole : fitsBudget floats overflowed = true
  · rw [if_pos whole]
    exact iff_of_true whole (cut_of_fits overflowed.preview isLong whole)
  · rw [if_neg whole, if_neg some]
    dsimp only
    cases tried : ([400, 100, 0].map fun shrunkChars =>
        { overflowed with preview := shrunkPreview overflowed.preview shrunkChars }).find? (fitsBudget floats) with
    | none => exact Iff.rfl
    | some candidate =>
      have fits := List.find?_some tried
      refine iff_of_true fits ?_
      obtain ⟨shrunkChars, isOne, rfl⟩ := List.mem_map.mp (List.mem_of_find?_eq_some tried)
      refine cut_of_fits (shrunkPreview overflowed.preview shrunkChars) ?_ fits
      unfold shrunkPreview
      split
      · decide
      · rename_i notZero
        have isLarge : 45 ≤ shrunkChars := by
          simp only [List.mem_cons, List.not_mem_nil, or_false] at isOne
          omega
        exact le_length_truncate isLong isLarge .head

theorem shrink_keeps : (shrinkToCompactBudget floats overflowed).publicReceipt = overflowed.publicReceipt ∧
    (shrinkToCompactBudget floats overflowed).handle = overflowed.handle ∧
    (shrinkToCompactBudget floats overflowed).contract = overflowed.contract := by
  unfold shrinkToCompactBudget
  split
  · exact ⟨rfl, rfl, rfl⟩
  · split
    · exact ⟨rfl, rfl, rfl⟩
    · dsimp only
      split
      case h_1 candidate tried =>
        obtain ⟨shrunkChars, -, rfl⟩ := List.mem_map.mp (List.mem_of_find?_eq_some tried)
        exact ⟨rfl, rfl, rfl⟩
      case h_2 => exact ⟨rfl, rfl, rfl⟩

end Shrink

end Counselle.Overflow
