import Counselle.Cds.Storable
import Mathlib.Data.Prod.Lex
import Mathlib.Data.Char

/-! The order in which the claims of a metric are compared: a claim that comes first in it
is the same whatever the order of the list, since the key of a claim tells the claim. -/
namespace Counselle.Cds
open PyJson (JsonValue PyFloat dumpText)
open PyJson.JsonValue (get)
open PyText (PyError isSpace)

theorem textLess_iff (a b : List Char) : textLess a b = true ↔ a < b := by
  induction a generalizing b with
  | nil =>
    cases b with
    | nil => simp [textLess]
    | cons => simp [textLess]
  | cons c rest ih =>
    cases b with
    | nil => simp [textLess]
    | cons d more =>
      have less : c.toNat < d.toNat ↔ c < d := Iff.rfl
      have same : c.toNat = d.toNat ↔ c = d := Char.toNat_inj
      simp [textLess, List.cons_lt_cons_iff, ih, less, same]

def ClaimKey.rank (key : ClaimKey) : Lex (Int × Lex (List Char × List Char)) :=
  toLex (key.1, toLex (key.2.1, key.2.2))

theorem ClaimKey.less_iff (a b : ClaimKey) : a.less b = true ↔ a.rank < b.rank := by
  simp [ClaimKey.less, ClaimKey.rank, Prod.Lex.toLex_lt_toLex, textLess_iff]

section Least
variable {A R : Type} [LinearOrder R]

theorem rank_foldl_le {less : A → A → Bool} {rank : A → R} (ranked : ∀ a b, less a b = true ↔ rank a < rank b)
    (first : A) (rest : List A) :
    ∀ x ∈ first :: rest, rank (rest.foldl (fun best next => if less next best then next else best) first) ≤ rank x := by
  induction rest generalizing first with
  | nil => simp
  | cons next rest ih =>
    intro x isIn
    rw [List.foldl_cons]
    split
    case isTrue lower =>
      have below := ih next
      rcases List.mem_cons.mp isIn with rfl | isIn
      · exact (below next List.mem_cons_self).trans ((ranked _ _).mp lower).le
      · exact below x isIn
    case isFalse higher =>
      have below := ih first
      rw [ranked, not_lt] at higher
      rcases List.mem_cons.mp isIn with rfl | isIn
      · exact below _ List.mem_cons_self
      · rcases List.mem_cons.mp isIn with rfl | isIn
        · exact (below first List.mem_cons_self).trans higher
        · exact below x (List.mem_cons_of_mem _ isIn)

theorem rank_pyMin_le {less : A → A → Bool} (rank : A → R) (ranked : ∀ a b, less a b = true ↔ rank a < rank b)
    {items : List A} {least : A} (isLeast : pyMin less items = some least) :
    ∀ x ∈ items, rank least ≤ rank x := by
  cases items with
  | nil => cases isLeast
  | cons first rest =>
    obtain rfl := Option.some.inj isLeast
    exact rank_foldl_le ranked first rest

theorem pyMin_isSome {less : A → A → Bool} {items : List A} (some : items ≠ []) :
    ∃ least, pyMin less items = .some least := by
  cases items with
  | nil => exact absurd rfl some
  | cons first rest => exact ⟨_, rfl⟩

end Least

theorem position_leading {claims others : List Claim} (perm : claims.Perm others) {first second : Claim}
    (isFirst : leading claims = some first) (isSecond : leading others = some second) :
    first.position = second.position := by
  have ranked : ∀ a b : Claim, a.position.less b.position = true ↔ a.position.rank < b.position.rank :=
    fun a b => ClaimKey.less_iff a.position b.position
  have same := le_antisymm
    (rank_pyMin_le (fun claim : Claim => claim.position.rank) ranked isFirst second (perm.mem_iff.mpr (pyMin_mem isSecond)))
    (rank_pyMin_le (fun claim : Claim => claim.position.rank) ranked isSecond first (perm.mem_iff.mp (pyMin_mem isFirst)))
  simpa [ClaimKey.rank, Prod.ext_iff] using same

theorem dumpText_append_inj {text other : String} {rest more : List Char}
    (same : dumpText text ++ rest = dumpText other ++ more) : text = other ∧ rest = more := by
  rw [PyJson.dumpText_quoted, PyJson.dumpText_quoted] at same
  have parsed := congrArg Json.parseUnits (List.cons.inj same).2
  rw [Json.parseUnits_dump, Json.parseUnits_dump] at parsed
  obtain ⟨units, rest⟩ := Prod.mk.inj (Option.some.inj parsed)
  have texts := congrArg PyJson.textOf units
  rw [PyJson.textOf_unitsOf, PyJson.textOf_unitsOf] at texts
  exact ⟨String.toList_inj.mp texts, rest⟩

theorem compact_str (text : String) : compact (.str text) = dumpText text := by rw [compact]

theorem textValue_append_inj {text other : Option String} {rest more : List Char}
    (same : compact (textValue text) ++ rest = compact (textValue other) ++ more) : text = other ∧ rest = more := by
  cases text with
  | none =>
    cases other with
    | none => exact ⟨rfl, List.append_cancel_left same⟩
    | some other =>
      rw [textValue, textValue, compact_str, PyJson.dumpText_quoted] at same
      exact absurd (List.cons.inj same).1 (by decide)
  | some text =>
    cases other with
    | none =>
      rw [textValue, textValue, compact_str, PyJson.dumpText_quoted] at same
      exact absurd (List.cons.inj same).1 (by decide)
    | some other =>
      rw [textValue, textValue, compact_str, compact_str] at same
      obtain ⟨rfl, rests⟩ := dumpText_append_inj same
      exact ⟨rfl, rests⟩

theorem dumpText_evidence_keys : dumpText "column_label" = "\"column_label\"".toList ∧
    dumpText "excerpt" = "\"excerpt\"".toList ∧ dumpText "page_number" = "\"page_number\"".toList ∧
    dumpText "row_label" = "\"row_label\"".toList ∧ dumpText "section" = "\"section\"".toList :=
  ⟨rfl, rfl, rfl, rfl, rfl⟩

theorem dumpText_claim_keys : dumpText "availability_status" = "\"availability_status\"".toList ∧
    dumpText "evidence" = "\"evidence\"".toList ∧ dumpText "extraction_status" = "\"extraction_status\"".toList ∧
    dumpText "verified" = "\"verified\"".toList ∧ dumpText "raw_value" = "\"raw_value\"".toList ∧
    dumpText "value" = "\"value\"".toList :=
  ⟨rfl, rfl, rfl, rfl, rfl, rfl⟩

theorem compact_evidence (evidence : Evidence) : compact evidence.json =
    "\x7b\"column_label\":".toList ++ (compact (textValue evidence.columnLabel) ++
      (",\"excerpt\":".toList ++ (dumpText evidence.excerpt ++
        (",\"page_number\":".toList ++ (PyJson.intRepr evidence.pageNumber ++
          (",\"row_label\":".toList ++ (compact (textValue evidence.rowLabel) ++
            (",\"section\":".toList ++ (compact (textValue evidence.section_) ++ ['}']))))))))) := by
  obtain ⟨column, excerpt, page, row, section_⟩ := dumpText_evidence_keys
  simp [Evidence.json, compact, compactEntries, List.insertionSort, List.orderedInsert, textLess,
    List.intercalate, column, excerpt, page, row, section_]

theorem compact_claim (claim : Claim) : compact claim.json =
    "\x7b\"availability_status\":".toList ++ (dumpText claim.availabilityStatus.name ++
      (",\"evidence\":".toList ++ (compact claim.evidence.json ++
        (",\"extraction_status\":\"verified\",\"raw_value\":".toList ++ (compact (textValue claim.rawValue) ++
          (",\"value\":".toList ++ (compact claim.value ++ ['}']))))))) := by
  obtain ⟨status, evidence, extraction, verified, raw, value⟩ := dumpText_claim_keys
  generalize isText : compact claim.evidence.json = text
  simp [Claim.json, compact, compactEntries, List.insertionSort, List.orderedInsert, textLess,
    List.intercalate, status, evidence, extraction, verified, raw, value, isText]

theorem evidence_inj {one other : Evidence} (page : one.pageNumber = other.pageNumber)
    (same : compact one.json = compact other.json) : one = other := by
  rw [compact_evidence, compact_evidence, page] at same
  obtain ⟨column, same⟩ := textValue_append_inj (List.append_cancel_left same)
  obtain ⟨excerpt, same⟩ := dumpText_append_inj (List.append_cancel_left same)
  obtain ⟨row, same⟩ := textValue_append_inj
    (List.append_cancel_left (List.append_cancel_left (List.append_cancel_left same)))
  obtain ⟨section_, -⟩ := textValue_append_inj (List.append_cancel_left same)
  cases one
  cases other
  simp_all

/-- A value as a finding holds it: no list or dict, and a float that is a double. -/
def Scalar : JsonValue → Prop
  | .float (.finite q) => Binary64.ofRat q = .finite q
  | .list _ | .dict _ => False
  | _ => True

theorem mem_floatRepr_mark (q : ℚ) : '.' ∈ PyNumber.floatRepr (.finite q) ∨ 'e' ∈ PyNumber.floatRepr (.finite q) := by
  unfold PyNumber.floatRepr
  dsimp only
  split_ifs
  · exact Or.inl (by decide)
  · left
    simp only [List.mem_append]
    right
    unfold PyNumber.pointed
    split_ifs <;> simp
  · right
    simp [PyNumber.exponential]
  · left
    simp only [List.mem_append]
    right
    unfold PyNumber.pointed
    split_ifs <;> simp
  · right
    simp [PyNumber.exponential]

theorem compact_int_ne_float (n : Int) (q : ℚ) : compact (.int n) ≠ compact (.float (.finite q)) := by
  intro same
  rw [compact, compact] at same
  have written : ∀ c ∈ PyNumber.floatRepr (.finite q), c.isDigit = true ∨ c = '-' := fun c isIn =>
    PyJson.intRepr_chars (same ▸ isIn : c ∈ PyJson.intRepr n)
  rcases mem_floatRepr_mark q with mark | mark
  · exact absurd (written _ mark) (by decide)
  · exact absurd (written _ mark) (by decide)

theorem ofRat_abs {q : ℚ} (double : Binary64.ofRat q = .finite q) : Binary64.ofRat |q| = .finite |q| := by
  obtain ⟨same, bounded⟩ := PyNumber.ofRat_finite.mp double
  apply PyNumber.ofRat_finite.mpr
  rw [abs_abs]
  refine ⟨?_, bounded⟩
  rcases abs_choice q with plain | negated
  · rw [plain, same]
  · rw [negated, Binary64.rounded_neg, same]

theorem decimalOfRepr_spec {q : ℚ} (double : Binary64.ofRat q = .finite q) (nonzero : q ≠ 0) :
    ∃ size : ℚ, 0 < size ∧ Binary64.ofRat size = .finite |q| ∧
      decimalOfRepr q = (if q < 0 then -1 else 1) * size := by
  have reads := PyNumber.ofRat_shortest (abs_pos.mpr nonzero) (ofRat_abs double)
  refine ⟨(PyNumber.shortest |q|).1 * 10 ^ (PyNumber.shortest |q|).2, ?_, reads, ?_⟩
  · apply lt_of_le_of_ne (by positivity)
    intro zero
    rw [← zero] at reads
    have rounds := (PyNumber.ofRat_finite.mp reads).1
    rw [Binary64.rounded_zero] at rounds
    exact nonzero (abs_eq_zero.mp rounds.symm)
  · rw [decimalOfRepr, if_neg nonzero]

theorem decimalOfRepr_inj {q r : ℚ} (double : Binary64.ofRat q = .finite q) (other : Binary64.ofRat r = .finite r)
    (same : decimalOfRepr q = decimalOfRepr r) : q = r := by
  by_cases zero : q = 0
  · by_cases otherZero : r = 0
    · rw [zero, otherZero]
    · obtain ⟨size, positive, -, written⟩ := decimalOfRepr_spec other otherZero
      rw [written, decimalOfRepr, if_pos zero] at same
      split_ifs at same <;> linarith
  · obtain ⟨size, positive, reads, written⟩ := decimalOfRepr_spec double zero
    by_cases otherZero : r = 0
    · rw [written, decimalOfRepr, if_pos otherZero] at same
      split_ifs at same <;> linarith
    · obtain ⟨size', positive', reads', written'⟩ := decimalOfRepr_spec other otherZero
      rw [written, written'] at same
      have sizes : |q| = |r| → (q < 0 ↔ r < 0) → q = r := by
        intro sizes signs
        rcases abs_eq_abs.mp sizes with same | opposite
        · exact same
        · rcases lt_or_gt_of_ne zero with negative | above
          · have := signs.mp negative
            linarith
          · have : ¬ r < 0 := fun negative => absurd (signs.mpr negative) (not_lt.mpr above.le)
            exact absurd (by linarith : r < 0) this
      split_ifs at same with negative negative' negative'
      · have equal : size = size' := by linarith
        rw [equal, reads'] at reads
        exact sizes (PyFloat.finite.inj reads).symm (iff_of_true negative negative')
      · linarith
      · linarith
      · have equal : size = size' := by linarith
        rw [equal, reads'] at reads
        exact sizes (PyFloat.finite.inj reads).symm (iff_of_false negative negative')

theorem scalar_inj {value other : JsonValue} (scalar : Scalar value) (otherScalar : Scalar other) {key : SemanticKey}
    (valued : semanticValueKey value = .ok key) (otherValued : semanticValueKey other = .ok key)
    (comparable : key ≠ .nan) (written : compact value = compact other) : value = other := by
  cases value with
  | null =>
    obtain rfl := Except.ok.inj valued
    cases other with
    | null => rfl
    | float q => cases q <;> cases Except.ok.inj otherValued
    | list => exact otherScalar.elim
    | dict => exact otherScalar.elim
    | _ => cases Except.ok.inj otherValued
  | bool b =>
    obtain rfl := Except.ok.inj valued
    cases other with
    | bool c => rw [(SemanticKey.boolean.inj (Except.ok.inj otherValued)).symm]
    | float q => cases q <;> cases Except.ok.inj otherValued
    | list => exact otherScalar.elim
    | dict => exact otherScalar.elim
    | _ => cases Except.ok.inj otherValued
  | int n =>
    obtain rfl := Except.ok.inj valued
    cases other with
    | int m =>
      have same := SemanticKey.number.inj (Except.ok.inj otherValued)
      rw [Int.cast_inj.mp same]
    | float q =>
      cases q with
      | finite q => exact absurd written (compact_int_ne_float n q)
      | infinite => cases Except.ok.inj otherValued
      | nan => cases Except.ok.inj otherValued
    | list => exact otherScalar.elim
    | dict => exact otherScalar.elim
    | _ => cases Except.ok.inj otherValued
  | float q =>
    cases other with
    | int m =>
      cases q with
      | finite q => exact absurd written.symm (compact_int_ne_float m q)
      | infinite => cases (Except.ok.inj valued).trans (Except.ok.inj otherValued).symm
      | nan => cases (Except.ok.inj valued).trans (Except.ok.inj otherValued).symm
    | float r =>
      have keys := valued.trans otherValued.symm
      cases q with
      | finite q =>
        cases r with
        | finite r => rw [decimalOfRepr_inj scalar otherScalar (SemanticKey.number.inj (Except.ok.inj keys))]
        | _ => cases Except.ok.inj keys
      | infinite negative =>
        cases r with
        | infinite => rw [SemanticKey.infinite.inj (Except.ok.inj keys)]
        | _ => cases Except.ok.inj keys
      | nan => exact absurd (Except.ok.inj valued).symm comparable
    | list => exact otherScalar.elim
    | dict => exact otherScalar.elim
    | _ => cases q <;> cases (Except.ok.inj valued).trans (Except.ok.inj otherValued).symm
  | str text =>
    obtain rfl := Except.ok.inj valued
    cases other with
    | str more =>
      rw [compact_str, compact_str] at written
      rw [(dumpText_append_inj (congrArg (· ++ []) written)).1]
    | float q => cases q <;> cases Except.ok.inj otherValued
    | list => exact otherScalar.elim
    | dict => exact otherScalar.elim
    | _ => cases Except.ok.inj otherValued
  | list => exact scalar.elim
  | dict => exact scalar.elim

theorem position_inj {claim other : Claim} (scalar : Scalar claim.value) (otherScalar : Scalar other.value)
    {outcome : OutcomeKey} (resolved : claim.outcome = .ok outcome) (otherResolved : other.outcome = .ok outcome)
    (comparable : outcome.2 ≠ .nan) (same : claim.position = other.position) : claim = other := by
  obtain ⟨key, valued, rfl⟩ := Fallible.map_ok_iff.mp resolved
  obtain ⟨otherKey, otherValued, keys⟩ := Fallible.map_ok_iff.mp otherResolved
  obtain ⟨statuses, rfl⟩ := Prod.mk.inj keys
  obtain ⟨page, texts⟩ := Prod.mk.inj same
  obtain ⟨evidenceText, claimText⟩ := Prod.mk.inj texts
  have evidence := evidence_inj page evidenceText
  have status : claim.availabilityStatus = other.availabilityStatus := (Option.some.inj statuses).symm
  rw [compact_claim, compact_claim, evidence, status] at claimText
  obtain ⟨raw, rest⟩ := textValue_append_inj (List.append_cancel_left (List.append_cancel_left
    (List.append_cancel_left (List.append_cancel_left (List.append_cancel_left claimText)))))
  have value := scalar_inj scalar otherScalar valued otherValued comparable
    (List.append_cancel_right (List.append_cancel_left rest))
  cases claim
  cases other
  simp_all

end Counselle.Cds
