import Counselle.Facts.FactGroups

/-! What a group of the facts page shows of the stored rows, and when it shows all of it. -/
namespace Counselle.Facts
open PyJson (JsonValue PyFloat)

variable {group : List SectionFact} {byKey : List FactValueRow} {status : SchoolStatus}

def keysOf (group : List SectionFact) (spec : SectionFact) : List String :=
  match bandOf group spec with
  | some (stem, _) => [spec.key, sideKey stem upperSide]
  | none => [spec.key]

def factFor (group : List SectionFact) (byKey : List FactValueRow) (status : SchoolStatus) (spec : SectionFact) :
    Fact :=
  match bandOf group spec with
  | some (stem, scale) =>
    bandFact spec stem scale (factOf byKey spec.key) (factOf byKey (sideKey stem upperSide))
      (status.tabs spec.tab) status.hasCollegedata
  | none => buildFact spec (factOf byKey spec.key) (status.tabs spec.tab) status.hasCollegedata

def usedBy (group : List SectionFact) (spec : SectionFact) : List String :=
  match bandOf group spec with
  | some (stem, _) => [spec.key, sideKey stem upperSide]
  | none => []

/-- The declared facts that are not consumed by one before them. -/
def emitted (group : List SectionFact) : List SectionFact → List String → List SectionFact
  | [], _ => []
  | spec :: rest, consumed =>
    if spec.key ∈ consumed then emitted group rest consumed
    else spec :: emitted group rest (consumed ++ usedBy group spec)

theorem groupFactsFrom_eq (specs : List SectionFact) (consumed : List String) :
    groupFactsFrom group byKey status specs consumed =
      (emitted group specs consumed).map fun spec => (keysOf group spec, factFor group byKey status spec) := by
  induction specs generalizing consumed with
  | nil => rfl
  | cons spec rest ih =>
    rw [groupFactsFrom, emitted]
    split_ifs with used
    · exact ih consumed
    · rw [List.map_cons, ← ih]
      cases band : bandOf group spec with
      | none => simp only [tryBand, band, usedBy, keysOf, factFor, Option.map_none, List.append_nil]
      | some found =>
        obtain ⟨stem, scale⟩ := found
        simp only [tryBand, band, usedBy, keysOf, factFor, Option.map_some]

theorem mem_coveredFacts {entry : List String × Fact} : entry ∈ coveredFacts group byKey status ↔
    ∃ spec ∈ emitted group group [], entry = (keysOf group spec, factFor group byKey status spec) := by
  rw [coveredFacts, groupFactsFrom_eq, List.mem_map]
  simp only [eq_comm]

theorem emitted_sublist (specs : List SectionFact) (consumed : List String) :
    (emitted group specs consumed).Sublist specs := by
  induction specs generalizing consumed with
  | nil => exact List.Sublist.refl []
  | cons spec rest ih =>
    rw [emitted]
    split_ifs
    · exact (ih consumed).cons spec
    · exact (ih _).cons_cons spec

theorem mem_emitted {spec : SectionFact} {back : List SectionFact} (front : List SectionFact)
    (consumed : List String) (free : spec.key ∉ consumed) (unused : ∀ other ∈ front, spec.key ∉ usedBy group other) :
    spec ∈ emitted group (front ++ spec :: back) consumed := by
  induction front generalizing consumed with
  | nil =>
    rw [List.nil_append, emitted, if_neg free]
    exact List.mem_cons_self
  | cons other front ih =>
    have later := fun other mem => unused other (List.mem_cons_of_mem _ mem)
    rw [List.cons_append, emitted]
    split_ifs
    · exact ih consumed free later
    · apply List.mem_cons_of_mem
      apply ih _ _ later
      rw [List.mem_append]
      exact fun used => used.elim free (unused other List.mem_cons_self)

def IsBand (group : List SectionFact) (lower upper : SectionFact) : Prop :=
  ∃ stem scale, bandOf group lower = some (stem, scale) ∧ upper.key = sideKey stem upperSide

/-- The upper side of a band is declared behind its lower side. -/
def Ordered (group : List SectionFact) : Prop :=
  ∀ front upper back, group = front ++ upper :: back → ∀ lower ∈ group, IsBand group lower upper → lower ∈ front

theorem mem_usedBy {spec : SectionFact} {key : String} : key ∈ usedBy group spec ↔
    ∃ stem scale, bandOf group spec = some (stem, scale) ∧ (key = spec.key ∨ key = sideKey stem upperSide) := by
  unfold usedBy
  cases band : bandOf group spec with
  | none => simp
  | some found =>
    obtain ⟨stem, scale⟩ := found
    simp only [List.mem_cons, List.not_mem_nil, or_false, Option.some.injEq, Prod.mk.injEq]
    constructor
    · exact fun same => ⟨stem, scale, ⟨rfl, rfl⟩, same⟩
    · rintro ⟨_, _, ⟨rfl, rfl⟩, same⟩
      exact same

theorem mem_keysOf {spec : SectionFact} {key : String} : key ∈ keysOf group spec ↔
    key = spec.key ∨ ∃ stem scale, bandOf group spec = some (stem, scale) ∧ key = sideKey stem upperSide := by
  unfold keysOf
  cases band : bandOf group spec with
  | none => simp
  | some found =>
    obtain ⟨stem, scale⟩ := found
    simp only [List.mem_cons, List.not_mem_nil, or_false, Option.some.injEq, Prod.mk.injEq]
    constructor
    · rintro (same | same)
      · exact .inl same
      · exact .inr ⟨stem, scale, ⟨rfl, rfl⟩, same⟩
    · rintro (same | ⟨_, _, ⟨rfl, rfl⟩, same⟩)
      · exact .inl same
      · exact .inr same

theorem spec_eq (distinct : (group.map SectionFact.key).Nodup) {a b : SectionFact} (first : a ∈ group)
    (second : b ∈ group) (same : a.key = b.key) : a = b :=
  List.inj_on_of_nodup_map distinct first second same

theorem IsBand.lower_eq (distinct : (group.map SectionFact.key).Nodup) {lower other upper : SectionFact}
    (first : lower ∈ group) (second : other ∈ group) (one : IsBand group lower upper)
    (two : IsBand group other upper) : lower = other := by
  obtain ⟨stem, scale, band, upperKey⟩ := one
  obtain ⟨otherStem, otherScale, otherBand, otherKey⟩ := two
  have same : stem = otherStem := sideKey_injective (upperKey.symm.trans otherKey)
  apply spec_eq distinct first second
  rw [(bandOf_some band).1, (bandOf_some otherBand).1, same]

theorem IsBand.no_band {lower upper : SectionFact} (band : IsBand group lower upper) : bandOf group upper = none := by
  obtain ⟨stem, scale, -, upperKey⟩ := band
  exact bandOf_upper upperKey

theorem usedBy_before (distinct : (group.map SectionFact.key).Nodup) {front back : List SectionFact}
    {spec other : SectionFact} (split : group = front ++ spec :: back) (before : other ∈ front)
    (used : spec.key ∈ usedBy group other) : IsBand group other spec := by
  obtain ⟨stem, scale, band, same | upper⟩ := mem_usedBy.mp used
  · have apart : spec.key ∉ front.map SectionFact.key := by
      rw [split, List.map_append, List.map_cons] at distinct
      exact fun mem => (List.nodup_append.mp distinct).2.2 _ mem _ List.mem_cons_self rfl
    exact absurd (same ▸ List.mem_map_of_mem before) apart
  · exact ⟨stem, scale, band, upper⟩

theorem emitted_of_not_behind (distinct : (group.map SectionFact.key).Nodup) {front back : List SectionFact}
    {spec : SectionFact} (split : group = front ++ spec :: back) (free : ∀ lower ∈ front, ¬ IsBand group lower spec) :
    spec ∈ emitted group group [] := by
  have found := @mem_emitted group _ back front [] List.not_mem_nil
    fun other mem used => free other mem (usedBy_before distinct split mem used)
  rwa [← split] at found

theorem emitted_of_no_lower (distinct : (group.map SectionFact.key).Nodup) {spec : SectionFact} (isIn : spec ∈ group)
    (free : ∀ lower ∈ group, ¬ IsBand group lower spec) : spec ∈ emitted group group [] := by
  obtain ⟨front, back, split⟩ := List.append_of_mem isIn
  apply emitted_of_not_behind distinct split
  intro lower mem
  exact free lower (by rw [split]; exact List.mem_append_left _ mem)

theorem emitted_not_upper (distinct : (group.map SectionFact.key).Nodup) (ordered : Ordered group)
    {upper : SectionFact} (isOut : upper ∈ emitted group group []) :
    ∀ lower ∈ group, ¬ IsBand group lower upper := by
  -- what is consumed is what the facts passed so far use
  have general : ∀ done rest consumed, group = done ++ rest →
      (∀ key, key ∈ consumed ↔ ∃ other ∈ done, key ∈ usedBy group other) → upper ∈ emitted group rest consumed →
      ∀ lower ∈ group, ¬ IsBand group lower upper := by
    intro done rest
    induction rest generalizing done with
    | nil => exact fun consumed _ _ mem => absurd mem List.not_mem_nil
    | cons spec rest ih =>
      intro consumed split used mem lower isIn band
      have next : group = (done ++ [spec]) ++ rest := by rw [split, List.append_assoc]; rfl
      rw [emitted] at mem
      split_ifs at mem with skipped
      · obtain ⟨other, before, keyUsed⟩ := (used spec.key).mp skipped
        have none : usedBy group spec = [] := by
          rw [usedBy, (usedBy_before distinct split before keyUsed).no_band]
        refine ih (done ++ [spec]) consumed next (fun key => ?_) mem lower isIn band
        simp only [used, List.mem_append, List.mem_singleton, or_and_right, exists_or, exists_eq_left, none,
          List.not_mem_nil, or_false]
      · obtain rfl | mem := List.mem_cons.mp mem
        · have before := ordered done upper rest split lower isIn band
          obtain ⟨stem, scale, found, upperKey⟩ := band
          exact skipped ((used _).mpr ⟨lower, before, mem_usedBy.mpr ⟨stem, scale, found, .inr upperKey⟩⟩)
        · refine ih (done ++ [spec]) _ next (fun key => ?_) mem lower isIn band
          simp only [used, List.mem_append, List.mem_singleton, or_and_right, exists_or, exists_eq_left]
  exact general [] group [] rfl (fun key => by simp) isOut

inductive TakenFrom (row : FactValueRow) : FactValue → Prop where
  | num {value : PyFloat} : row.fact.typed.num = some value → TakenFrom row (.num value)
  | text {value : String} : row.fact.typed.text = some value → TakenFrom row (.text value)
  | bool {value : Bool} : row.fact.typed.bool = some value → TakenFrom row (.bool value)
  | date {value : Calendar.Date} : row.fact.typed.date = some value → TakenFrom row (.date value.isoformat)
  | payload : row.payload ≠ .null → TakenFrom row (.payload row.payload)
  | distribution : row.payload ≠ .null → TakenFrom row (.payload (enrichDistribution row.payload))
  | range : payloadMember row.payload "lo" ≠ .null → payloadMember row.payload "hi" ≠ .null →
      TakenFrom row (.band (payloadMember row.payload "lo") (payloadMember row.payload "hi") none)

/-- A fact carries a row under a key: it is the row's own fact, or the band shows the row's number at the
side of the key. -/
def ShowsRow (fact : Fact) (key : String) (row : FactValueRow) : Prop :=
  (fact.key = key ∧ fact.display = row.fact.display.toList ∧ TakenFrom row fact.value) ∨
  ∃ number low high scale, row.fact.typed.num = some number ∧ fact.value = .band low high (some scale) ∧
    wholeText number <:+: fact.display ∧
    (key = sideKey fact.key lowerSide ∧ low = .float number ∨ key = sideKey fact.key upperSide ∧ high = .float number)

/-- The facts of a group show the stored rows, each once, and nothing in the place of a row that is not
stored. -/
structure ShowsEveryRow (group : List SectionFact) (byKey : List FactValueRow) (status : SchoolStatus) : Prop where
  covered : ∀ spec ∈ group, ((coveredFacts group byKey status).filter fun entry => spec.key ∈ entry.1).length = 1
  own : ∀ entry ∈ coveredFacts group byKey status,
    (∃ spec ∈ group, entry.1 = [spec.key] ∧ entry.2.key = spec.key) ∨
    ∃ stem ∈ bandScales.map Prod.fst, entry.1 = [sideKey stem lowerSide, sideKey stem upperSide] ∧ entry.2.key = stem
  stored : ∀ entry ∈ coveredFacts group byKey status, (∃ key ∈ entry.1, factOf byKey key ≠ none) →
    entry.2.state = .value ∧ entry.2.display ≠ [] ∧
    ∀ key ∈ entry.1, ∀ row, factOf byKey key = some row → ShowsRow entry.2 key row
  absent : ∀ entry ∈ coveredFacts group byKey status, (∀ key ∈ entry.1, factOf byKey key = none) →
    entry.2.value = .null ∧ entry.2.state = factState false true (status.tabs entry.2.tab) status.hasCollegedata ∧
    entry.2.display = (absenceDisplay entry.2.state (status.tabs entry.2.tab)).toList ∧ entry.2.state ≠ .value ∧
    entry.2.display ≠ []
  apart : ∀ entry ∈ coveredFacts group byKey status, ∀ others,
    (∀ key ∈ entry.1, factOf others key = factOf byKey key) → entry ∈ coveredFacts group others status

/-- What a row needs for a fact of its own: a text to show, and a value where its type is read from. -/
def Held (row : FactValueRow) : Prop :=
  row.fact.display ≠ "" ∧
  match row.fact.valueType with
  | .url => row.fact.typed.text ≠ none
  | .distribution | .list | .table | .matrix | .ordinal => row.payload ≠ .null
  | .range => payloadMember row.payload "lo" ≠ .null ∧ payloadMember row.payload "hi" ≠ .null
  | _ => row.fact.typed.date ≠ none ∨ row.fact.typed.num ≠ none ∨ row.fact.typed.text ≠ none ∨
      row.fact.typed.bool ≠ none

structure Showable (group : List SectionFact) (byKey : List FactValueRow) (status : SchoolStatus) : Prop where
  ordered : Ordered group
  bands : ∀ lower ∈ group, ∀ upper ∈ group, IsBand group lower upper →
    (factOf byKey lower.key = none ∧ factOf byKey upper.key = none) ∨
    ∃ p25 p75, factOf byKey lower.key = some p25 ∧ factOf byKey upper.key = some p75 ∧
      p25.fact.typed.num ≠ none ∧ p75.fact.typed.num ≠ none
  single : ∀ spec ∈ group, (∀ other ∈ group, ¬ IsBand group spec other ∧ ¬ IsBand group other spec) →
    ∀ row, factOf byKey spec.key = some row → status.hasCollegedata = true ∧ Held row

theorem sideKey_ne {stem : String} {side : List Char} (some : side ≠ []) : sideKey stem side ≠ stem := by
  intro same
  have lists := congrArg String.toList same
  rw [sideKey_toList] at lists
  exact some (List.append_right_eq_self.mp lists)

theorem factState_none (pageStatus : PageStatus) (hasCollegedata : Bool) :
    factState false true pageStatus hasCollegedata ≠ .value := by
  cases hasCollegedata <;> cases pageStatus <;> decide

theorem absenceDisplay_ne {state : FactState} (pageStatus : PageStatus) (absent : state ≠ .value) :
    (absenceDisplay state pageStatus).toList ≠ [] := by
  cases state with
  | value => exact absurd rfl absent
  | notReported => simp [absenceDisplay]
  | notPublished => simp [absenceDisplay]
  | notFetched =>
    rw [absenceDisplay]
    split_ifs <;> simp
  | notCollected => simp [absenceDisplay]

theorem held_iff (row : FactValueRow) :
    Held row ↔ row.fact.display ≠ "" ∧ TakenFrom row (kindAndValue row).2 := by
  have payload : ∀ value, (value ≠ .null → TakenFrom row (.payload value)) →
      (TakenFrom row (payloadValue value) ↔ value ≠ .null) := by
    intro value taken
    cases value with
    | null => exact ⟨fun no => (nomatch no), fun no => absurd rfl no⟩
    | _ => exact ⟨fun _ => JsonValue.noConfusion, fun some => taken some⟩
  have own := payload row.payload fun some => TakenFrom.payload some
  have columns : TakenFrom row (columnValue row.fact.typed) ↔ row.fact.typed.date ≠ none ∨
      row.fact.typed.num ≠ none ∨ row.fact.typed.text ≠ none ∨ row.fact.typed.bool ≠ none := by
    unfold columnValue
    cases date : row.fact.typed.date with
    | some date' => simpa using TakenFrom.date date
    | none =>
      cases num : row.fact.typed.num with
      | some num' => simpa using TakenFrom.num num
      | none =>
        cases text : row.fact.typed.text with
        | some text' => simpa using TakenFrom.text text
        | none =>
          cases bool : row.fact.typed.bool with
          | some bool' => simpa using TakenFrom.bool bool
          | none =>
            simp only [ne_eq, not_true_eq_false, or_false, iff_false]
            exact fun no => nomatch no
  unfold Held kindAndValue
  apply and_congr_right
  intro _
  cases row.fact.valueType with
  | url =>
    cases text : row.fact.typed.text with
    | none => exact ⟨fun no => absurd rfl no, fun no => nomatch no⟩
    | some text' => exact ⟨fun _ => TakenFrom.text text, fun _ => Option.some_ne_none _⟩
  | distribution =>
    cases stored : row.payload with
    | null => exact ⟨fun no => absurd rfl no, fun no => nomatch no⟩
    | dict members =>
      have taken := @TakenFrom.distribution row (by rw [stored]; exact JsonValue.noConfusion)
      rw [stored] at taken
      exact ⟨fun _ => taken, fun _ => JsonValue.noConfusion⟩
    | _ =>
      have taken := @TakenFrom.payload row (by rw [stored]; exact JsonValue.noConfusion)
      rw [stored] at taken
      exact ⟨fun _ => taken, fun _ => JsonValue.noConfusion⟩
  | range =>
    constructor
    · rintro ⟨low, high⟩
      exact TakenFrom.range low high
    · intro taken
      cases taken with
      | range low high => exact ⟨low, high⟩
  | list => exact own.symm
  | table => exact own.symm
  | matrix => exact own.symm
  | ordinal => exact own.symm
  | _ => exact columns.symm

theorem shows_own (entry : List String × Fact) (mem : entry ∈ coveredFacts group byKey status) :
    (∃ spec ∈ group, entry.1 = [spec.key] ∧ entry.2.key = spec.key) ∨
    ∃ stem ∈ bandScales.map Prod.fst,
      entry.1 = [sideKey stem lowerSide, sideKey stem upperSide] ∧ entry.2.key = stem := by
  obtain ⟨spec, isOut, rfl⟩ := mem_coveredFacts.mp mem
  have isIn := (emitted_sublist group []).subset isOut
  unfold keysOf factFor
  cases band : bandOf group spec with
  | none =>
    refine .inl ⟨spec, isIn, rfl, ?_⟩
    cases factOf byKey spec.key <;> rfl
  | some found =>
    obtain ⟨stem, scale⟩ := found
    obtain ⟨lowerKey, known, -⟩ := bandOf_some band
    exact .inr ⟨stem, known, by rw [lowerKey], bandFact_key spec stem scale _ _ _ _⟩

theorem shows_absent (entry : List String × Fact) (mem : entry ∈ coveredFacts group byKey status)
    (none : ∀ key ∈ entry.1, factOf byKey key = none) :
    entry.2.value = .null ∧ entry.2.state = factState false true (status.tabs entry.2.tab) status.hasCollegedata ∧
    entry.2.display = (absenceDisplay entry.2.state (status.tabs entry.2.tab)).toList ∧ entry.2.state ≠ .value ∧
    entry.2.display ≠ [] := by
  obtain ⟨spec, isOut, rfl⟩ := mem_coveredFacts.mp mem
  have state := factState_none (status.tabs spec.tab) status.hasCollegedata
  have shown := absenceDisplay_ne (status.tabs spec.tab) state
  unfold factFor
  cases band : bandOf group spec with
  | none =>
    have here := none spec.key (mem_keysOf.mpr (.inl rfl))
    simp only [here]
    exact ⟨rfl, rfl, rfl, state, shown⟩
  | some found =>
    obtain ⟨stem, scale⟩ := found
    have lower := none spec.key (mem_keysOf.mpr (.inl rfl))
    have upper := none (sideKey stem upperSide) (mem_keysOf.mpr (.inr ⟨stem, scale, band, rfl⟩))
    simp only [lower, upper]
    exact ⟨rfl, rfl, rfl, state, shown⟩

theorem shows_apart (entry : List String × Fact) (mem : entry ∈ coveredFacts group byKey status)
    (others : List FactValueRow) (same : ∀ key ∈ entry.1, factOf others key = factOf byKey key) :
    entry ∈ coveredFacts group others status := by
  obtain ⟨spec, isOut, rfl⟩ := mem_coveredFacts.mp mem
  refine mem_coveredFacts.mpr ⟨spec, isOut, ?_⟩
  have lower := same spec.key (mem_keysOf.mpr (.inl rfl))
  unfold factFor
  cases band : bandOf group spec with
  | none => simp only [lower]
  | some found =>
    obtain ⟨stem, scale⟩ := found
    have upper := same (sideKey stem upperSide) (mem_keysOf.mpr (.inr ⟨stem, scale, band, rfl⟩))
    simp only [lower, upper]

theorem length_filter_one {A : Type} {p : A → Bool} {items : List A} (distinct : items.Nodup) {item : A}
    (mem : item ∈ items) (holds : p item = true) (only : ∀ other ∈ items, p other = true → other = item) :
    (items.filter p).length = 1 := by
  obtain ⟨front, back, rfl⟩ := List.append_of_mem mem
  obtain ⟨unique, distinct⟩ := List.nodup_cons.mp (List.nodup_middle.mp distinct)
  have none : ∀ part : List A, (∀ other ∈ part, other ∈ front ++ back) → part.filter p = [] := by
    intro part within
    rw [List.filter_eq_nil_iff]
    intro other there found
    have here := within other there
    have same := only other (List.mem_append.mpr ((List.mem_append.mp here).imp_right (List.mem_cons_of_mem _))) found
    exact unique (same ▸ here)
  rw [List.filter_append, List.filter_cons_of_pos holds, none front fun _ => List.mem_append_left _,
    none back fun _ => List.mem_append_right _]
  rfl

section
variable (distinct : (group.map SectionFact.key).Nodup)
include distinct

theorem nodup_emitted : (emitted group group []).Nodup :=
  (emitted_sublist group []).nodup (List.Nodup.of_map _ distinct)

theorem covered_of_ordered (ordered : Ordered group) (spec : SectionFact) (isIn : spec ∈ group) :
    ((coveredFacts group byKey status).filter fun entry => spec.key ∈ entry.1).length = 1 := by
  rw [coveredFacts, groupFactsFrom_eq, List.filter_map, List.length_map]
  have keys : ∀ other ∈ emitted group group [], spec.key ∈ keysOf group other →
      other = spec ∨ IsBand group other spec := by
    intro other isOut covers
    obtain same | ⟨stem, scale, band, upper⟩ := mem_keysOf.mp covers
    · exact .inl (spec_eq distinct ((emitted_sublist group []).subset isOut) isIn same.symm)
    · exact .inr ⟨stem, scale, band, upper⟩
  by_cases upper : ∃ lower ∈ group, IsBand group lower spec
  · obtain ⟨lower, there, band⟩ := upper
    have first : lower ∈ emitted group group [] := by
      apply emitted_of_no_lower distinct there
      intro other _ other_band
      obtain ⟨stem, scale, found, -⟩ := band
      rw [other_band.no_band] at found
      cases found
    apply length_filter_one (nodup_emitted distinct) first
    · obtain ⟨stem, scale, found, upperKey⟩ := band
      simp only [Function.comp_apply, decide_eq_true_eq]
      exact mem_keysOf.mpr (.inr ⟨stem, scale, found, upperKey⟩)
    · intro other isOut covers
      simp only [Function.comp_apply, decide_eq_true_eq] at covers
      obtain rfl | otherBand := keys other isOut covers
      · exact absurd band (emitted_not_upper distinct ordered isOut lower there)
      · exact IsBand.lower_eq distinct ((emitted_sublist group []).subset isOut) there otherBand band
  · have free : ∀ lower ∈ group, ¬ IsBand group lower spec := fun lower there band => upper ⟨lower, there, band⟩
    apply length_filter_one (nodup_emitted distinct) (emitted_of_no_lower distinct isIn free)
    · simp only [Function.comp_apply, decide_eq_true_eq]
      exact mem_keysOf.mpr (.inl rfl)
    · intro other isOut covers
      simp only [Function.comp_apply, decide_eq_true_eq] at covers
      obtain same | band := keys other isOut covers
      · exact same
      · exact absurd band (free other ((emitted_sublist group []).subset isOut))

theorem stored_of_showable (showable : Showable group byKey status) (entry : List String × Fact)
    (mem : entry ∈ coveredFacts group byKey status) (hasRow : ∃ key ∈ entry.1, factOf byKey key ≠ none) :
    entry.2.state = .value ∧ entry.2.display ≠ [] ∧
    ∀ key ∈ entry.1, ∀ row, factOf byKey key = some row → ShowsRow entry.2 key row := by
  obtain ⟨spec, isOut, rfl⟩ := mem_coveredFacts.mp mem
  have isIn := (emitted_sublist group []).subset isOut
  have noUpper := emitted_not_upper distinct showable.ordered isOut
  obtain ⟨key, covers, stored⟩ := hasRow
  cases band : bandOf group spec with
  | none =>
    have noLower : ∀ other, ¬ IsBand group spec other := by
      rintro other ⟨stem, scale, found, -⟩
      rw [band] at found
      cases found
    have only : ∀ key ∈ keysOf group spec, key = spec.key := by
      intro key covers
      rwa [keysOf, band, List.mem_singleton] at covers
    rw [only key covers] at stored
    obtain ⟨row, found⟩ := Option.ne_none_iff_exists'.mp stored
    obtain ⟨collected, held⟩ :=
      showable.single spec isIn (fun other there => ⟨noLower other, noUpper other there⟩) row found
    obtain ⟨shown, taken⟩ := (held_iff row).mp held
    simp only [factFor, band, found]
    refine ⟨?_, ?_, ?_⟩
    · simp only [buildFact, resolveState, collected]
      rfl
    · exact fun blank => shown (String.toList_eq_nil_iff.mp blank)
    · intro other there otherRow same
      rw [only other there, found] at same
      cases same
      exact .inl ⟨(only other there).symm, rfl, taken⟩
  | some found =>
    obtain ⟨stem, scale⟩ := found
    obtain ⟨lowerKey, -, upper, upperIn, upperKey⟩ := bandOf_some band
    obtain ⟨noLower, noUpperRow⟩ | ⟨p25, p75, low, high, lowNum, highNum⟩ :=
      showable.bands spec isIn upper upperIn ⟨stem, scale, band, upperKey⟩
    · rw [upperKey] at noUpperRow
      obtain same | ⟨otherStem, _, otherBand, same⟩ := mem_keysOf.mp covers
      · rw [same] at stored
        exact absurd noLower stored
      · rw [band] at otherBand
        cases otherBand
        rw [same] at stored
        exact absurd noUpperRow stored
    · rw [upperKey] at high
      obtain ⟨lowNumber, lowFound⟩ := Option.ne_none_iff_exists'.mp lowNum
      obtain ⟨highNumber, highFound⟩ := Option.ne_none_iff_exists'.mp highNum
      have fact : factFor group byKey status spec = bandFact spec stem scale (some p25) (some p75)
          (status.tabs spec.tab) status.hasCollegedata := by
        simp only [factFor, band, low, high]
      have display : (factFor group byKey status spec).display = wholeText lowNumber ++ ['-'] ++ wholeText highNumber := by
        rw [fact]
        simp only [bandFact, lowFound, highFound]
      have value : (factFor group byKey status spec).value =
          .band (.float lowNumber) (.float highNumber) (some scale) := by
        rw [fact]
        simp only [bandFact, lowFound, highFound, numberValue]
      have stemKey : (factFor group byKey status spec).key = stem := by rw [fact]; rfl
      refine ⟨by rw [fact]; rfl, by rw [display]; simp, ?_⟩
      intro other there row same
      refine .inr ?_
      rw [stemKey, display]
      obtain rfl | ⟨otherStem, _, otherBand, rfl⟩ := mem_keysOf.mp there
      · rw [low] at same
        cases same
        have within : wholeText lowNumber <:+: wholeText lowNumber ++ ['-'] ++ wholeText highNumber := by
          rw [List.append_assoc]
          exact (List.prefix_append _ _).isInfix
        exact ⟨lowNumber, _, _, scale, lowFound, value, within, .inl ⟨lowerKey, rfl⟩⟩
      · rw [band] at otherBand
        cases otherBand
        rw [high] at same
        cases same
        exact ⟨highNumber, _, _, scale, highFound, value, (List.suffix_append _ _).isInfix, .inr ⟨rfl, rfl⟩⟩

theorem ordered_of_covered (covered : ∀ spec ∈ group,
    ((coveredFacts group byKey status).filter fun entry => spec.key ∈ entry.1).length = 1) : Ordered group := by
  intro front upper back split lower there band
  by_contra behind
  have upperIn : upper ∈ group := by rw [split]; simp
  have upperOut : upper ∈ emitted group group [] := by
    apply emitted_of_not_behind distinct split
    intro other before otherBand
    have isIn : other ∈ group := by rw [split]; exact List.mem_append_left _ before
    exact behind (IsBand.lower_eq distinct isIn there otherBand band ▸ before)
  have lowerOut : lower ∈ emitted group group [] := by
    apply emitted_of_no_lower distinct there
    intro other _ otherBand
    obtain ⟨stem, scale, found, -⟩ := band
    rw [otherBand.no_band] at found
    cases found
  obtain ⟨entry, alone⟩ := List.length_eq_one_iff.mp (covered upper upperIn)
  have both : ∀ spec ∈ emitted group group [], upper.key ∈ keysOf group spec →
      (keysOf group spec, factFor group byKey status spec) = entry := by
    intro spec isOut covers
    have mem : (keysOf group spec, factFor group byKey status spec) ∈
        (coveredFacts group byKey status).filter fun entry => upper.key ∈ entry.1 :=
      List.mem_filter.mpr ⟨mem_coveredFacts.mpr ⟨spec, isOut, rfl⟩, decide_eq_true covers⟩
    rwa [alone, List.mem_singleton] at mem
  have same := (both upper upperOut (mem_keysOf.mpr (.inl rfl))).trans
    (both lower lowerOut (mem_keysOf.mpr (by
      obtain ⟨stem, scale, found, upperKey⟩ := band
      exact .inr ⟨stem, scale, found, upperKey⟩))).symm
  have keys := congrArg (List.length ∘ Prod.fst) same
  have noBand := band.no_band
  obtain ⟨stem, scale, found, -⟩ := band
  simp [keysOf, noBand, found] at keys

theorem showable_of_shows (shown : ShowsEveryRow group byKey status) : Showable group byKey status := by
  refine ⟨ordered_of_covered distinct shown.covered, ?_, ?_⟩
  · intro lower lowerIn upper upperIn band
    obtain ⟨stem, scale, found, upperKey⟩ := id band
    have lowerOut : lower ∈ emitted group group [] := by
      apply emitted_of_no_lower distinct lowerIn
      intro other _ otherBand
      rw [otherBand.no_band] at found
      cases found
    have keys : keysOf group lower = [lower.key, upper.key] := by rw [keysOf, found, upperKey]
    have stored := shown.stored _ (mem_coveredFacts.mpr ⟨lower, lowerOut, rfl⟩)
    have absent : factOf byKey lower.key = none ∨ factOf byKey upper.key = none →
        factFor group byKey status lower = absentFact stem
          (PyText.strip (without " 25th percentile".toList 0 lower.label.toList)) lower.tab .band
          (resolveState ((factOf byKey lower.key).or (factOf byKey upper.key)) (status.tabs lower.tab)
            status.hasCollegedata) (status.tabs lower.tab) := by
      intro missing
      simp only [factFor, found, ← upperKey]
      cases low : factOf byKey lower.key with
      | none => rfl
      | some p25 =>
        cases high : factOf byKey upper.key with
        | none => rfl
        | some p75 =>
          rw [low, high] at missing
          exact missing.elim (fun no => nomatch no) (fun no => nomatch no)
    -- one side alone is a fact of state `value` that displays nothing
    have blank : factOf byKey lower.key = none ∨ factOf byKey upper.key = none →
        ¬ ∃ key ∈ keysOf group lower, factOf byKey key ≠ none := by
      intro missing someRow
      obtain ⟨state, display, -⟩ := stored someRow
      rw [absent missing] at state display
      simp only [absentFact] at state display
      rw [state] at display
      exact display rfl
    cases low : factOf byKey lower.key with
    | none =>
      refine .inl ⟨rfl, ?_⟩
      by_contra high
      exact blank (.inl low) ⟨upper.key, by rw [keys]; simp, high⟩
    | some p25 =>
      cases high : factOf byKey upper.key with
      | none => exact absurd ⟨lower.key, by rw [keys]; simp, by rw [low]; simp⟩ (blank (.inr high))
      | some p75 =>
        obtain ⟨-, -, carries⟩ := stored ⟨lower.key, by rw [keys]; simp, by rw [low]; simp⟩
        have stemKey : (factFor group byKey status lower).key = stem := by
          simp only [factFor, found]
          exact bandFact_key lower stem scale _ _ _ _
        have number : ∀ key side row, key ∈ keysOf group lower → key = sideKey stem side → side ≠ [] →
            factOf byKey key = some row → row.fact.typed.num ≠ none := by
          intro key side row covers sided nonempty same
          obtain ⟨own, -⟩ | ⟨number, _, _, _, isNumber, -⟩ := carries key covers row same
          · rw [stemKey, sided] at own
            exact absurd own.symm (sideKey_ne nonempty)
          · rw [isNumber]
            exact Option.some_ne_none number
        exact .inr ⟨p25, p75, rfl, rfl,
          number lower.key lowerSide p25 (by rw [keys]; simp) (bandOf_some found).1 (by decide) low,
          number upper.key upperSide p75 (by rw [keys]; simp) upperKey (by decide) high⟩
  · intro spec isIn free row found
    have noBand : bandOf group spec = none := by
      cases band : bandOf group spec with
      | none => rfl
      | some pair =>
        obtain ⟨stem, scale⟩ := pair
        obtain ⟨-, -, upper, upperIn, upperKey⟩ := bandOf_some band
        exact absurd ⟨stem, scale, band, upperKey⟩ (free upper upperIn).1
    have isOut := emitted_of_no_lower distinct isIn fun lower there => (free lower there).2
    have keys : keysOf group spec = [spec.key] := by rw [keysOf, noBand]
    have fact : factFor group byKey status spec =
        buildFact spec (some row) (status.tabs spec.tab) status.hasCollegedata := by
      simp only [factFor, noBand, found]
    obtain ⟨state, display, carries⟩ := shown.stored _ (mem_coveredFacts.mpr ⟨spec, isOut, rfl⟩)
      ⟨spec.key, by rw [keys]; simp, by rw [found]; simp⟩
    have carried := carries spec.key (by rw [keys]; simp) row found
    rw [fact] at state display carried
    refine ⟨?_, (held_iff row).mpr ⟨?_, ?_⟩⟩
    · by_contra uncollected
      simp only [buildFact, resolveState, Bool.eq_false_iff.mpr uncollected] at state
      cases state
    · exact fun blank => display (String.toList_eq_nil_iff.mpr blank)
    · obtain ⟨-, -, taken⟩ | ⟨_, _, _, _, -, -, -, ⟨same, -⟩ | ⟨same, -⟩⟩ := carried
      · exact taken
      · exact absurd same.symm (sideKey_ne (by decide))
      · exact absurd same.symm (sideKey_ne (by decide))

end

/-- A group of the page shows every stored row just if the upper side of a band is declared behind the lower
one, each band has both rows with their numbers or none, and every other row belongs to a school that is
collected and holds a value where its type is read from. -/
theorem groupFacts_show_iff (groups : List (List SectionFact)) (distinct : (groups.flatten.map SectionFact.key).Nodup)
    (byKey : List FactValueRow) (status : SchoolStatus) :
    (∀ group ∈ groups, ShowsEveryRow group byKey status) ↔ ∀ group ∈ groups, Showable group byKey status := by
  have keys : ∀ group ∈ groups, (group.map SectionFact.key).Nodup := by
    intro group mem
    exact ((List.sublist_flatten_of_mem mem).map _).nodup distinct
  constructor
  · intro all group mem
    exact showable_of_shows (keys group mem) (all group mem)
  · intro all group mem
    have showable := all group mem
    exact ⟨covered_of_ordered (keys group mem) showable.ordered, shows_own,
      stored_of_showable (keys group mem) showable, shows_absent, shows_apart⟩

def satMath : String := "class_profile.sat_math"

def satMathLower : SectionFact := ⟨sideKey satMath lowerSide, "SAT Math 25th percentile", .admission⟩

def satMathUpper : SectionFact := ⟨sideKey satMath upperSide, "SAT Math 75th percentile", .admission⟩

def storedScore (side : List Char) (score : ℚ) (display : String) : FactValueRow where
  observedAt := 0
  fact :=
    { factKey := sideKey satMath side
      tab := .admission
      section_ := "class_profile"
      label := "SAT Math"
      value := .dict [("kind", .str "count"), ("value", .null)]
      display := display
      unit := none
      valueType := .count
      typed := ⟨some (.finite score), none, none, none⟩
      reportedPeriod := none
      reportedPeriodYear := none
      snapshotId := 1
      snapshotSha256 := 0
      sourcePath := "admission/@profile/satMath"
      mapperVersion := "1" }

def readPages : SchoolStatus := ⟨true, fun _ => .ok⟩

theorem bandOf_satMath {group : List SectionFact} (declared : satMathUpper ∈ group) :
    bandOf group satMathLower = some (satMath, 200, 800) := by
  have stem : bandStem satMathLower.key = some (satMath, 200, 800) := bandStem_lower (by decide)
  rw [bandOf, stem, Option.filter_some, if_pos (List.any_eq_true.mpr ⟨satMathUpper, declared, decide_eq_true rfl⟩)]

theorem satMath_apart : satMathLower.key ≠ satMathUpper.key := by
  intro same
  have lists := congrArg String.toList same
  rw [satMathLower, satMathUpper, sideKey_toList, sideKey_toList] at lists
  exact absurd (List.append_cancel_left lists) (by decide)

theorem factOf_storedScore (side : List Char) (score : ℚ) (display : String) (rest : List FactValueRow) :
    factOf (storedScore side score display :: rest) (sideKey satMath side) = some (storedScore side score display) :=
  List.find?_cons_of_pos (decide_eq_true rfl)

theorem factOf_storedLower (score : ℚ) (display : String) (rest : List FactValueRow) :
    factOf (storedScore lowerSide score display :: rest) (sideKey satMath upperSide) =
      factOf rest (sideKey satMath upperSide) := by
  apply List.find?_cons_of_neg
  rw [decide_eq_true_iff]
  exact satMath_apart

theorem isBand_satMath {lower upper : SectionFact} (first : lower ∈ [satMathLower, satMathUpper])
    (second : upper ∈ [satMathLower, satMathUpper]) (band : IsBand [satMathLower, satMathUpper] lower upper) :
    lower = satMathLower ∧ upper = satMathUpper := by
  simp only [List.mem_cons, List.not_mem_nil, or_false] at first second
  obtain ⟨stem, scale, found, upperKey⟩ := band
  obtain rfl | rfl := first
  · refine ⟨rfl, second.resolve_left ?_⟩
    rintro rfl
    rw [bandOf_upper upperKey] at found
    cases found
  · rw [@bandOf_upper _ _ satMath rfl] at found
    cases found

theorem groupFacts_show_sat : ShowsEveryRow [satMathLower, satMathUpper]
    [storedScore lowerSide 650 "650", storedScore upperSide 740 "740"] readPages := by
  have distinct : (([[satMathLower, satMathUpper]] : List (List SectionFact)).flatten.map SectionFact.key).Nodup := by
    simp [satMath_apart]
  refine (groupFacts_show_iff _ distinct _ _).mpr ?_ _ (List.mem_singleton_self _)
  intro group mem
  obtain rfl := List.mem_singleton.mp mem
  have band : IsBand [satMathLower, satMathUpper] satMathLower satMathUpper :=
    ⟨satMath, _, bandOf_satMath (by simp), rfl⟩
  have upper : factOf [storedScore lowerSide 650 "650", storedScore upperSide 740 "740"] satMathUpper.key =
      some (storedScore upperSide 740 "740") :=
    (factOf_storedLower 650 "650" _).trans (factOf_storedScore upperSide 740 "740" [])
  refine ⟨?_, ?_, ?_⟩
  · intro front other back split lower isIn isBand
    obtain ⟨rfl, rfl⟩ := isBand_satMath isIn (by rw [split]; simp) isBand
    cases front with
    | nil =>
      have head := (List.cons.inj split).1
      exact absurd (congrArg SectionFact.key head) satMath_apart
    | cons first front =>
      rw [(List.cons.inj split).1]
      exact List.mem_cons_self
  · intro lower lowerIn other otherIn isBand
    obtain ⟨rfl, rfl⟩ := isBand_satMath lowerIn otherIn isBand
    exact .inr ⟨_, _, factOf_storedScore lowerSide 650 "650" _, upper, Option.some_ne_none _, Option.some_ne_none _⟩
  · intro spec isIn free
    simp only [List.mem_cons, List.not_mem_nil, or_false] at isIn
    obtain rfl | rfl := isIn
    · exact absurd band (free satMathUpper (by simp)).1
    · exact absurd band (free satMathLower (by simp)).2

/-- With the lower percentile alone, the band has the state of a value, shows nothing and has none. -/
theorem groupFacts_hide_one_side :
    (∃ fact, coveredFacts [satMathLower, satMathUpper] [storedScore lowerSide 650 "650"] readPages =
      [([satMathLower.key, satMathUpper.key], fact)] ∧ fact.state = .value ∧ fact.display = [] ∧ fact.value = .null) ∧
    ¬ ShowsEveryRow [satMathLower, satMathUpper] [storedScore lowerSide 650 "650"] readPages := by
  have upper : factOf [storedScore lowerSide 650 "650"] (sideKey satMath upperSide) = none :=
    factOf_storedLower 650 "650" []
  have lower : factOf [storedScore lowerSide 650 "650"] satMathLower.key = some (storedScore lowerSide 650 "650") :=
    factOf_storedScore lowerSide 650 "650" []
  have facts : coveredFacts [satMathLower, satMathUpper] [storedScore lowerSide 650 "650"] readPages =
      [([satMathLower.key, satMathUpper.key], bandFact satMathLower satMath (200, 800)
        (some (storedScore lowerSide 650 "650")) none .ok true)] := by
    have used : satMathUpper.key ∈ [] ++ [satMathLower.key, sideKey satMath upperSide] := by simp [satMathUpper]
    rw [coveredFacts, groupFactsFrom, if_neg List.not_mem_nil, tryBand, bandOf_satMath (by simp)]
    simp only [Option.map_some, lower, upper]
    rw [groupFactsFrom, if_pos used]
    rfl
  refine ⟨⟨_, facts, rfl, rfl, rfl⟩, ?_⟩
  intro shown
  obtain ⟨-, display, -⟩ := shown.stored _ (by rw [facts]; exact List.mem_singleton_self _)
    ⟨satMathLower.key, by simp, by rw [lower]; simp⟩
  exact display rfl

end Counselle.Facts
