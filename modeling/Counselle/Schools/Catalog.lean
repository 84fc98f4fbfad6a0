import Counselle.Cds.PacketRow
import Counselle.Words

/-! The catalog of schools and its search by name: an index of normalised names, and three levels
at which a school can match. -/
namespace Counselle.Schools
open PyText (PyError isDigit intOfDigits strip)

abbrev Chars := List Char

/-- A row of `school_profiles`, and the record that is made of it. -/
structure SchoolRecord where
  unitid : Int
  name : Chars
  searchName : Chars
  aliases : List Chars
  isMainCampus : Bool
  deriving DecidableEq

def SchoolRecord.names (record : SchoolRecord) : List Chars :=
  record.name :: record.searchName :: record.aliases

def isNameChar (c : Char) : Bool := ('a' ≤ c && c ≤ 'z') || ('0' ≤ c && c ≤ '9')

def spelledAnd : Chars := [' ', 'a', 'n', 'd', ' ']

section
-- `casefold` is `str.casefold`; `raw` are the entries of the abbreviations asset
variable (casefold : Chars → Chars) (raw : List (Chars × Chars))

def normalizeSchoolName (value : Chars) : Chars :=
  let value := (casefold value).flatMap fun c => if c = '&' then spelledAnd else [c]
  let pieces := (Words.collapse (fun c => !isNameChar c) false value).splitOnP PyText.isSpace
  [' '].intercalate (pieces.filter (!·.isEmpty))

/-- `_abbreviations().get(normalized)`; of two keys of one normal form the later is kept. -/
def abbreviation (normalized : Chars) : Option Chars :=
  (raw.reverse.map fun entry => (normalizeSchoolName casefold entry.1, entry.2)).lookup normalized

/-- The normalised query, or what the abbreviation stands for. -/
def searchText (query : Chars) : Chars :=
  let normalized := normalizeSchoolName casefold query
  match abbreviation casefold raw normalized with
  | some expansion => normalizeSchoolName casefold expansion
  | none => normalized

/-- `names.setdefault(normalized, []).append(unitid)`, for a name of which something is left. -/
def addName (unitid : Int) (names : List (Chars × List Int)) (name : Chars) : List (Chars × List Int) :=
  let normalized := normalizeSchoolName casefold name
  if normalized = [] then names
  else Upsert.upsert (fun entry => entry.1 == normalized) (fun entry => (entry.1, entry.2 ++ [unitid]))
    (normalized, [unitid]) names

def nameIndexOf (schools : List SchoolRecord) : List (Chars × List Int) :=
  schools.foldl (fun names record => record.names.foldl (addName casefold record.unitid) names) []

/-- A loaded catalog: it has schools, their ids are distinct, and the index is theirs. -/
structure CatalogSnapshot where
  schools : List SchoolRecord
  nameIndex : List (Chars × List Int)
  filled : schools ≠ []
  distinct : (schools.map (·.unitid)).Nodup
  indexed : nameIndex = nameIndexOf casefold schools

def validRow (row : SchoolRecord) : Bool :=
  0 < row.unitid && strip row.name ≠ [] && strip row.searchName ≠ [] && row.aliases.all fun name => strip name ≠ []

/-- `_load_snapshot`; `none` is its `ServiceError`. -/
def loadSnapshot (rows : List SchoolRecord) : Option (CatalogSnapshot casefold) :=
  if valid : rows ≠ [] ∧ (rows.map (·.unitid)).Nodup ∧ rows.all validRow then
    some ⟨rows, nameIndexOf casefold rows, valid.1, valid.2.1, rfl⟩
  else none

end

section
variable {casefold : Chars → Chars}
-- `ratio` is `SequenceMatcher(None, a, b).ratio()`
variable (snapshot : CatalogSnapshot casefold) (ratio : Chars → Chars → ℚ) (raw : List (Chars × Chars))

/-- `_FUZZY_MATCH_MIN_SCORE`: 0.80 as a double. -/
def fuzzyMatchMinScore : ℚ := Binary64.rounded (4 / 5)

/-- The ids at a name of the index: the search text itself, else those that it is a part of. -/
def CatalogSnapshot.targetedIds (normalized : Chars) : List Int :=
  let exact := (snapshot.nameIndex.lookup normalized).getD []
  if exact = [] then
    snapshot.nameIndex.flatMap fun entry =>
      if normalized <:+: entry.1 ∨ normalized <+: entry.1 then entry.2 else []
  else exact

def scoreOf (casefold : Chars → Chars) (normalized : Chars) (record : SchoolRecord) : ℚ :=
  record.aliases.foldl (fun best other => max best (ratio normalized (normalizeSchoolName casefold other)))
    (ratio normalized (normalizeSchoolName casefold record.name))

def CatalogSnapshot.scored (normalized : Chars) : List (ℚ × SchoolRecord) :=
  let ids := snapshot.targetedIds normalized
  let pool := if ids = [] then snapshot.schools else snapshot.schools.filter fun record => record.unitid ∈ ids
  pool.filterMap fun record =>
    let score := scoreOf ratio casefold normalized record
    if ids ≠ [] ∨ fuzzyMatchMinScore ≤ score then some (score, record) else none

/-- The sort key `(not is_main_campus, -score, name, unitid)`. -/
def ranksBefore (a b : ℚ × SchoolRecord) : Bool :=
  if a.2.isMainCampus ≠ b.2.isMainCampus then a.2.isMainCampus
  else if a.1 ≠ b.1 then b.1 < a.1
  else if a.2.name ≠ b.2.name then a.2.name < b.2.name
  else a.2.unitid ≤ b.2.unitid

def CatalogSnapshot.searchByName (query : Chars) : List SchoolRecord :=
  let scored := snapshot.scored ratio (searchText casefold raw query)
  ((scored.mergeSort ranksBefore).map Prod.snd).take 5

/-- `query.isdigit()` -/
def isDigitText (query : Chars) : Bool := query ≠ [] && query.all Cds.isDigitLike

/-- `int(query)` of such a query: a digit that is not decimal is refused. -/
def queryNumber (query : Chars) : Except PyError Nat :=
  if query.all isDigit then intOfDigits query else .error .valueError

def CatalogSnapshot.resolveCandidates (query : Chars) : Except PyError (List SchoolRecord) :=
  if isDigitText query then
    (queryNumber query).map fun number : Nat =>
      match snapshot.schools.find? fun record => record.unitid = (number : Int) with
      | some school => [school]
      | none => snapshot.searchByName ratio raw query
  else .ok (snapshot.searchByName ratio raw query)

end

section
variable (casefold : Chars → Chars) (ratio : Chars → Chars → ℚ)

inductive Level where
  | exact | substring | fuzzy
  deriving DecidableEq

def MatchesAt (search : Chars) : Level → SchoolRecord → Prop
  | .exact, record => ∃ name ∈ record.names, normalizeSchoolName casefold name = search
  | .substring, record => ∃ name ∈ record.names, search <:+: normalizeSchoolName casefold name
  | .fuzzy, record => ∃ name ∈ record.name :: record.aliases,
      fuzzyMatchMinScore ≤ ratio search (normalizeSchoolName casefold name)

def Level.stronger : Level → List Level
  | .exact => []
  | .substring => [.exact]
  | .fuzzy => [.exact, .substring]

/-- A school matches at the strongest level at which any school does. A search text of which nothing
is left matches no school. -/
def Matching (schools : List SchoolRecord) (search : Chars) (record : SchoolRecord) : Prop :=
  search ≠ [] ∧ record ∈ schools ∧ ∃ level, MatchesAt casefold ratio search level record ∧
    ∀ before ∈ level.stronger, ∀ other ∈ schools, ¬ MatchesAt casefold ratio search before other

end

section
variable {casefold : Chars → Chars}

def StandsUnder (names : List (Chars × List Int)) (name : Chars) (unitid : Int) : Prop :=
  ∃ values, (name, values) ∈ names ∧ unitid ∈ values

theorem standsUnder_upsert (names : List (Chars × List Int)) (name other : Chars) (unitid id : Int) :
    StandsUnder (Upsert.upsert (fun entry => entry.1 == name) (fun entry => (entry.1, entry.2 ++ [unitid]))
        (name, [unitid]) names) other id ↔
      StandsUnder names other id ∨ other = name ∧ id = unitid := by
  unfold StandsUnder
  induction names with
  | nil =>
    simp only [Upsert.upsert, List.mem_singleton, Prod.mk.injEq, List.not_mem_nil, false_and, exists_false, false_or]
    constructor
    · rintro ⟨values, ⟨same, rfl⟩, mem⟩
      exact ⟨same, List.mem_singleton.mp mem⟩
    · rintro ⟨same, rfl⟩
      exact ⟨[id], ⟨same, rfl⟩, List.mem_singleton.mpr rfl⟩
  | cons entry rest ih =>
    obtain ⟨key, values⟩ := entry
    rw [Upsert.upsert]
    by_cases here : key = name
    · subst here
      simp only [BEq.rfl, if_true, List.mem_cons, Prod.mk.injEq]
      constructor
      · rintro ⟨found, ⟨rfl, rfl⟩ | there, mem⟩
        · obtain old | new := List.mem_append.mp mem
          · exact .inl ⟨values, .inl ⟨rfl, rfl⟩, old⟩
          · exact .inr ⟨rfl, List.mem_singleton.mp new⟩
        · exact .inl ⟨found, .inr there, mem⟩
      · rintro (⟨found, ⟨rfl, rfl⟩ | there, mem⟩ | ⟨rfl, rfl⟩)
        · exact ⟨_, .inl ⟨rfl, rfl⟩, List.mem_append_left _ mem⟩
        · exact ⟨found, .inr there, mem⟩
        · exact ⟨_, .inl ⟨rfl, rfl⟩, by simp⟩
    · simp only [beq_false_of_ne here, Bool.false_eq_true, if_false, List.mem_cons, or_and_right, exists_or, ih,
        or_assoc]

theorem standsUnder_addName (unitid id : Int) (names : List (Chars × List Int)) (name other : Chars)
    (some : other ≠ []) :
    StandsUnder (addName casefold unitid names name) other id ↔
      StandsUnder names other id ∨ normalizeSchoolName casefold name = other ∧ id = unitid := by
  unfold addName
  by_cases blank : normalizeSchoolName casefold name = []
  · simp only [blank, some.symm, if_true, false_and, or_false]
  · simp only [if_neg blank, standsUnder_upsert, eq_comm (a := other)]

theorem standsUnder_names (unitid id : Int) (other : Chars) (some : other ≠ []) (added : List Chars)
    (names : List (Chars × List Int)) :
    StandsUnder (added.foldl (addName casefold unitid) names) other id ↔
      StandsUnder names other id ∨ (∃ name ∈ added, normalizeSchoolName casefold name = other) ∧ id = unitid := by
  induction added generalizing names with
  | nil => simp
  | cons name added ih =>
    rw [List.foldl_cons, ih, standsUnder_addName unitid id names name other some]
    simp only [List.mem_cons, exists_eq_or_imp]
    rw [or_and_right, or_assoc]

theorem standsUnder_nameIndexOf (schools : List SchoolRecord) (other : Chars) (some : other ≠ []) (id : Int) :
    StandsUnder (nameIndexOf casefold schools) other id ↔
      ∃ record ∈ schools, (∃ name ∈ record.names, normalizeSchoolName casefold name = other) ∧
        id = record.unitid := by
  have general : ∀ names, StandsUnder (schools.foldl (fun names record =>
      record.names.foldl (addName casefold record.unitid) names) names) other id ↔
      StandsUnder names other id ∨ ∃ record ∈ schools,
        (∃ name ∈ record.names, normalizeSchoolName casefold name = other) ∧ id = record.unitid := by
    induction schools with
    | nil => simp
    | cons record schools ih =>
      intro names
      rw [List.foldl_cons, ih, standsUnder_names record.unitid id other some]
      simp only [List.mem_cons, exists_eq_or_imp, or_assoc]
  have empty : ¬ StandsUnder [] other id := by
    rintro ⟨_, mem, _⟩
    exact List.not_mem_nil mem
  rw [nameIndexOf, general]
  simp only [empty, false_or]

/-- The names of the index are distinct, and something is left of each. -/
def Tidy (names : List (Chars × List Int)) : Prop :=
  (names.map Prod.fst).Nodup ∧ ∀ entry ∈ names, entry.1 ≠ [] ∧ entry.2 ≠ []

theorem tidy_addName {unitid : Int} {names : List (Chars × List Int)} (tidy : Tidy names) (name : Chars) :
    Tidy (addName casefold unitid names name) := by
  obtain ⟨distinct, solid⟩ := tidy
  unfold addName
  by_cases blank : normalizeSchoolName casefold name = []
  · simp only [if_pos blank]
    exact ⟨distinct, solid⟩
  · simp only [if_neg blank]
    generalize normalizeSchoolName casefold name = key at blank ⊢
    have kept : ∀ entry : Chars × List Int, (entry.1 == key) = true → (entry.1, entry.2 ++ [unitid]).1 = entry.1 :=
      fun _ _ => rfl
    refine ⟨?_, ?_⟩
    · rw [Upsert.map_upsert (f := Prod.fst) kept]
      split_ifs with there
      · exact distinct
      · have unused : key ∉ names.map Prod.fst := by
          intro mem
          obtain ⟨entry, present, same⟩ := List.mem_map.mp mem
          exact there (List.any_eq_true.mpr ⟨entry, present, beq_iff_eq.mpr same⟩)
        rw [List.nodup_append_comm, List.singleton_append, List.nodup_cons]
        exact ⟨unused, distinct⟩
    · clear distinct kept
      induction names with
      | nil =>
        intro entry mem
        rw [List.mem_singleton.mp mem]
        exact ⟨blank, by simp⟩
      | cons first rest ih =>
        intro entry mem
        rw [Upsert.upsert] at mem
        split_ifs at mem with here
        · obtain rfl | mem := List.mem_cons.mp mem
          · exact ⟨(solid first List.mem_cons_self).1, by simp⟩
          · exact solid entry (List.mem_cons_of_mem _ mem)
        · obtain rfl | mem := List.mem_cons.mp mem
          · exact solid _ List.mem_cons_self
          · exact ih (fun entry mem => solid entry (List.mem_cons_of_mem _ mem)) entry mem

theorem tidy_nameIndexOf (schools : List SchoolRecord) : Tidy (nameIndexOf casefold schools) := by
  unfold nameIndexOf
  have empty : Tidy [] := ⟨List.nodup_nil, fun _ mem => absurd mem List.not_mem_nil⟩
  apply List.foldlRecOn (motive := Tidy) schools _ empty
  intro names tidy record _
  apply List.foldlRecOn (motive := Tidy) record.names _ tidy
  intro names tidy name _
  exact tidy_addName tidy name

end

end Counselle.Schools
