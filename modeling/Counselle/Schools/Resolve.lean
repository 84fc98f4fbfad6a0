import Counselle.Schools.Catalog

/-! Resolving a school from a query: one school, candidates to ask about, or none. -/
namespace Counselle.Schools
open PyText (PyError strip)

section
variable {casefold : Chars → Chars} (snapshot : CatalogSnapshot casefold) (ratio : Chars → Chars → ℚ)
variable {search : Chars}

theorem record_eq {a b : SchoolRecord} (first : a ∈ snapshot.schools) (second : b ∈ snapshot.schools)
    (same : a.unitid = b.unitid) : a = b :=
  List.inj_on_of_nodup_map snapshot.distinct first second same

theorem mem_exact (some : search ≠ []) (id : Int) :
    id ∈ (snapshot.nameIndex.lookup search).getD [] ↔
      ∃ record ∈ snapshot.schools, MatchesAt casefold ratio search .exact record ∧ id = record.unitid := by
  have stands := @standsUnder_nameIndexOf casefold snapshot.schools search some id
  have tidy := @tidy_nameIndexOf casefold snapshot.schools
  rw [← snapshot.indexed] at stands tidy
  refine Iff.trans ?_ stands
  constructor
  · intro mem
    cases found : snapshot.nameIndex.lookup search with
    | none => simp [found] at mem
    | some values =>
      rw [found] at mem
      obtain ⟨front, back, split, -⟩ := List.lookup_eq_some_iff.mp found
      exact ⟨values, by rw [split]; simp, mem⟩
  · rintro ⟨values, there, mem⟩
    rw [Upsert.lookup_of_mem tidy.1 there]
    exact mem

theorem mem_substring (some : search ≠ []) (id : Int) :
    (id ∈ snapshot.nameIndex.flatMap fun entry =>
        if search <:+: entry.1 ∨ search <+: entry.1 then entry.2 else []) ↔
      ∃ record ∈ snapshot.schools, MatchesAt casefold ratio search .substring record ∧ id = record.unitid := by
  have stands := fun name nonempty =>
    @standsUnder_nameIndexOf casefold snapshot.schools name nonempty id
  have tidy := @tidy_nameIndexOf casefold snapshot.schools
  rw [← snapshot.indexed] at stands tidy
  rw [List.mem_flatMap]
  constructor
  · rintro ⟨⟨key, values⟩, there, mem⟩
    by_cases part : search <:+: key ∨ search <+: key
    · rw [if_pos part] at mem
      have within : search <:+: key := part.elim (·) List.IsPrefix.isInfix
      obtain ⟨record, isIn, ⟨name, named, rfl⟩, same⟩ :=
        (stands key (tidy.2 _ there).1).mp ⟨values, there, mem⟩
      exact ⟨record, isIn, ⟨name, named, within⟩, same⟩
    · rw [if_neg part] at mem
      cases mem
  · rintro ⟨record, isIn, ⟨name, named, within⟩, same⟩
    have solid : normalizeSchoolName casefold name ≠ [] := by
      intro blank
      rw [blank] at within
      exact some (List.infix_nil.mp within)
    obtain ⟨values, there, mem⟩ := (stands _ solid).mpr ⟨record, isIn, ⟨name, named, rfl⟩, same⟩
    exact ⟨_, there, by rwa [if_pos (.inl within)]⟩

theorem targetedIds_cases (some : search ≠ []) :
    (∃ level ∈ [Level.exact, .substring], snapshot.targetedIds search ≠ [] ∧
      (∀ before ∈ level.stronger, ∀ other ∈ snapshot.schools, ¬ MatchesAt casefold ratio search before other) ∧
      ∀ id, id ∈ snapshot.targetedIds search ↔
        ∃ record ∈ snapshot.schools, MatchesAt casefold ratio search level record ∧ id = record.unitid) ∨
    snapshot.targetedIds search = [] ∧ ∀ before ∈ Level.fuzzy.stronger, ∀ other ∈ snapshot.schools,
      ¬ MatchesAt casefold ratio search before other := by
  have exact := mem_exact snapshot ratio some
  have substring := mem_substring snapshot ratio some
  by_cases named : (snapshot.nameIndex.lookup search).getD [] = []
  · have noExact : ∀ other ∈ snapshot.schools, ¬ MatchesAt casefold ratio search .exact other := by
      intro other isIn matched
      have mem := (exact other.unitid).mpr ⟨other, isIn, matched, rfl⟩
      rw [named] at mem
      cases mem
    unfold CatalogSnapshot.targetedIds
    rw [if_pos named]
    by_cases nobody : (snapshot.nameIndex.flatMap fun entry =>
        if search <:+: entry.1 ∨ search <+: entry.1 then entry.2 else []) = []
    · refine .inr ⟨nobody, ?_⟩
      intro before stronger other isIn matched
      obtain rfl | stronger := List.mem_cons.mp stronger
      · exact noExact other isIn matched
      · rw [List.mem_singleton.mp stronger] at matched
        have mem := (substring other.unitid).mpr ⟨other, isIn, matched, rfl⟩
        rw [nobody] at mem
        cases mem
    · refine .inl ⟨.substring, by simp, nobody, ?_, substring⟩
      intro before stronger
      rw [List.mem_singleton.mp stronger]
      exact noExact
  · unfold CatalogSnapshot.targetedIds
    rw [if_neg named]
    exact .inl ⟨.exact, by simp, named, fun before none => absurd none List.not_mem_nil, exact⟩

theorem le_foldl_max {A : Type} (f : A → ℚ) (bound start : ℚ) (items : List A) :
    bound ≤ items.foldl (fun best item => max best (f item)) start ↔
      bound ≤ start ∨ ∃ item ∈ items, bound ≤ f item := by
  induction items generalizing start with
  | nil => simp
  | cons item items ih =>
    rw [List.foldl_cons, ih, le_max_iff]
    simp only [List.mem_cons, exists_eq_or_imp, or_assoc]

theorem le_scoreOf (record : SchoolRecord) :
    fuzzyMatchMinScore ≤ scoreOf ratio casefold search record ↔ MatchesAt casefold ratio search .fuzzy record := by
  rw [scoreOf, le_foldl_max]
  simp only [MatchesAt, List.mem_cons, exists_eq_or_imp]

theorem mem_scored (some : search ≠ []) (record : SchoolRecord) :
    record ∈ (snapshot.scored ratio search).map Prod.snd ↔
      Matching casefold ratio snapshot.schools search record := by
  unfold Matching CatalogSnapshot.scored
  simp only [List.mem_map, List.mem_filterMap]
  obtain ⟨level, targeted, nonempty, stronger, ids⟩ | ⟨empty, stronger⟩ := targetedIds_cases snapshot ratio some
  · simp only [nonempty, if_false, ne_eq, not_false_iff, true_or, if_true, Option.some.injEq, List.mem_filter,
      decide_eq_true_eq]
    constructor
    · rintro ⟨scored, ⟨other, ⟨isIn, mem⟩, rfl⟩, rfl⟩
      obtain ⟨holder, there, matched, same⟩ := (ids other.unitid).mp mem
      rw [record_eq snapshot isIn there same]
      exact ⟨some, there, level, matched, stronger⟩
    · rintro ⟨-, isIn, found, matched, before⟩
      refine ⟨_, ⟨record, ⟨isIn, ?_⟩, rfl⟩, rfl⟩
      -- the level found is the targeted one: neither can be stronger than the other
      have same : found = level := by
        obtain ⟨id, mem⟩ := List.exists_mem_of_ne_nil _ nonempty
        obtain ⟨holder, there, held, -⟩ := (ids id).mp mem
        cases found <;> cases level <;> simp [Level.stronger] at targeted stronger before ⊢
        · exact stronger record isIn matched
        · exact before holder there held
        · exact before.1 holder there held
        · exact before.2 holder there held
      subst same
      exact (ids record.unitid).mpr ⟨record, isIn, matched, rfl⟩
  · simp only [empty, if_true, ne_eq, not_true_eq_false, false_or]
    constructor
    · rintro ⟨scored, ⟨other, isIn, kept⟩, rfl⟩
      split_ifs at kept with enough
      cases kept
      exact ⟨some, isIn, .fuzzy, (le_scoreOf ratio other).mp enough, stronger⟩
    · rintro ⟨-, isIn, level, matched, -⟩
      have fuzzy : MatchesAt casefold ratio search .fuzzy record := by
        cases level with
        | exact => exact absurd matched (stronger .exact (by simp [Level.stronger]) record isIn)
        | substring => exact absurd matched (stronger .substring (by simp [Level.stronger]) record isIn)
        | fuzzy => exact matched
      exact ⟨_, ⟨record, isIn, if_pos ((le_scoreOf ratio record).mpr fuzzy)⟩, rfl⟩

/-- All records that were scored, in the order of the result. -/
def ranking (search : Chars) : List SchoolRecord :=
  ((snapshot.scored ratio search).mergeSort ranksBefore).map Prod.snd

theorem ranking_perm : (ranking snapshot ratio search).Perm ((snapshot.scored ratio search).map Prod.snd) :=
  (List.mergeSort_perm _ _).map _

theorem mem_ranking (some : search ≠ []) (record : SchoolRecord) :
    record ∈ ranking snapshot ratio search ↔ Matching casefold ratio snapshot.schools search record :=
  (ranking_perm snapshot ratio).mem_iff.trans (mem_scored snapshot ratio some record)

theorem ranking_ne_nil {record : SchoolRecord} (isIn : record ∈ snapshot.schools)
    (kept : record.unitid ∈ snapshot.targetedIds search ∨
      snapshot.targetedIds search = [] ∧ fuzzyMatchMinScore ≤ scoreOf ratio casefold search record) :
    ranking snapshot ratio search ≠ [] := by
  have scored : (scoreOf ratio casefold search record, record) ∈ snapshot.scored ratio search := by
    unfold CatalogSnapshot.scored
    simp only [List.mem_filterMap]
    obtain targeted | ⟨empty, enough⟩ := kept
    · have nonempty : snapshot.targetedIds search ≠ [] := List.ne_nil_of_mem targeted
      exact ⟨record, by simp [nonempty, isIn, targeted], if_pos (.inl nonempty)⟩
    · exact ⟨record, by simp [empty, isIn], if_pos (.inr enough)⟩
  have mem := (ranking_perm snapshot ratio).mem_iff.mpr (List.mem_map_of_mem (f := Prod.snd) scored)
  exact List.ne_nil_of_mem mem

theorem ranking_nil_ne (same : fuzzyMatchMinScore ≤ ratio [] []) : ranking snapshot ratio [] ≠ [] := by
  have stands := fun name nonempty id =>
    @standsUnder_nameIndexOf casefold snapshot.schools name nonempty id
  have tidy := @tidy_nameIndexOf casefold snapshot.schools
  rw [← snapshot.indexed] at stands tidy
  cases index : snapshot.nameIndex with
  | nil =>
    obtain ⟨record, isIn⟩ := List.exists_mem_of_ne_nil _ snapshot.filled
    have blank : normalizeSchoolName casefold record.name = [] := by
      by_contra solid
      obtain ⟨values, there, -⟩ :=
        (stands _ solid record.unitid).mpr ⟨record, isIn, ⟨record.name, List.mem_cons_self, rfl⟩, rfl⟩
      rw [index] at there
      cases there
    apply ranking_ne_nil snapshot ratio isIn (.inr ⟨?_, ?_⟩)
    · simp [CatalogSnapshot.targetedIds, index]
    · rw [le_scoreOf]
      exact ⟨record.name, List.mem_cons_self, by rwa [blank]⟩
  | cons entry rest =>
    obtain ⟨key, values⟩ := entry
    have first : (key, values) ∈ snapshot.nameIndex := by rw [index]; exact List.mem_cons_self
    obtain ⟨solid, nonempty⟩ := tidy.2 _ first
    obtain ⟨id, mem⟩ := List.exists_mem_of_ne_nil _ nonempty
    obtain ⟨record, isIn, -, rfl⟩ := (stands key solid id).mp ⟨values, first, mem⟩
    have unnamed : snapshot.nameIndex.lookup [] = none := by
      rw [List.lookup_eq_none_iff]
      intro other there
      exact bne_iff_ne.mpr (Ne.symm (tidy.2 other there).1)
    apply ranking_ne_nil snapshot ratio isIn (.inl ?_)
    rw [CatalogSnapshot.targetedIds, unnamed, Option.getD_none, if_pos rfl]
    exact List.mem_flatMap.mpr ⟨_, first, by rwa [if_pos (.inl List.nil_infix)]⟩

theorem searchByName_of_ordered {raw : List (Chars × Chars)} {query : Chars} {scored : List (ℚ × SchoolRecord)}
    (found : snapshot.scored ratio (searchText casefold raw query) = scored)
    (ordered : scored.Pairwise fun a b => ranksBefore a b = true) :
    snapshot.searchByName ratio raw query = (scored.map Prod.snd).take 5 := by
  unfold CatalogSnapshot.searchByName
  rw [found]
  dsimp only
  rw [List.mergeSort_of_pairwise ordered]

theorem searchByName_eq (raw : List (Chars × Chars)) (query : Chars) :
    snapshot.searchByName ratio raw query = (ranking snapshot ratio (searchText casefold raw query)).take 5 := rfl

end

/-- What `resolve_school` returns; `data` is the row of `school_data_status`. -/
inductive ResolveResult (S : Type) where
  | notFound
  | candidates (candidates : List SchoolRecord)
  | resolved (school : SchoolRecord) (data : S)

inductive Failure where
  | service (message : String)
  | escaped (error : PyError)

section
variable {S : Type} {casefold : Chars → Chars} (snapshot : CatalogSnapshot casefold) (ratio : Chars → Chars → ℚ)
variable (raw : List (Chars × Chars))
-- `factsStatus` reads the row of a school
variable (factsStatus : Int → Option S)

def maxQuery : Nat := 200

def answerFor (query : Chars) : List SchoolRecord → Except Failure (ResolveResult S)
  | [] => .ok .notFound
  | school :: others =>
    if others ≠ [] ∧ isDigitText query = false then .ok (.candidates (school :: others))
    else match factsStatus school.unitid with
      | none => .error (.service "That school is not in our database.")
      | some data => .ok (.resolved school data)

def resolveSchool (query : Chars) : Except Failure (ResolveResult S) :=
  let query := strip query
  if query = [] ∨ maxQuery < query.length then
    .error (.service "School query must be 1-200 characters.")
  else match snapshot.resolveCandidates ratio raw query with
    | .error failure => .error (.escaped failure)
    | .ok candidates => answerFor factsStatus query candidates

def IsId (query : Chars) (school : SchoolRecord) : Prop :=
  isDigitText query = true ∧ ∃ number, queryNumber query = .ok number ∧ school.unitid = (number : Int)

/-- What a resolution may be: a `ServiceError`, a school that the query is the id of or that alone matches
at the strongest level, candidates that match at it, or that there is none. -/
def Unambiguous (query : Chars) : Except Failure (ResolveResult S) → Prop
  | .error (.service _) => True
  | .error (.escaped _) => False
  | .ok .notFound => True
  | .ok (.candidates candidates) => ∀ school ∈ candidates,
      Matching casefold ratio snapshot.schools (searchText casefold raw query) school
  | .ok (.resolved school _) => school ∈ snapshot.schools ∧ (IsId query school ∨
      Matching casefold ratio snapshot.schools (searchText casefold raw query) school ∧
      ∀ other, Matching casefold ratio snapshot.schools (searchText casefold raw query) other → other = school)

/-- When a query is one that the code can take: it is the id of a school, or something is left of it
to search for; and if it is all digits, they are decimal and no two schools match. -/
def Resolvable (query : Chars) : Prop :=
  query = [] ∨ maxQuery < query.length ∨
  (isDigitText query = true → ∃ number, queryNumber query = .ok number) ∧
  ((∃ school ∈ snapshot.schools, IsId query school) ∨
    searchText casefold raw query ≠ [] ∧ (isDigitText query = true →
      ∀ a b, Matching casefold ratio snapshot.schools (searchText casefold raw query) a →
        Matching casefold ratio snapshot.schools (searchText casefold raw query) b → a = b))

theorem mem_of_mem_ranking {search : Chars} {record : SchoolRecord} (mem : record ∈ ranking snapshot ratio search) :
    record ∈ snapshot.schools := by
  have scored := (ranking_perm snapshot ratio).mem_iff.mp mem
  unfold CatalogSnapshot.scored at scored
  obtain ⟨pair, there, rfl⟩ := List.mem_map.mp scored
  obtain ⟨other, pool, kept⟩ := List.mem_filterMap.mp there
  dsimp only at kept
  split_ifs at kept
  cases kept
  split_ifs at pool
  · exact pool
  · exact List.mem_of_mem_filter pool

variable {query : Chars}

theorem search_unambiguous (some : searchText casefold raw query ≠ [])
    (single : isDigitText query = true →
      ∀ a b, Matching casefold ratio snapshot.schools (searchText casefold raw query) a →
        Matching casefold ratio snapshot.schools (searchText casefold raw query) b → a = b) :
    Unambiguous snapshot ratio raw query (answerFor factsStatus query (snapshot.searchByName ratio raw query)) := by
  have matching := fun record => mem_ranking snapshot ratio some record
  rw [searchByName_eq]
  generalize ranking snapshot ratio (searchText casefold raw query) = all at matching
  have found : ∀ record ∈ all.take 5,
      Matching casefold ratio snapshot.schools (searchText casefold raw query) record :=
    fun record mem => (matching record).mp (List.mem_of_mem_take mem)
  cases first : all.take 5 with
  | nil => trivial
  | cons school others =>
    rw [first] at found
    have here := found school List.mem_cons_self
    dsimp only [answerFor]
    by_cases several : others ≠ [] ∧ isDigitText query = false
    · rw [if_pos several]
      exact found
    · rw [if_neg several]
      cases factsStatus school.unitid with
      | none => trivial
      | some data =>
        refine ⟨here.2.1, .inr ⟨here, ?_⟩⟩
        intro other matched
        by_cases digits : isDigitText query = true
        · exact single digits other school matched here
        · have alone : others = [] := by
            by_contra more
            exact several ⟨more, Bool.eq_false_iff.mpr digits⟩
          subst alone
          have short : all.length ≤ 5 := by
            have := congrArg List.length first
            rw [List.length_take] at this
            simp at this
            omega
          rw [List.take_of_length_le short] at first
          have mem := (matching other).mpr matched
          rw [first] at mem
          exact List.mem_singleton.mp mem

theorem search_needs (rows : ∀ school ∈ snapshot.schools, factsStatus school.unitid ≠ none)
    (same : fuzzyMatchMinScore ≤ ratio [] []) (noId : ∀ school ∈ snapshot.schools, ¬ IsId query school)
    (outcome : Unambiguous snapshot ratio raw query
      (answerFor factsStatus query (snapshot.searchByName ratio raw query))) :
    searchText casefold raw query ≠ [] ∧ (isDigitText query = true →
      ∀ a b, Matching casefold ratio snapshot.schools (searchText casefold raw query) a →
        Matching casefold ratio snapshot.schools (searchText casefold raw query) b → a = b) := by
  rw [searchByName_eq] at outcome
  have within := fun record => @mem_of_mem_ranking _ snapshot ratio (searchText casefold raw query) record
  cases first : (ranking snapshot ratio (searchText casefold raw query)).take 5 with
  | nil =>
    have empty : ranking snapshot ratio (searchText casefold raw query) = [] := by
      obtain zero | empty := List.take_eq_nil_iff.mp first
      · cases zero
      · exact empty
    have some : searchText casefold raw query ≠ [] := by
      intro blank
      rw [blank] at empty
      exact ranking_nil_ne snapshot ratio same empty
    refine ⟨some, fun _ a b matched _ => ?_⟩
    have mem := (mem_ranking snapshot ratio some a).mpr matched
    rw [empty] at mem
    cases mem
  | cons school others =>
    have isIn : school ∈ snapshot.schools :=
      within school (List.mem_of_mem_take (i := 5) (by rw [first]; exact List.mem_cons_self))
    rw [first] at outcome
    dsimp only [answerFor] at outcome
    by_cases several : others ≠ [] ∧ isDigitText query = false
    · rw [if_pos several] at outcome
      refine ⟨(outcome school List.mem_cons_self).1, fun digits => ?_⟩
      rw [several.2] at digits
      cases digits
    · rw [if_neg several] at outcome
      cases status : factsStatus school.unitid with
      | none => exact absurd status (rows school isIn)
      | some data =>
        rw [status] at outcome
        obtain ⟨-, isId | ⟨matched, only⟩⟩ := outcome
        · exact absurd isId (noId school isIn)
        · exact ⟨matched.1, fun _ a b left right => (only a left).trans (only b right).symm⟩

theorem resolveCandidates_id {school : SchoolRecord} (isIn : school ∈ snapshot.schools)
    (isId : IsId query school) : snapshot.resolveCandidates ratio raw query = .ok [school] := by
  obtain ⟨digits, number, read, same⟩ := isId
  have found : (snapshot.schools.find? fun record => record.unitid = (number : Int)) = some school := by
    cases hit : snapshot.schools.find? fun record => record.unitid = (number : Int) with
    | none =>
      have := List.find?_eq_none.mp hit school isIn
      simp [same] at this
    | some other =>
      have there := List.mem_of_find?_eq_some hit
      have equal := List.find?_some hit
      rw [record_eq snapshot there isIn ((of_decide_eq_true equal).trans same.symm)]
  rw [CatalogSnapshot.resolveCandidates, if_pos digits, read]
  simp only [Except.map, found]

theorem resolveCandidates_other {number : Nat} (noId : ∀ school ∈ snapshot.schools, ¬ IsId query school)
    (read : isDigitText query = true → queryNumber query = .ok number) :
    snapshot.resolveCandidates ratio raw query = .ok (snapshot.searchByName ratio raw query) := by
  unfold CatalogSnapshot.resolveCandidates
  by_cases digits : isDigitText query = true
  · have none : (snapshot.schools.find? fun record => record.unitid = (number : Int)) = none := by
      rw [List.find?_eq_none]
      intro school isIn same
      exact noId school isIn ⟨digits, number, read digits, of_decide_eq_true same⟩
    rw [if_pos digits, read digits]
    simp only [Except.map, none]
  · rw [if_neg digits]

/-- A school is resolved without ambiguity just if the query is one that the code can take. That it must
be so rests on two facts: the view has a row for every school, and a text is similar to itself. -/
theorem resolveSchool_unambiguous_iff :
    (Resolvable snapshot ratio raw (strip query) →
      Unambiguous snapshot ratio raw (strip query) (resolveSchool snapshot ratio raw factsStatus query)) ∧
    ((∀ school ∈ snapshot.schools, factsStatus school.unitid ≠ none) → fuzzyMatchMinScore ≤ ratio [] [] →
      Unambiguous snapshot ratio raw (strip query) (resolveSchool snapshot ratio raw factsStatus query) →
      Resolvable snapshot ratio raw (strip query)) := by
  unfold resolveSchool
  generalize strip query = query
  dsimp only
  by_cases outside : query = [] ∨ maxQuery < query.length
  · rw [if_pos outside]
    exact ⟨fun _ => trivial, fun _ _ _ => outside.imp_right .inl⟩
  · rw [if_neg outside]
    by_cases byId : ∃ school ∈ snapshot.schools, IsId query school
    · obtain ⟨school, isIn, isId⟩ := byId
      rw [resolveCandidates_id snapshot ratio raw isIn isId]
      constructor
      · intro _
        dsimp only [answerFor]
        rw [if_neg (fun several => several.1 rfl)]
        cases factsStatus school.unitid with
        | none => trivial
        | some data => exact ⟨isIn, .inl isId⟩
      · intro _ _ _
        obtain ⟨-, number, read, -⟩ := id isId
        exact .inr (.inr ⟨fun _ => ⟨number, read⟩, .inl ⟨school, isIn, isId⟩⟩)
    · have noId : ∀ school ∈ snapshot.schools, ¬ IsId query school :=
        fun school isIn isId => byId ⟨school, isIn, isId⟩
      by_cases decimal : isDigitText query = true → ∃ number, queryNumber query = .ok number
      · obtain ⟨number, read⟩ : ∃ number, isDigitText query = true → queryNumber query = .ok number := by
          by_cases digits : isDigitText query = true
          · obtain ⟨number, read⟩ := decimal digits
            exact ⟨number, fun _ => read⟩
          · exact ⟨0, fun yes => absurd yes digits⟩
        rw [resolveCandidates_other snapshot ratio raw noId read]
        constructor
        · rintro (empty | long | ⟨-, isId | ⟨some, single⟩⟩)
          · exact absurd (.inl empty) outside
          · exact absurd (.inr long) outside
          · exact absurd isId byId
          · exact search_unambiguous snapshot ratio raw factsStatus some single
        · intro rows same outcome
          exact .inr (.inr ⟨decimal, .inr (search_needs snapshot ratio raw factsStatus rows same noId outcome)⟩)
      · obtain ⟨digits, unread⟩ : isDigitText query = true ∧ ∀ number, queryNumber query ≠ .ok number := by
          obtain ⟨digits, unread⟩ := Classical.not_imp.mp decimal
          exact ⟨digits, fun number read => unread ⟨number, read⟩⟩
        constructor
        · rintro (empty | long | ⟨read, -⟩)
          · exact absurd (.inl empty) outside
          · exact absurd (.inr long) outside
          · exact absurd read decimal
        · intro _ _ outcome
          unfold CatalogSnapshot.resolveCandidates at outcome
          rw [if_pos digits] at outcome
          cases read : queryNumber query with
          | error failure =>
            rw [read] at outcome
            exact outcome.elim
          | ok number => exact absurd read (unread number)

end

def lowerCase : Chars → Chars := List.map Char.toLower

/-- The ratio of a text to one that holds it; 0 for others. -/
def containedRatio (a b : Chars) : ℚ :=
  if a = [] ∧ b = [] then 1
  else if a <:+: b then Binary64.rounded (2 * a.length / (a.length + b.length)) else 0

def area51 : SchoolRecord := ⟨1, "Area 51".toList, "area 51".toList, [], true⟩

def hangar51 : SchoolRecord := ⟨2, "Hangar 51".toList, "hangar 51".toList, [], true⟩

def hangars : CatalogSnapshot lowerCase := ⟨[area51, hangar51], _, by decide, by decide, rfl⟩

theorem hangars_score : fuzzyMatchMinScore ≤ containedRatio [] [] := by decide +kernel

theorem resolveSchool_unambiguous_hangar :
    Unambiguous hangars containedRatio [] (strip "Hangar 51".toList)
      (resolveSchool hangars containedRatio [] (fun _ => some ()) "Hangar 51".toList) ∧
    Resolvable hangars containedRatio [] (strip "Hangar 51".toList) := by
  have laws := @resolveSchool_unambiguous_iff _ _ hangars containedRatio [] (fun _ => some ()) "Hangar 51".toList
  have digits : isDigitText (strip "Hangar 51".toList) = false := by decide +kernel
  have some : searchText lowerCase [] (strip "Hangar 51".toList) ≠ [] := by decide +kernel
  have no : ¬ isDigitText (strip "Hangar 51".toList) = true := by
    rw [digits]
    exact Bool.false_ne_true
  have taken : Resolvable hangars containedRatio [] (strip "Hangar 51".toList) :=
    .inr (.inr ⟨fun yes => absurd yes no, .inr ⟨some, fun yes => absurd yes no⟩⟩)
  exact ⟨laws.1 taken, laws.2 (fun _ _ => by simp) hangars_score (laws.1 taken)⟩

/-- A superscript digit escapes as a `ValueError`, a number in both names resolves to the first of the two
schools, and a query of which nothing is left has all schools as its candidates. -/
theorem resolveSchool_ambiguous :
    resolveSchool hangars containedRatio [] (fun _ => some ()) ['²'] = .error (.escaped .valueError) ∧
    (resolveSchool hangars containedRatio [] (fun _ => some ()) ['5', '1'] = .ok (.resolved area51 ()) ∧
      ¬ IsId ['5', '1'] area51 ∧
      Matching lowerCase containedRatio hangars.schools (searchText lowerCase [] ['5', '1']) area51 ∧
      Matching lowerCase containedRatio hangars.schools (searchText lowerCase [] ['5', '1']) hangar51) ∧
    (resolveSchool hangars containedRatio [] (fun _ => some ()) ['!'] = .ok (.candidates [area51, hangar51]) ∧
      searchText lowerCase [] ['!'] = []) ∧
    ∀ query ∈ [['²'], ['5', '1'], ['!']], ¬ Unambiguous hangars containedRatio [] (strip query)
      (resolveSchool hangars containedRatio [] (fun _ => some ()) query) := by
  have number : hangars.scored containedRatio (searchText lowerCase [] ['5', '1']) =
      [(Binary64.rounded (4 / 9), area51), (Binary64.rounded (4 / 11), hangar51)] := by decide +kernel
  have blank : hangars.scored containedRatio (searchText lowerCase [] ['!']) = [(0, area51), (0, hangar51)] := by
    decide +kernel
  have solid : searchText lowerCase [] ['5', '1'] ≠ [] := by decide +kernel
  have matching : ∀ record ∈ [area51, hangar51],
      Matching lowerCase containedRatio hangars.schools (searchText lowerCase [] ['5', '1']) record := by
    intro record mem
    rw [← mem_scored hangars containedRatio solid record, number]
    exact mem
  have superscript : resolveSchool hangars containedRatio [] (fun _ => some ()) ['²'] =
      .error (.escaped .valueError) := rfl
  have noIds : ∀ school ∈ hangars.schools, ¬ IsId ['5', '1'] school := by
    rintro school mem ⟨-, number, read, same⟩
    cases read
    simp only [hangars, List.mem_cons, List.not_mem_nil, or_false] at mem
    obtain rfl | rfl := mem
    · exact absurd same (by decide)
    · exact absurd same (by decide)
  have both : hangars.resolveCandidates containedRatio [] ['5', '1'] = .ok [area51, hangar51] := by
    rw [resolveCandidates_other hangars containedRatio [] noIds (fun _ => rfl),
      searchByName_of_ordered hangars containedRatio number (by decide +kernel)]
    rfl
  have all : hangars.resolveCandidates containedRatio [] ['!'] = .ok [area51, hangar51] := by
    have read : isDigitText ['!'] = true → queryNumber ['!'] = .ok 0 := fun digits => absurd digits (by decide)
    have noIds : ∀ school ∈ hangars.schools, ¬ IsId ['!'] school := fun _ _ isId => absurd isId.1 (by decide)
    rw [resolveCandidates_other hangars containedRatio [] noIds read,
      searchByName_of_ordered hangars containedRatio blank (by decide +kernel)]
    rfl
  have digits : resolveSchool hangars containedRatio [] (fun _ => some ()) ['5', '1'] = .ok (.resolved area51 ()) := by
    rw [resolveSchool, show strip ['5', '1'] = ['5', '1'] from rfl, both]
    rfl
  have left : resolveSchool hangars containedRatio [] (fun _ => some ()) ['!'] = .ok (.candidates [area51, hangar51]) := by
    rw [resolveSchool, show strip ['!'] = ['!'] from rfl, all]
    rfl
  have noId := noIds area51 (by decide)
  have nothing : searchText lowerCase [] ['!'] = [] := by decide +kernel
  refine ⟨superscript, ⟨digits, noId, matching _ (by simp), matching _ (by simp)⟩, ⟨left, nothing⟩, ?_⟩
  intro query mem outcome
  simp only [List.mem_cons, List.not_mem_nil, or_false] at mem
  obtain rfl | rfl | rfl := mem
  · rw [superscript] at outcome
    exact outcome
  · rw [digits] at outcome
    obtain ⟨-, isId | ⟨-, only⟩⟩ := outcome
    · exact noId isId
    · exact absurd (only hangar51 (matching _ (by simp))) (by decide)
  · rw [left] at outcome
    exact (outcome area51 (by simp)).1 nothing

end Counselle.Schools
