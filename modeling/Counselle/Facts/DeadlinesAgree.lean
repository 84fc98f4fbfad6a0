import Counselle.Facts.Deadlines

/-! When an application inherits the date that the calendar shows, and the facts page shows
it too. All three are read off the one open row of the deadline and the one of its flag. -/
namespace Counselle.Facts
open Calendar (Date)

variable {store : FactsStore} {school : Nat} {key : String}

theorem map_filterMap_sublist {A B K : Type} {f : A → Option B} {g : B → K} {h : A → K}
    (same : ∀ a b, f a = some b → g b = h a) (items : List A) :
    ((items.filterMap f).map g).Sublist (items.map h) := by
  induction items with
  | nil => exact List.Sublist.refl []
  | cons a rest ih =>
    cases found : f a with
    | none =>
      rw [List.filterMap_cons_none found]
      exact ih.cons (h a)
    | some b =>
      rw [List.filterMap_cons_some found, List.map_cons, List.map_cons, same a b found]
      exact ih.cons_cons (h a)

theorem schoolId_current {row : CurrentFact} (isIn : row ∈ store.current school) : row.schoolId = school := by
  obtain ⟨fact, -, isRow⟩ := List.mem_filterMap.mp isIn
  obtain ⟨observedAt, -, rfl⟩ := Option.map_eq_some_iff.mp isRow
  rfl

theorem nodup_current : ((store.current school).map fun row => row.fact.factKey).Nodup := by
  refine (map_filterMap_sublist ?_ (store.facts school).current).nodup (store.facts school).unique
  intro fact row isRow
  obtain ⟨observedAt, -, rfl⟩ := Option.map_eq_some_iff.mp isRow
  rfl

theorem mem_view {row : CurrentFact} : row ∈ store.view ↔
    row.schoolId ∈ store.schoolIds ∧ row ∈ store.current row.schoolId := by
  constructor
  · intro isIn
    obtain ⟨school, isSchool, isRow⟩ := List.mem_flatMap.mp isIn
    rw [schoolId_current isRow]
    exact ⟨isSchool, isRow⟩
  · exact fun ⟨isSchool, isRow⟩ => List.mem_flatMap.mpr ⟨row.schoolId, isSchool, isRow⟩

theorem nodup_view : (store.view.map fun row => (row.schoolId, row.fact.factKey)).Nodup := by
  rw [FactsStore.view, List.map_flatMap, List.nodup_flatMap]
  constructor
  · intro school _
    have keys : ((store.current school).map fun row => (row.schoolId, row.fact.factKey)) =
        ((store.current school).map fun row => row.fact.factKey).map fun key => (school, key) := by
      rw [List.map_map]
      exact List.map_congr_left fun row isIn => by rw [schoolId_current isIn]; rfl
    rw [keys]
    exact nodup_current.map fun _ _ same => (Prod.mk.inj same).2
  · refine store.distinct.imp fun apart => ?_
    intro pair one two
    obtain ⟨row, isIn, rfl⟩ := List.mem_map.mp one
    obtain ⟨other, isOther, same⟩ := List.mem_map.mp two
    refine apart ?_
    rw [← schoolId_current isIn, ← schoolId_current isOther]
    exact (Prod.mk.inj same).1.symm

def FactsStore.rowOf (store : FactsStore) (school : Nat) (key : String) : Option CurrentFact :=
  (store.current school).find? fun row => row.fact.factKey = key

theorem rowOf_iff {row : CurrentFact} : store.rowOf school key = some row ↔
    row ∈ store.current school ∧ row.fact.factKey = key :=
  Upsert.find?_key_iff nodup_current

theorem find?_view {V : Type} (kept : CurrentFact → Bool) (val : CurrentFact → V)
    (isSchool : school ∈ store.schoolIds) :
    ((Upsert.dictOf Prod.fst ((store.view.filter kept).map fun row =>
      ((row.schoolId, row.fact.factKey), val row))).find? fun entry => entry.1 = (school, key)).map Prod.snd =
      ((store.rowOf school key).filter kept).map val := by
  have distinct : (((store.view.filter kept).map fun row =>
      ((row.schoolId, row.fact.factKey), val row)).map Prod.fst).Nodup := by
    rw [List.map_map]
    exact (List.filter_sublist.map _).nodup nodup_view
  rw [Upsert.dictOf_of_nodup distinct]
  apply Option.ext
  intro value
  rw [Option.map_eq_some_iff, Option.map_eq_some_iff]
  constructor
  · rintro ⟨entry, found, rfl⟩
    obtain ⟨isIn, isKey⟩ := (Upsert.find?_key_iff distinct).mp found
    obtain ⟨row, isRow, rfl⟩ := List.mem_map.mp isIn
    obtain ⟨inView, isKept⟩ := List.mem_filter.mp isRow
    obtain ⟨rfl, rfl⟩ := Prod.mk.inj isKey
    exact ⟨row, Option.filter_eq_some_iff.mpr ⟨rowOf_iff.mpr ⟨(mem_view.mp inView).2, rfl⟩, isKept⟩, rfl⟩
  · rintro ⟨row, found, rfl⟩
    obtain ⟨isRow, isKept⟩ := Option.filter_eq_some_iff.mp found
    obtain ⟨isIn, rfl⟩ := rowOf_iff.mp isRow
    have sameSchool := schoolId_current isIn
    subst sameSchool
    have inView := mem_view.mpr ⟨isSchool, isIn⟩
    exact ⟨_, (Upsert.find?_key_iff distinct).mpr
      ⟨List.mem_map_of_mem (List.mem_filter.mpr ⟨inView, isKept⟩), rfl⟩, rfl⟩

theorem schoolDeadlineFacts_get {unitids : List Nat} (isSchool : school ∈ store.schoolIds)
    (asked : school ∈ unitids) (isKey : key ∈ deadlineFactKeys) :
    (schoolDeadlineFacts store unitids).get school key = (store.rowOf school key).map CurrentFact.deadline := by
  rw [DeadlineFacts.get, schoolDeadlineFacts, find?_view _ _ isSchool]
  cases found : store.rowOf school key with
  | none => rfl
  | some row =>
    obtain ⟨isIn, rfl⟩ := rowOf_iff.mp found
    simp [Option.filter, schoolId_current isIn, asked, isKey]

theorem effectiveDeadline_value {fact : Option DeadlineFact} {cycleYear : Option Int} {staleDays : Nat} {now : Int} :
    (effectiveDeadline none fact cycleYear staleDays now).value =
      (inheritedDate fact cycleYear staleDays now).map InheritedDate.date := by
  simp only [effectiveDeadline]
  split
  case h_1 ownless => cases ownless
  case h_2 unset => rw [unset]; rfl
  case h_3 inherited isDate => rw [isDate]; rfl

theorem mem_deadlineFactKeys {round : ApplicationRound} (isKey : roundFactKey round = some key) :
    key ∈ deadlineFactKeys := by
  cases round <;> simp_all [roundFactKey, deadlineFactKeys]

theorem viewFromRow_value {staleDays : Nat} {now : Int} {unitids : List Nat} {row : ApplicationRow}
    (isSchool : row.schoolUnitid ∈ store.schoolIds) (asked : row.schoolUnitid ∈ unitids)
    (isKey : roundFactKey row.round = some key) (ownless : row.deadline = none) :
    (viewFromRow (schoolDeadlineFacts store unitids) staleDays now row).deadline.value =
      (inheritedDate ((store.rowOf row.schoolUnitid key).map CurrentFact.deadline) row.cycleYear staleDays
        now).map InheritedDate.date := by
  rw [viewFromRow, ownless, effectiveDeadline_value, isKey, Option.bind_some,
    schoolDeadlineFacts_get isSchool asked (mem_deadlineFactKeys isKey)]

section Calendars
variable {catalog : Catalog} {cycleYear : Int} {staleDays : Nat} {now : Int} {row : CurrentFact} {date : Date}

/-- A row that carries a date for the cycle, observed and not stale. -/
structure CurrentFact.Gives (row : CurrentFact) (cycleYear : Int) (staleDays : Nat) (now : Int) (date : Date) :
    Prop where
  dated : row.fact.typed.date = some date
  period : row.fact.reportedPeriod = some (deadlineReportedPeriod cycleYear)
  fresh : isStale row.observedAt staleDays now = false
  observed : row.observedAt.isSome

theorem inheritedDate_iff : (inheritedDate (some row.deadline) (some cycleYear) staleDays now).map
    InheritedDate.date = some date ↔ row.Gives cycleYear staleDays now date := by
  rw [inheritedDate.eq_def]
  obtain ⟨schoolId, fact, observedAt⟩ := row
  simp only [CurrentFact.deadline]
  constructor
  · intro inherits
    split at inherits
    case h_2 => cases inherits
    case h_1 stored cycle period seen isFact isCycle =>
      obtain ⟨isDate, rfl, rfl⟩ := DeadlineFact.mk.inj (Option.some.inj isFact)
      obtain rfl := Option.some.inj isCycle
      split at inherits
      case isTrue => cases inherits
      case isFalse samePeriod =>
        split at inherits
        case isTrue => cases inherits
        case isFalse notStale =>
          obtain ⟨inherited, isInherited, rfl⟩ := Option.map_eq_some_iff.mp inherits
          obtain ⟨time, rfl, rfl⟩ := Option.map_eq_some_iff.mp isInherited
          exact ⟨isDate, not_not.mp samePeriod, Bool.eq_false_iff.mpr notStale, rfl⟩
  · rintro ⟨dated, period, fresh, observed⟩
    simp only at dated period fresh observed
    obtain ⟨time, rfl⟩ := Option.isSome_iff_exists.mp observed
    rw [dated, period]
    simp [fresh]

/-- The program of the deadline is stored as not offered. -/
def Denied (store : FactsStore) (school : Nat) (key : String) : Prop :=
  ∃ flagKey flag, offeredKeyForDeadline.lookup key = some flagKey ∧ store.rowOf school flagKey = some flag ∧
    flag.fact.typed.bool = some false

theorem flagKey_mem {flagKey : String} (isFlag : offeredKeyForDeadline.lookup key = some flagKey) :
    calendarFactKeys.contains flagKey = true ∧ (calendarRoundKeys.map Prod.fst).contains flagKey = false := by
  have listed : flagKey ∈ offeredKeyForDeadline.map Prod.snd :=
    List.mem_map.mpr ⟨(key, flagKey), Upsert.mem_of_lookup isFlag, rfl⟩
  revert listed
  simp only [offeredKeyForDeadline, List.map_cons, List.map_nil, List.mem_cons, List.not_mem_nil, or_false]
  rintro (rfl | rfl | rfl | rfl) <;> decide

theorem denies_iff {flagKey : String} (isSchool : school ∈ store.schoolIds)
    (isFlag : offeredKeyForDeadline.lookup key = some flagKey) :
    (offeredFlags (store.view.filter fun row => calendarFactKeys.contains row.fact.factKey)).denies school
      flagKey = true ↔ ∃ flag, store.rowOf school flagKey = some flag ∧ flag.fact.typed.bool = some false := by
  obtain ⟨asked, notRound⟩ := flagKey_mem isFlag
  rw [OfferedFlags.denies, offeredFlags, List.filter_filter, find?_view _ _ isSchool, decide_eq_true_iff]
  cases found : store.rowOf school flagKey with
  | none => simp
  | some flag =>
    obtain ⟨isIn, rfl⟩ := rowOf_iff.mp found
    rw [Option.filter_some, if_pos (by rw [asked, notRound]; rfl)]
    simp

theorem mem_calendar {item : SchoolDeadlineItem} :
    item ∈ (schoolDeadlineCalendar store catalog cycleYear staleDays now).items ↔
      ∃ row ∈ store.view, calendarFactKeys.contains row.fact.factKey = true ∧
        calendarItem (offeredFlags (store.view.filter fun row => calendarFactKeys.contains row.fact.factKey))
          catalog cycleYear staleDays now row = some item := by
  simp only [schoolDeadlineCalendar, buildSchoolDeadlineCalendar, List.mem_insertionSort, List.mem_filterMap,
    List.mem_filter, and_assoc]

theorem lookup_inj {round : CalendarRound} {other : String} (isRound : calendarRoundKeys.lookup key = some round)
    (isOther : calendarRoundKeys.lookup other = some round) : other = key := by
  have one := Upsert.mem_of_lookup isRound
  have two := Upsert.mem_of_lookup isOther
  simp only [calendarRoundKeys, List.mem_cons, Prod.mk.injEq, List.not_mem_nil, or_false] at one two
  rcases one with ⟨rfl, rfl⟩ | ⟨rfl, rfl⟩ | ⟨rfl, rfl⟩ | ⟨rfl, rfl⟩ | ⟨rfl, rfl⟩ <;> simpa using two

theorem calendarRoundKeys_asked {round : CalendarRound} (isRound : calendarRoundKeys.lookup key = some round) :
    calendarFactKeys.contains key = true := by
  have listed := List.mem_map_of_mem (f := Prod.fst) (Upsert.mem_of_lookup isRound)
  simp [calendarFactKeys, listed]

/-- The calendar shows a date for the school and the round. -/
def CalendarShows (store : FactsStore) (catalog : Catalog) (cycleYear : Int) (staleDays : Nat) (now : Int)
    (school : Nat) (round : CalendarRound) (date : Date) : Prop :=
  ∃ item ∈ (schoolDeadlineCalendar store catalog cycleYear staleDays now).items,
    item.unitid = school ∧ item.round = round ∧ item.date = date

theorem calendarShows_iff {round : CalendarRound} (isSchool : school ∈ store.schoolIds)
    (known : (catalog school).isSome) (isRound : calendarRoundKeys.lookup key = some round) :
    CalendarShows store catalog cycleYear staleDays now school round date ↔
      ¬ Denied store school key ∧
        ∃ row, store.rowOf school key = some row ∧ row.Gives cycleYear staleDays now date := by
  have denied : ∀ row : CurrentFact, row.fact.factKey = key → row.schoolId = school →
      (((offeredKeyForDeadline.lookup row.fact.factKey).any fun flagKey =>
        (offeredFlags (store.view.filter fun row => calendarFactKeys.contains row.fact.factKey)).denies
          row.schoolId flagKey) = true ↔ Denied store school key) := by
    rintro row rfl rfl
    cases isFlag : offeredKeyForDeadline.lookup row.fact.factKey with
    | none => simp [Denied, isFlag]
    | some flagKey =>
      rw [Option.any_some, denies_iff isSchool isFlag]
      constructor
      · exact fun ⟨flag, isFlagRow, unset⟩ => ⟨flagKey, flag, isFlag, isFlagRow, unset⟩
      · rintro ⟨other, flag, isOther, isFlagRow, unset⟩
        obtain rfl := Option.some.inj (isFlag.symm.trans isOther)
        exact ⟨flag, isFlagRow, unset⟩
  constructor
  · rintro ⟨item, isItem, rfl, sameRound, rfl⟩
    obtain ⟨row, isIn, -, isRow⟩ := mem_calendar.mp isItem
    unfold calendarItem at isRow
    split at isRow
    case h_1 => cases isRow
    case h_2 itsRound hasRound =>
      split at isRow
      case isTrue => cases isRow
      case isFalse offered =>
        split at isRow
        case h_2 => cases isRow
        case h_1 inherited record inherits _ =>
          obtain rfl := Option.some.inj isRow
          simp only at sameRound isSchool ⊢
          subst sameRound
          have sameKey := lookup_inj isRound hasRound
          refine ⟨fun isDenied => offered ((denied row sameKey rfl).mpr isDenied), row,
            rowOf_iff.mpr ⟨(mem_view.mp isIn).2, sameKey⟩, inheritedDate_iff.mp ?_⟩
          rw [inherits, Option.map_some]
  · rintro ⟨offered, row, isRow, gives⟩
    obtain ⟨isIn, rfl⟩ := rowOf_iff.mp isRow
    obtain rfl := schoolId_current isIn
    obtain ⟨record, isRecord⟩ := Option.isSome_iff_exists.mp known
    obtain ⟨inherited, inherits, isDate⟩ := Option.map_eq_some_iff.mp (inheritedDate_iff.mpr gives)
    refine ⟨⟨row.schoolId, record.name, websiteUrl catalog row.schoolId, round, inherited.date,
      inherited.checkedAt⟩, mem_calendar.mpr ⟨row, mem_view.mpr ⟨isSchool, isIn⟩,
        calendarRoundKeys_asked isRound, ?_⟩, rfl, rfl, isDate⟩
    rw [calendarItem, isRound]
    simp only
    rw [if_neg fun isDenied => offered ((denied row rfl rfl).mp isDenied), inherits, isRecord]

end Calendars

section Page
variable {catalog : Catalog}

theorem readRow_ok {row : CurrentFact} {read : FactValueRow} :
    readRow row = .ok read ↔ row.observedAt = some read.observedAt ∧ row.fact = read.fact := by
  obtain ⟨fact, observedAt⟩ := read
  unfold readRow
  split
  case h_1 time isTime => simp [isTime, and_comm]
  case h_2 missing => simp [missing]

theorem mapM_readRow {rows : List CurrentFact} {reads : List FactValueRow} :
    rows.mapM readRow = .ok reads ↔ List.Forall₂ (fun row read =>
      row.observedAt = some read.observedAt ∧ row.fact = read.fact) rows reads := by
  induction rows generalizing reads with
  | nil => simp [pure, Except.pure, eq_comm]
  | cons row rest ih =>
    simp only [List.mapM_cons, Fallible.bind_ok_iff, List.forall₂_cons_left_iff, readRow_ok, ih]
    constructor
    · rintro ⟨read, isRead, reads, areReads, isAll⟩
      obtain rfl := Except.ok.inj isAll
      exact ⟨read, reads, isRead, areReads, rfl⟩
    · rintro ⟨read, reads, isRead, areReads, rfl⟩
      exact ⟨read, isRead, reads, areReads, rfl⟩

theorem keys_reads {rows : List CurrentFact} {reads : List FactValueRow} (areReads : rows.mapM readRow = .ok reads) :
    reads.map (fun read => read.fact.factKey) = rows.map fun row => row.fact.factKey := by
  have pairs := mapM_readRow.mp areReads
  clear areReads
  induction pairs with
  | nil => rfl
  | cons related _ ih => rw [List.map_cons, List.map_cons, ih, related.2]

theorem mem_reads {rows : List CurrentFact} {reads : List FactValueRow} (areReads : rows.mapM readRow = .ok reads)
    {read : FactValueRow} : read ∈ reads ↔
      ∃ row ∈ rows, row.observedAt = some read.observedAt ∧ row.fact = read.fact := by
  have pairs := mapM_readRow.mp areReads
  clear areReads
  induction pairs with
  | nil => simp
  | @cons row other _ _ related _ ih =>
    have sameRead : read = other ↔ row.observedAt = some read.observedAt ∧ row.fact = read.fact := by
      rw [related.1, related.2, FactValueRow.mk.injEq, Option.some.injEq]
      exact ⟨fun ⟨one, two⟩ => ⟨two.symm, one.symm⟩, fun ⟨one, two⟩ => ⟨two.symm, one.symm⟩⟩
    constructor
    · intro isIn
      rcases List.mem_cons.mp isIn with isHead | isLater
      · exact ⟨row, .head _, sameRead.mp isHead⟩
      · obtain ⟨source, isSource, same⟩ := ih.mp isLater
        exact ⟨source, .tail _ isSource, same⟩
    · rintro ⟨source, isSource, same⟩
      rcases List.mem_cons.mp isSource with rfl | isLater
      · exact List.mem_cons.mpr (Or.inl (sameRead.mpr same))
      · exact .tail _ (ih.mpr ⟨source, isLater, same⟩)

theorem factOf_factsByKey {reads : List FactValueRow} (areReads : (store.current school).mapM readRow = .ok reads)
    {read : FactValueRow} : factOf (factsByKey reads) key = some read ↔
      ∃ row, store.rowOf school key = some row ∧ row.observedAt = some read.observedAt ∧ row.fact = read.fact := by
  have distinct : (reads.map fun read => read.fact.factKey).Nodup := keys_reads areReads ▸ nodup_current
  rw [factsByKey, Upsert.dictOf_of_nodup distinct, factOf, Upsert.find?_key_iff distinct, mem_reads areReads]
  constructor
  · rintro ⟨⟨row, isIn, seen, sameFact⟩, rfl⟩
    exact ⟨row, rowOf_iff.mpr ⟨isIn, by rw [sameFact]⟩, seen, sameFact⟩
  · rintro ⟨row, isRow, seen, sameFact⟩
    obtain ⟨isIn, rfl⟩ := rowOf_iff.mp isRow
    exact ⟨⟨row, isIn, seen, sameFact⟩, by rw [sameFact]⟩

theorem exists_reads {rows : List CurrentFact} :
    (∃ reads, rows.mapM readRow = .ok reads) ↔ ∀ row ∈ rows, row.observedAt.isSome := by
  constructor
  · rintro ⟨reads, areReads⟩ row isIn
    have pairs := mapM_readRow.mp areReads
    clear areReads
    induction pairs with
    | nil => cases isIn
    | cons related _ ih =>
      rcases List.mem_cons.mp isIn with rfl | isIn
      · rw [related.1]
        rfl
      · exact ih isIn
  · intro observed
    induction rows with
    | nil => exact ⟨[], rfl⟩
    | cons row rest ih =>
      rw [List.forall_mem_cons] at observed
      obtain ⟨time, isTime⟩ := Option.isSome_iff_exists.mp observed.1
      obtain ⟨reads, areReads⟩ := ih observed.2
      exact ⟨⟨row.fact, time⟩ :: reads, mapM_readRow.mpr (.cons ⟨isTime, rfl⟩ (mapM_readRow.mp areReads))⟩

theorem getSchoolFacts_ok (isSchool : school ∈ store.schoolIds) (known : (catalog school).isSome)
    {page : List DeadlineRow} : getSchoolFacts store catalog school = .ok page ↔
      ∃ reads, (store.current school).mapM readRow = .ok reads ∧
        buildDeadlines (factsByKey reads) (store.status school) = page := by
  have found : ((catalog school).isNone || !store.schoolIds.contains school) = false := by
    simp [isSchool, Option.isNone_eq_false_iff, known]
  rw [getSchoolFacts, found]
  simp [Fallible.bind_ok_iff, pure, Except.pure]

def pageRound (key : String) : Option String :=
  (deadlinesGroup.find? fun spec => spec.key = key).map fun spec => deadlineRoundLabel spec.label

def roundChars (suffix label : List Char) : List Char :=
  if suffix.isSuffixOf label then label.dropLast.take (label.length - suffix.length) else label

theorem toList_deadlineRoundLabel (label : String) :
    (deadlineRoundLabel label).toList = roundChars " deadline".toList label.toList := by
  simp only [deadlineRoundLabel, roundChars, String.length_toList]
  split
  · rw [String.toList_ofList]
  · rfl

theorem pageRound_inj : ∀ one ∈ deadlinesGroup, ∀ two ∈ deadlinesGroup, one.key ≠ rollingKey → two.key ≠ rollingKey →
    deadlineRoundLabel one.label = deadlineRoundLabel two.label → one.key = two.key := by
  -- no two of the names share both their length and their tenth character
  have distinct : (deadlinesGroup.map fun spec =>
      let chars := roundChars " deadline".toList spec.label.toList
      (chars.length, chars[9]?)).Nodup := by
    simp only [deadlinesGroup, List.map_cons, List.map_nil, String.reduceToList]
    decide +kernel
  intro one isOne two isTwo _ _ same
  have sameChars := congrArg String.toList same
  rw [toList_deadlineRoundLabel, toList_deadlineRoundLabel] at sameChars
  have sameFact : one = two := List.inj_on_of_nodup_map distinct isOne isTwo (by rw [sameChars])
  rw [sameFact]

def PageShows (page : List DeadlineRow) (cycleYear : Int) (label : String) (date : Date) : Prop :=
  ∃ row ∈ page, row.round = label ∧ row.date = some date.isoformat ∧
    row.reportedPeriod = some (deadlineReportedPeriod cycleYear)

section Read
variable {reads : List FactValueRow} (areReads : (store.current school).mapM readRow = .ok reads)
include areReads

theorem factOf_rowOf {row : CurrentFact} (isRow : store.rowOf school key = some row) :
    ∃ time, row.observedAt = some time ∧ factOf (factsByKey reads) key = some ⟨row.fact, time⟩ := by
  have observed := exists_reads.mp ⟨reads, areReads⟩ row (rowOf_iff.mp isRow).1
  obtain ⟨time, isTime⟩ := Option.isSome_iff_exists.mp observed
  exact ⟨time, isTime, (factOf_factsByKey areReads).mpr ⟨row, isRow, isTime, rfl⟩⟩

theorem denied_iff : (∃ flag, (((offeredKeyForDeadline.lookup key).bind (factOf (factsByKey reads))).filter
    fun row => row.fact.typed.bool = some false) = some flag) ↔ Denied store school key := by
  constructor
  · rintro ⟨flag, found⟩
    obtain ⟨isFlag, unset⟩ := Option.filter_eq_some_iff.mp found
    obtain ⟨flagKey, isKey, isFlag⟩ := Option.bind_eq_some_iff.mp isFlag
    obtain ⟨row, isRow, -, sameFact⟩ := (factOf_factsByKey areReads).mp isFlag
    exact ⟨flagKey, row, isKey, isRow, by rw [sameFact]; exact of_decide_eq_true unset⟩
  · rintro ⟨flagKey, row, isKey, isRow, unset⟩
    obtain ⟨time, -, isRead⟩ := factOf_rowOf areReads isRow
    refine ⟨⟨row.fact, time⟩, Option.filter_eq_some_iff.mpr ⟨?_, decide_eq_true unset⟩⟩
    rw [isKey, Option.bind_some, isRead]

variable (status : SchoolStatus) (spec : SectionFact)

omit areReads in
theorem deadlineRow_round (byKey : List FactValueRow) :
    (deadlineRow byKey status spec).round = deadlineRoundLabel spec.label := by
  simp only [deadlineRow]
  cases ((offeredKeyForDeadline.lookup spec.key).bind (factOf byKey)).filter
      fun row => row.fact.typed.bool = some false with
  | some denied => rfl
  | none => cases factOf byKey spec.key <;> rfl

theorem deadlineRow_denied (denied : Denied store school spec.key) :
    (deadlineRow (factsByKey reads) status spec).date = none := by
  obtain ⟨flag, isFlag⟩ := (denied_iff areReads).mpr denied
  simp only [deadlineRow, isFlag]

theorem deadlineRow_row (offered : ¬ Denied store school spec.key) {row : CurrentFact}
    (isRow : store.rowOf school spec.key = some row) :
    (deadlineRow (factsByKey reads) status spec).date = row.fact.typed.date.map Date.isoformat ∧
      (deadlineRow (factsByKey reads) status spec).reportedPeriod = row.fact.reportedPeriod ∧
      (deadlineRow (factsByKey reads) status spec).observedAt = row.observedAt := by
  obtain ⟨time, isTime, isRead⟩ := factOf_rowOf areReads isRow
  have noFlag : (((offeredKeyForDeadline.lookup spec.key).bind (factOf (factsByKey reads))).filter
      fun row => row.fact.typed.bool = some false) = none := by
    by_contra some
    exact offered ((denied_iff areReads).mp (Option.ne_none_iff_exists'.mp some))
  simp only [deadlineRow, noFlag, isRead, isTime, and_self]

theorem deadlineRow_missing (offered : ¬ Denied store school spec.key)
    (missing : store.rowOf school spec.key = none) :
    (deadlineRow (factsByKey reads) status spec).date = none := by
  have noFlag : (((offeredKeyForDeadline.lookup spec.key).bind (factOf (factsByKey reads))).filter
      fun row => row.fact.typed.bool = some false) = none := by
    by_contra some
    exact offered ((denied_iff areReads).mp (Option.ne_none_iff_exists'.mp some))
  have unread : factOf (factsByKey reads) spec.key = none := by
    by_contra some
    obtain ⟨read, isRead⟩ := Option.ne_none_iff_exists'.mp some
    obtain ⟨row, isRow, -⟩ := (factOf_factsByKey areReads).mp isRead
    rw [missing] at isRow
    cases isRow
  simp only [deadlineRow, noFlag, unread]

end Read

theorem isoformat_inj {a b : Date} (same : a.isoformat = b.isoformat) : a = b := by
  have read := Calendar.fromIsoformat_isoformat b
  rw [← same, Calendar.fromIsoformat_isoformat] at read
  exact Option.some.inj read

end Page

def Inherits (store : FactsStore) (staleDays : Nat) (now : Int) (rows : List ApplicationRow)
    (row : ApplicationRow) (date : Date) : Prop :=
  (viewFromRow (schoolDeadlineFacts store (rows.map ApplicationRow.schoolUnitid)) staleDays now
    row).deadline.value = some date

/-- An application of the school, the round and the cycle without a date of its own. -/
structure Ownless (school : Nat) (round : ApplicationRound) (cycleYear : Int) (row : ApplicationRow) : Prop where
  school : row.schoolUnitid = school
  round : row.round = round
  cycle : row.cycleYear = some cycleYear
  ownless : row.deadline = none

section Agreement
variable (store : FactsStore) (catalog : Catalog) (staleDays : Nat) (now : Int) (cycleYear : Int) (school : Nat)
  (round : ApplicationRound) (key label : String) (calendarRound : CalendarRound)

structure SurfacesAgree : Prop where
  inherits_iff : ∀ rows, ∀ row ∈ rows, Ownless school round cycleYear row → ∀ date,
    Inherits store staleDays now rows row date ↔
      CalendarShows store catalog cycleYear staleDays now school calendarRound date
  onPage : ∀ rows, ∀ row ∈ rows, Ownless school round cycleYear row → ∀ date,
    Inherits store staleDays now rows row date ∨
      CalendarShows store catalog cycleYear staleDays now school calendarRound date →
    ∃ page, getSchoolFacts store catalog school = .ok page ∧ PageShows page cycleYear label date
  fromPage : ∀ page, getSchoolFacts store catalog school = .ok page → ∀ shown ∈ page, shown.round = label →
    ∀ date : Date, shown.date = some date.isoformat →
      shown.reportedPeriod = some (deadlineReportedPeriod cycleYear) →
      isStale shown.observedAt staleDays now = false → ∀ rows, ∀ row ∈ rows, Ownless school round cycleYear row →
    Inherits store staleDays now rows row date ∧
      CalendarShows store catalog cycleYear staleDays now school calendarRound date

/-- An open row that gives a date for the cycle stands neither beside a flag that says that
the program is not offered, nor beside an open fact without the time of its page. -/
def Unopposed : Prop :=
  ∀ row date, store.rowOf school key = some row → row.Gives cycleYear staleDays now date →
    ¬ Denied store school key ∧ ∀ other ∈ store.current school, other.observedAt.isSome

end Agreement

theorem inherits_iff {staleDays : Nat} {now : Int} {rows : List ApplicationRow} {row : ApplicationRow}
    {round : ApplicationRound} {cycleYear : Int} {date : Date} (isSchool : school ∈ store.schoolIds)
    (isIn : row ∈ rows) (ownless : Ownless school round cycleYear row) (mapped : roundFactKey round = some key) :
    Inherits store staleDays now rows row date ↔
      ∃ fact, store.rowOf school key = some fact ∧ fact.Gives cycleYear staleDays now date := by
  obtain ⟨rfl, rfl, isCycle, noDate⟩ := ownless
  rw [Inherits, viewFromRow_value isSchool (List.mem_map_of_mem isIn) mapped noDate, isCycle]
  cases found : store.rowOf row.schoolUnitid key with
  | none => simp [inheritedDate]
  | some fact =>
    rw [Option.map_some, inheritedDate_iff]
    simp

/-- On a round that maps to a deadline fact the surfaces agree exactly when no date of the
cycle is opposed. -/
theorem surfaces_agree_iff {catalog : Catalog} {staleDays : Nat} {now cycleYear : Int}
    {round : ApplicationRound} {label : String} {calendarRound : CalendarRound}
    (isSchool : school ∈ store.schoolIds) (known : (catalog school).isSome)
    (mapped : roundFactKey round = some key) (onCalendar : calendarRoundKeys.lookup key = some calendarRound)
    (onPage : pageRound key = some label) :
    SurfacesAgree store catalog staleDays now cycleYear school round label calendarRound ↔
      Unopposed store staleDays now cycleYear school key := by
  obtain ⟨spec, isSpec, rfl⟩ := Option.map_eq_some_iff.mp onPage
  obtain rfl : spec.key = key := by simpa using List.find?_some isSpec
  have inGroup := List.mem_of_find?_eq_some isSpec
  have notRolling : spec.key ≠ rollingKey := by
    intro isRolling
    rw [isRolling] at mapped
    cases round <;> simp [roundFactKey, rollingKey] at mapped
  have shows := fun date => @calendarShows_iff store school spec.key catalog cycleYear staleDays now date
    calendarRound isSchool known onCalendar
  constructor
  · intro agree row date isRow gives
    let sample : ApplicationRow := ⟨school, round, some cycleYear, none, none⟩
    have ownless : Ownless school round cycleYear sample := ⟨rfl, rfl, rfl, rfl⟩
    have isIn : sample ∈ [sample] := List.mem_singleton_self sample
    have inherits := (inherits_iff isSchool isIn ownless mapped).mpr ⟨row, isRow, gives⟩
    obtain ⟨page, isPage, -⟩ := agree.onPage _ _ isIn ownless date (Or.inl inherits)
    obtain ⟨reads, areReads, -⟩ := (getSchoolFacts_ok isSchool known).mp isPage
    exact ⟨((shows date).mp ((agree.inherits_iff _ _ isIn ownless date).mp inherits)).1,
      exists_reads.mp ⟨reads, areReads⟩⟩
  · intro unopposed
    refine ⟨fun rows row isIn ownless date => ?_, fun rows row isIn ownless date shown => ?_,
      fun page isPage shown isShown sameLabel date dated period fresh rows row isIn ownless => ?_⟩
    · rw [inherits_iff isSchool isIn ownless mapped, shows]
      exact ⟨fun ⟨fact, isFact, gives⟩ => ⟨(unopposed fact date isFact gives).1, fact, isFact, gives⟩,
        fun ⟨_, given⟩ => given⟩
    · have given : ∃ fact, store.rowOf school spec.key = some fact ∧ fact.Gives cycleYear staleDays now date := by
        rcases shown with inherits | onCalendar
        · exact (inherits_iff isSchool isIn ownless mapped).mp inherits
        · exact ((shows date).mp onCalendar).2
      obtain ⟨fact, isFact, gives⟩ := given
      obtain ⟨offered, observed⟩ := unopposed fact date isFact gives
      obtain ⟨reads, areReads⟩ := exists_reads.mpr observed
      obtain ⟨isDate, isPeriod, -⟩ := deadlineRow_row areReads (store.status school) spec offered isFact
      refine ⟨_, (getSchoolFacts_ok isSchool known).mpr ⟨reads, areReads, rfl⟩,
        deadlineRow (factsByKey reads) (store.status school) spec,
        List.mem_map_of_mem (List.mem_filter.mpr ⟨inGroup, decide_eq_true notRolling⟩),
        deadlineRow_round _ _ _, ?_, isPeriod.trans gives.period⟩
      rw [isDate, gives.dated, Option.map_some]
    · obtain ⟨reads, areReads, rfl⟩ := (getSchoolFacts_ok isSchool known).mp isPage
      obtain ⟨other, isOther, rfl⟩ := List.mem_map.mp isShown
      obtain ⟨otherInGroup, otherNotRolling⟩ := List.mem_filter.mp isOther
      rw [deadlineRow_round] at sameLabel
      have sameKey := pageRound_inj other otherInGroup spec inGroup (of_decide_eq_true otherNotRolling) notRolling
        sameLabel
      have offered : ¬ Denied store school other.key := by
        intro denied
        rw [deadlineRow_denied areReads _ _ denied] at dated
        cases dated
      have given : ∃ fact, store.rowOf school spec.key = some fact ∧ fact.Gives cycleYear staleDays now date := by
        cases found : store.rowOf school other.key with
        | none =>
          rw [deadlineRow_missing areReads _ _ offered found] at dated
          cases dated
        | some fact =>
          obtain ⟨isDate, isPeriod, seen⟩ := deadlineRow_row areReads (store.status school) other offered found
          obtain ⟨stored, isStored, sameText⟩ := Option.map_eq_some_iff.mp (isDate.symm.trans dated)
          rw [isoformat_inj sameText] at isStored
          exact ⟨fact, sameKey ▸ found, isStored, isPeriod.symm.trans period, seen ▸ fresh,
            exists_reads.mp ⟨reads, areReads⟩ fact (rowOf_iff.mp found).1⟩
      exact ⟨(inherits_iff isSchool isIn ownless mapped).mpr given,
        (shows date).mpr ⟨sameKey ▸ offered, given⟩⟩

def storedDate (key : String) (date : Date) (period : String) : SchoolFact where
  factKey := key
  tab := .admission
  section_ := "Deadlines"
  label := "Deadline"
  value := .dict [("kind", .str "date"), ("value", .null)]
  display := "November 1"
  unit := none
  valueType := .date
  typed := { date := some date }
  reportedPeriod := some period
  reportedPeriodYear := none
  snapshotId := 0
  snapshotSha256 := 0
  sourcePath := "admission.deadlines"
  mapperVersion := "1"

def storedFlag (key : String) (offered : Bool) : SchoolFact where
  factKey := key
  tab := .admission
  section_ := "Admissions"
  label := "Offered"
  value := .dict [("kind", .str "bool"), ("value", .null)]
  display := if offered then "Yes" else "No"
  unit := none
  valueType := .bool
  typed := { bool := some offered }
  reportedPeriod := none
  reportedPeriodYear := none
  snapshotId := 0
  snapshotSha256 := 0
  sourcePath := "admission.offered"
  mapperVersion := "1"

def sampleNow : Int := 1789862400000000
def sampleSeen : Int := sampleNow - 30 * 86400000000

def november : Date := ⟨2026, 11, 1, by decide⟩

/-- One school with an early decision date for 2026-27 and the flag of the program. -/
def sampleStore (offered : Bool) : FactsStore where
  schoolIds := [1]
  distinct := List.nodup_singleton 1
  facts _ := ⟨[⟨storedDate "deadlines.early_decision" november "2026-27", 0, none⟩,
    ⟨storedFlag "admissions.early_decision_offered" offered, 0, none⟩], by cases offered <;> decide⟩
  pages _ _ := some (some sampleSeen)
  status _ := ⟨true, fun _ => .ok⟩

def sampleCatalog : Catalog := fun unitid => if unitid = 1 then some ⟨"Alpha College", some "alpha.edu"⟩ else none

def sampleApplication : ApplicationRow := ⟨1, .ed, some 2027, none, none⟩

theorem surfaces_agree_iff_offered :
    SurfacesAgree (sampleStore true) sampleCatalog 120 sampleNow 2027 1 .ed "Early decision" .ed ↔
      Unopposed (sampleStore true) 120 sampleNow 2027 1 "deadlines.early_decision" :=
  surfaces_agree_iff (List.mem_singleton_self 1) rfl rfl rfl (by decide +kernel)

/-- With a flag that denies the program, an application still inherits the date of its row,
and the calendar shows none. -/
theorem denied_round_inherited :
    ¬ SurfacesAgree (sampleStore false) sampleCatalog 120 sampleNow 2027 1 .ed "Early decision" .ed := by
  intro agree
  have ownless : Ownless 1 .ed 2027 sampleApplication := ⟨rfl, rfl, rfl, rfl⟩
  have inherits : Inherits (sampleStore false) 120 sampleNow [sampleApplication] sampleApplication november := by
    unfold Inherits
    decide +kernel
  have empty : (schoolDeadlineCalendar (sampleStore false) sampleCatalog 2027 120 sampleNow).items = [] := by
    decide +kernel
  obtain ⟨item, isIn, -⟩ := (agree.inherits_iff _ _ (List.mem_singleton_self _) ownless november).mp inherits
  rw [empty] at isIn
  cases isIn

end Counselle.Facts
