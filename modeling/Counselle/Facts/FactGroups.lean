import Counselle.Facts.Deadlines

/-! The facts of a group of the facts page: each declared key by itself, and the two percentiles
of a test score as one band. -/
namespace Counselle.Facts
open Calendar (Date)
open PyJson (JsonValue PyFloat)

inductive FactKind where
  | scalar | link | list | table | matrix | distribution | band | ordinal
  deriving DecidableEq

/-- The value of a fact; of a band the two ends, and the scale of a score. -/
inductive FactValue where
  | null
  | num (value : PyFloat)
  | text (value : String)
  | bool (value : Bool)
  | date (value : List Char)
  | payload (value : JsonValue)
  | band (p25 p75 : JsonValue) (scale : Option (Int × Int))

structure Fact where
  key : String
  label : List Char
  tab : TabName
  state : FactState
  kind : FactKind
  display : List Char
  unit : Option String
  value : FactValue
  observedAt : Option Int
  reportedPeriod : Option String

def bandScales : List (String × (Int × Int)) := [
  ("class_profile.sat_math", 200, 800),
  ("class_profile.sat_ebrw", 200, 800),
  ("class_profile.act_composite", 1, 36)]

def notReportedDisplay : String := "Not reported"

/-- `d.get(key)`, with `None` where there is nothing. -/
def getMember (members : List (String × JsonValue)) (key : String) : JsonValue :=
  (JsonValue.get members key).getD .null

/-- `{**d, key: value}` -/
def setMember (key : String) (value : JsonValue) (members : List (String × JsonValue)) :
    List (String × JsonValue) :=
  Upsert.upsert (fun member => member.1 == key) (fun _ => (key, value)) (key, value) members

def enrichBucket : JsonValue → JsonValue
  | .dict bucket =>
    if (getMember bucket "absence").eq (.str "not_reported") then
      .dict (setMember "absence_display" (.str notReportedDisplay) bucket)
    else .dict bucket
  | other => other

def enrichOmitted : JsonValue → JsonValue
  | .list omitted => .list (omitted.map fun label => .dict [("label", label), ("display", .str notReportedDisplay)])
  | other => other

def enrichBuckets : JsonValue → JsonValue
  | .list buckets => .list (buckets.map enrichBucket)
  | other => other

/-- The words for the buckets that are not reported or left out. -/
def enrichDistribution : JsonValue → JsonValue
  | .dict payload =>
    .dict (setMember "omitted_buckets" (enrichOmitted (getMember payload "omitted_buckets"))
      (setMember "buckets" (enrichBuckets (getMember payload "buckets")) payload))
  | other => other

/-- `row.value.get("value")`, where the stored value is an object. -/
def FactValueRow.payload (row : FactValueRow) : JsonValue :=
  match row.fact.value with
  | .dict members => getMember members "value"
  | _ => .null

def payloadMember (payload : JsonValue) (key : String) : JsonValue :=
  match payload with
  | .dict members => getMember members key
  | _ => .null

def payloadValue : JsonValue → FactValue
  | .null => .null
  | payload => .payload payload

def textValue : Option String → FactValue
  | none => .null
  | some text => .text text

/-- The first typed column that is set; the date before the others. -/
def columnValue (typed : Typed) : FactValue :=
  match typed.date, typed.num, typed.text, typed.bool with
  | some date, _, _, _ => .date date.isoformat
  | none, some num, _, _ => .num num
  | none, none, some text, _ => .text text
  | none, none, none, some bool => .bool bool
  | none, none, none, none => .null

def kindAndValue (row : FactValueRow) : FactKind × FactValue :=
  match row.fact.valueType with
  | .url => (.link, textValue row.fact.typed.text)
  | .distribution => (.distribution, payloadValue (enrichDistribution row.payload))
  | .list => (.list, payloadValue row.payload)
  | .table => (.table, payloadValue row.payload)
  | .matrix => (.matrix, payloadValue row.payload)
  | .ordinal => (.ordinal, payloadValue row.payload)
  | .range => (.band, .band (payloadMember row.payload "lo") (payloadMember row.payload "hi") none)
  | _ => (.scalar, columnValue row.fact.typed)

/-- A fact for which no row is stored, or that does not show its row. -/
def absentFact (key : String) (label : List Char) (tab : TabName) (kind : FactKind) (state : FactState)
    (pageStatus : PageStatus) : Fact where
  key := key
  label := label
  tab := tab
  state := state
  kind := kind
  display := (absenceDisplay state pageStatus).toList
  unit := none
  value := .null
  observedAt := none
  reportedPeriod := none

/-- `_resolve_state`: a row that is there has a value. -/
def resolveState (row : Option FactValueRow) (pageStatus : PageStatus) (hasCollegedata : Bool) : FactState :=
  factState row.isSome true pageStatus hasCollegedata

def buildFact (spec : SectionFact) (row : Option FactValueRow) (pageStatus : PageStatus) (hasCollegedata : Bool) : Fact :=
  let state := resolveState row pageStatus hasCollegedata
  match row with
  | some row =>
    { key := spec.key
      label := spec.label.toList
      tab := spec.tab
      state := state
      kind := (kindAndValue row).1
      display := row.fact.display.toList
      unit := row.fact.unit
      value := (kindAndValue row).2
      observedAt := some row.observedAt
      reportedPeriod := row.fact.reportedPeriod }
  | none => absentFact spec.key spec.label.toList spec.tab .scalar state pageStatus

def lowerSide : List Char := ['_', 'p', '2', '5']

def upperSide : List Char := ['_', 'p', '7', '5']

def sideKey (stem : String) (side : List Char) : String := String.ofList (stem.toList ++ side)

def bandStem (key : String) : Option (String × (Int × Int)) :=
  if lowerSide.isSuffixOf key.toList then
    let stem := String.ofList (key.toList.take (key.toList.length - lowerSide.length))
    (bandScales.lookup stem).map fun scale => (stem, scale)
  else none

/-- `text.replace(needle, "")`; so many characters of a match are still to be left out. -/
def without (needle : List Char) : Nat → List Char → List Char
  | _, [] => []
  | left + 1, _ :: rest => without needle left rest
  | 0, c :: rest =>
    if needle.isPrefixOf (c :: rest) then without needle (needle.length - 1) rest else c :: without needle 0 rest

/-- `f"{x:.0f}"` -/
def wholeText : PyFloat → List Char
  | .finite q =>
    (if q < 0 then ['-'] else []) ++ (toString (Binary64.nearestEven |q|).toNat).toList
  | .infinite negative => if negative then ['-', 'i', 'n', 'f'] else ['i', 'n', 'f']
  | .nan => ['n', 'a', 'n']

def numberValue : Option PyFloat → JsonValue
  | some num => .float num
  | none => .null

/-- The stem and the scale of the band that a declared fact begins in its group. -/
def bandOf (group : List SectionFact) (spec : SectionFact) : Option (String × (Int × Int)) :=
  (bandStem spec.key).filter fun band => group.any fun other => other.key = sideKey band.1 upperSide

def bandFact (spec : SectionFact) (stem : String) (scale : Int × Int) (p25Row p75Row : Option FactValueRow)
    (pageStatus : PageStatus) (hasCollegedata : Bool) : Fact :=
  let label := PyText.strip (without " 25th percentile".toList 0 spec.label.toList)
  match p25Row, p75Row with
  | some p25, some p75 =>
    { key := stem
      label := label
      tab := spec.tab
      state := .value
      kind := .band
      display := match p25.fact.typed.num, p75.fact.typed.num with
        | some low, some high => wholeText low ++ ['-'] ++ wholeText high
        | _, _ => p25.fact.display.toList
      unit := none
      value := .band (numberValue p25.fact.typed.num) (numberValue p75.fact.typed.num) (some scale)
      observedAt := some (min p25.observedAt p75.observedAt)
      reportedPeriod := p25.fact.reportedPeriod }
  | _, _ =>
    absentFact stem label spec.tab .band (resolveState (p25Row.or p75Row) pageStatus hasCollegedata) pageStatus

theorem bandFact_key (spec : SectionFact) (stem : String) (scale : Int × Int) (p25Row p75Row : Option FactValueRow)
    (pageStatus : PageStatus) (hasCollegedata : Bool) :
    (bandFact spec stem scale p25Row p75Row pageStatus hasCollegedata).key = stem := by
  cases p25Row <;> cases p75Row <;> rfl

section
variable (group : List SectionFact) (byKey : List FactValueRow) (status : SchoolStatus)

def tryBand (spec : SectionFact) : Option (Fact × List String) :=
  (bandOf group spec).map fun (stem, scale) =>
    (bandFact spec stem scale (factOf byKey spec.key) (factOf byKey (sideKey stem upperSide))
      (status.tabs spec.tab) status.hasCollegedata, [spec.key, sideKey stem upperSide])

/-- The loop of `_group_facts`; each fact with the keys that it covers. -/
def groupFactsFrom : List SectionFact → List String → List (List String × Fact)
  | [], _ => []
  | spec :: rest, consumed =>
    if spec.key ∈ consumed then groupFactsFrom rest consumed
    else match tryBand group byKey status spec with
      | some (fact, keysUsed) => (keysUsed, fact) :: groupFactsFrom rest (consumed ++ keysUsed)
      | none => ([spec.key], buildFact spec (factOf byKey spec.key) (status.tabs spec.tab) status.hasCollegedata) ::
          groupFactsFrom rest consumed

def coveredFacts : List (List String × Fact) := groupFactsFrom group byKey status group []

def groupFacts : List Fact := (coveredFacts group byKey status).map Prod.snd

end

theorem sideKey_toList (stem : String) (side : List Char) : (sideKey stem side).toList = stem.toList ++ side :=
  String.toList_ofList

theorem bandStem_some {key stem : String} {scale : Int × Int} (band : bandStem key = some (stem, scale)) :
    key = sideKey stem lowerSide := by
  unfold bandStem at band
  split_ifs at band with suffix
  obtain ⟨found, -, same⟩ := Option.map_eq_some_iff.mp band
  obtain ⟨front, whole⟩ := List.isSuffixOf_iff_suffix.mp suffix
  cases same
  apply String.toList_injective
  rw [sideKey_toList, String.toList_ofList, ← whole]
  simp

theorem bandStem_known {key stem : String} {scale : Int × Int} (band : bandStem key = some (stem, scale)) :
    stem ∈ bandScales.map Prod.fst := by
  unfold bandStem at band
  split_ifs at band
  obtain ⟨found, known, same⟩ := Option.map_eq_some_iff.mp band
  cases same
  obtain ⟨front, back, split, -⟩ := List.lookup_eq_some_iff.mp known
  rw [split]
  simp

theorem bandStem_lower {stem : String} {scale : Int × Int} (known : bandScales.lookup stem = some scale) :
    bandStem (sideKey stem lowerSide) = some (stem, scale) := by
  have suffix : lowerSide.isSuffixOf (sideKey stem lowerSide).toList = true := by
    rw [sideKey_toList]
    exact List.isSuffixOf_iff_suffix.mpr (List.suffix_append _ _)
  unfold bandStem
  rw [if_pos suffix, sideKey_toList, List.length_append, Nat.add_sub_cancel, List.take_left, String.ofList_toList]
  dsimp only
  rw [known]
  rfl

theorem bandStem_upper (stem : String) : bandStem (sideKey stem upperSide) = none := by
  cases band : bandStem (sideKey stem upperSide) with
  | none => rfl
  | some found =>
    have same := congrArg String.toList (@bandStem_some _ found.1 found.2 band)
    rw [sideKey_toList, sideKey_toList] at same
    exact absurd (List.append_inj' same rfl).2 (by decide)

theorem sideKey_injective {stem other : String} {side : List Char} (same : sideKey stem side = sideKey other side) :
    stem = other := by
  have lists := congrArg String.toList same
  rw [sideKey_toList, sideKey_toList] at lists
  exact String.toList_injective (List.append_cancel_right lists)

variable {group : List SectionFact}

theorem bandOf_some {spec : SectionFact} {stem : String} {scale : Int × Int}
    (band : bandOf group spec = some (stem, scale)) :
    spec.key = sideKey stem lowerSide ∧ stem ∈ bandScales.map Prod.fst ∧
      ∃ upper ∈ group, upper.key = sideKey stem upperSide := by
  obtain ⟨found, any⟩ := Option.filter_eq_some_iff.mp band
  obtain ⟨upper, isIn, same⟩ := List.any_eq_true.mp any
  exact ⟨bandStem_some found, bandStem_known found, upper, isIn, of_decide_eq_true same⟩

theorem bandOf_upper {spec : SectionFact} {stem : String} (upper : spec.key = sideKey stem upperSide) :
    bandOf group spec = none := by
  rw [bandOf, upper, bandStem_upper]
  rfl

end Counselle.Facts
