import Counselle.Cds.Manifest

/-! The authoring files of the manifest, `manifest_types.py`: what the models accept of a
loaded mapping. A mapping is the list of its entries, with distinct keys. -/
namespace Counselle.Cds.Authoring
open PyJson (JsonValue)
open PyJson.JsonValue (get)

def isLetter (c : Char) : Bool := 'a' ≤ c && c ≤ 'z'

/-- `_ID.fullmatch(text)` -/
def isIdText : List Char → Bool
  | [] => false
  | first :: rest => isLetter first && rest.all fun c => isLetter c || c.isDigit || c = '_'

def isId (text : String) : Bool := isIdText text.toList

/-- `_FULL_METRIC_ID.fullmatch(text)` -/
def isFullMetricId (text : String) : Bool :=
  isIdText (text.toList.takeWhile (· ≠ '.')) && isIdText ((text.toList.dropWhile (· ≠ '.')).drop 1)

abbrev StableId : Type := {text : String // isId text = true}

abbrev Reference : Type := {text : String // (isId text || isFullMetricId text) = true}

abbrev SolidText : Type := {text : String // isBlank text = false}

abbrev Word (vocabulary : List String) : Type := {text : String // text ∈ vocabulary}

def periodKinds : List String :=
  ["academic_year", "admission_cycle", "aid_year", "cohort_year", "cost_year", "degree_window", "document",
    "fall_term", "policy", "reporting_cycle"]

def formulaOperations : List String :=
  ["ratio", "sum", "difference"]

def units : List String :=
  ["academic_year", "applicants", "awards", "boolean", "carnegie_units", "category", "count", "credits",
    "date", "email", "faculty", "gpa", "percent", "ratio", "score", "sections", "source_unit_value",
    "students", "text", "url", "usd", "weeks", "years"]

def populations : List String :=
  ["aided_undergraduates", "all_or_most_students", "all_students", "all_students_full_time",
    "all_students_part_time", "all_undergraduates", "bachelors_cohort_neither_pell_nor_subsidized_stafford",
    "bachelors_cohort_pell_grant", "bachelors_cohort_subsidized_stafford_no_pell", "conferred_majors",
    "degree_seeking_nonresident_undergraduates", "degree_seeking_undergraduates",
    "domestic_first_year_aid_applicants", "enrolled_first_time_first_year",
    "enrolled_first_time_first_year_act_submitters", "enrolled_first_time_first_year_gpa_reported",
    "enrolled_first_time_first_year_rank_reported", "enrolled_first_time_first_year_sat_submitters",
    "enrolled_undergraduates", "first_time_bachelors_graduates", "first_time_first_year",
    "first_time_first_year_men", "first_time_first_year_waitlist", "first_time_first_year_women",
    "first_time_full_time_bachelors_cohort", "first_time_part_time_bachelors_cohort",
    "first_time_undergraduate", "first_year_students", "first_year_undergraduates",
    "full_time_first_year_undergraduates", "full_time_undergraduates", "graduate", "graduate_full_time",
    "graduate_part_time", "institution", "incoming_students", "institutional_aid_applicants",
    "instructional_faculty", "less_than_full_time_undergraduates", "nonresident_first_year_aid_applicants",
    "prospective_undergraduate", "student_faculty_ratio_instructional_faculty",
    "student_faculty_ratio_students", "transfer", "two_year_cohort", "undergraduate",
    "undergraduate_class_sections", "undergraduate_class_subsections", "undergraduate_commuter_at_home",
    "undergraduate_commuter_not_at_home", "undergraduate_institution", "undergraduate_on_campus",
    "undergraduates", "undergraduate_part_time"]

def denominators : List String :=
  ["academic_year", "act_composite_submitters", "act_english_submitters", "act_math_submitters",
    "act_reading_submitters", "act_science_submitters", "act_writing_submitters", "adjusted_cohort",
    "admitted_total", "any_aid_recipients", "applicants_total", "application", "associate_conferred_majors",
    "bachelors_conferred_majors", "class_sections", "cohort", "credit", "demonstrated_need",
    "diploma_certificate_conferred_majors", "domestic_enrolled_students", "enrolled_students",
    "full_time_equivalent_faculty", "full_time_undergraduates", "gpa_reported_students",
    "gpa_reported_test_score_nonsubmitters", "gpa_reported_test_score_submitters",
    "institutional_athletic_grant_recipients", "graduating_class_first_time_bachelors_count",
    "loan_borrowers", "men_enrolled", "need_based_aid_recipients", "need_based_grant_recipients",
    "need_based_loan_recipients", "need_based_self_help_recipients",
    "no_need_institutional_grant_recipients", "non_need_based_aid_recipients", "none",
    "nonresident_institutional_aid_recipients", "rank_reported_students", "sat_composite_submitters",
    "sat_ebrw_submitters", "sat_math_submitters", "term", "waitlist_accepted", "waitlist_total",
    "women_enrolled"]

def definitionVariants : List String :=
  ["availability", "average", "capacity", "deadline", "derived", "estimated", "maximum", "minimum",
    "percentile_25", "percentile_50", "percentile_75", "policy", "printed", "published", "rate",
    "recommended", "reported", "required", "selected", "selected_list", "share", "total"]

def asId : JsonValue → Option StableId
  | .str text => if stable : isId text = true then some ⟨text, stable⟩ else none
  | _ => none

def asReference : JsonValue → Option Reference
  | .str text => if stable : (isId text || isFullMetricId text) = true then some ⟨text, stable⟩ else none
  | _ => none

def asSolid : JsonValue → Option SolidText
  | .str text => if solid : isBlank text = false then some ⟨text, solid⟩ else none
  | _ => none

def asWord (vocabulary : List String) : JsonValue → Option (Word vocabulary)
  | .str text => if known : text ∈ vocabulary then some ⟨text, known⟩ else none
  | _ => none

def asItems {A : Type} (read : JsonValue → Option A) (value : JsonValue) : Option (List A) :=
  (asList value).bind (·.mapM read)

def field {A : Type} (members : List (String × JsonValue)) (key : String) (read : JsonValue → Option A) :
    Option A :=
  (get members key).bind read

/-- A field of type `T | None` with the default `None`. -/
def optionalField {A : Type} (members : List (String × JsonValue)) (key : String)
    (read : JsonValue → Option A) : Option (Option A) :=
  match get members key with
  | none | some .null => some none
  | some value => (read value).map some

def defaultField {A : Type} (members : List (String × JsonValue)) (key : String) (default : A)
    (read : JsonValue → Option A) : Option A :=
  match get members key with
  | none => some default
  | some value => read value

/-- `extra="forbid"` -/
def knows (keys : List String) (members : List (String × JsonValue)) : Bool :=
  members.all fun member => keys.contains member.1

/-- A `bool` field takes the numbers and the words of truth as well. -/
def asBool : JsonValue → Option Bool
  | .bool b => some b
  | .int n => if n = 0 then some false else if n = 1 then some true else none
  | .float (.finite q) => if q = 0 then some false else if q = 1 then some true else none
  | .str text =>
    if ["true", "t", "yes", "y", "on", "1"].contains text.toLower then some true
    else if ["false", "f", "no", "n", "off", "0"].contains text.toLower then some false
    else none
  | _ => none

structure Formula where
  operation : Word formulaOperations
  inputs : List Reference

def validateFormula (value : JsonValue) : Option Formula := do
  let members ← asDict value
  if !knows ["operation", "inputs"] members then none
  else
    let operation ← field members "operation" (asWord formulaOperations)
    let inputs ← field members "inputs" (asItems asReference)
    if inputs.length < 2 then none else some ⟨operation, inputs⟩

def metricKeys : List String :=
  ["id", "title", "description", "type", "unit", "population", "denominator", "definition_variant",
    "period_kind", "source_hints", "instructions", "enums", "formula"]

/-- A metric as it is authored: the mapping, and what the model reads in it. -/
structure Metric where
  members : List (String × JsonValue)
  id : StableId
  title : Option String
  description : SolidText
  type : ValueType
  unit : Word units
  population : Word populations
  denominator : Word denominators
  definitionVariant : Word definitionVariants
  periodKind : Word periodKinds
  sourceHints : List SolidText
  instructions : SolidText
  enums : Option (List String)
  formula : Option Formula

def enumsMatchType (type : ValueType) : Option (List String) → Bool
  | some enums => type = .enum && !enums.isEmpty && enums.all isId && enums.dedup.length = enums.length
  | none => type ≠ .enum

def validateMetric (value : JsonValue) : Option Metric := do
  let members ← asDict value
  if !knows metricKeys members then none
  else
    let id ← field members "id" asId
    let title ← optionalField members "title" asText
    let description ← field members "description" asSolid
    let type ← field members "type" asType
    let unit ← field members "unit" (asWord units)
    let population ← field members "population" (asWord populations)
    let denominator ← field members "denominator" (asWord denominators)
    let definitionVariant ← field members "definition_variant" (asWord definitionVariants)
    let periodKind ← field members "period_kind" (asWord periodKinds)
    let sourceHints ← field members "source_hints" (asItems asSolid)
    let instructions ← field members "instructions" asSolid
    let enums ← optionalField members "enums" (asItems asText)
    let formula ← optionalField members "formula" validateFormula
    if sourceHints.isEmpty || !enumsMatchType type enums then none
    else some ⟨members, id, title, description, type, unit, population, denominator, definitionVariant,
      periodKind, sourceHints, instructions, enums, formula⟩

inductive Selector where
  | sourceHints
  | metricIds
  | metricIdPrefixes
  | periodKinds
  deriving DecidableEq

def Selector.key : Selector → String
  | .sourceHints => "source_hints"
  | .metricIds => "metric_ids"
  | .metricIdPrefixes => "metric_id_prefixes"
  | .periodKinds => "period_kinds"

def selectors : List Selector := [.sourceHints, .metricIds, .metricIdPrefixes, .periodKinds]

/-- The selectors with a value, in the order of the mapping. -/
structure ContextTargets where
  all : Option Bool
  selectors : List (Selector × List String)

def validateSelector (selector : Selector) (value : JsonValue) : Option (List String) :=
  match selector with
  | .periodKinds => (asItems (asWord periodKinds) value).map (·.map Subtype.val)
  | _ => asItems asText value

/-- One entry of the targets: `all`, a selector without a value, or a selector. -/
def validateTarget (member : String × JsonValue) : Option (Option (Selector × List String)) :=
  if member.1 = "all" then some none
  else
    (selectors.find? (·.key = member.1)).bind fun selector =>
      match member.2 with
      | .null => some none
      | value => (validateSelector selector value).map fun values => some (selector, values)

def isUnique (values : List String) : Bool := !values.isEmpty && values.dedup.length = values.length

def validateTargets (value : JsonValue) : Option ContextTargets := do
  let members ← asDict value
  let all ← optionalField members "all" asBool
  let entries ← members.mapM validateTarget
  let selectors := entries.filterMap id
  let exclusive := match all with
    | some true => selectors.isEmpty
    | some false => false
    | none => selectors.any fun entry => !entry.2.isEmpty
  if exclusive && selectors.all fun entry => isUnique entry.2 then some ⟨all, selectors⟩ else none

structure ContextBinding where
  id : StableId
  label : SolidText
  binders : List Reference
  targets : ContextTargets
  bound : binders ≠ []

def validateBinding (value : JsonValue) : Option ContextBinding := do
  let members ← asDict value
  if !knows ["id", "label", "binders", "targets"] members then none
  else
    let id ← field members "id" asId
    let label ← field members "label" asSolid
    let binders ← field members "binders" (asItems asReference)
    let targets ← field members "targets" validateTargets
    if bound : binders ≠ [] then
      if isUnique (binders.map Subtype.val) then some ⟨id, label, binders, targets, bound⟩ else none
    else none

structure Domain where
  id : StableId
  title : SolidText
  metrics : List Metric
  contextBindings : List ContextBinding
  distinct : (metrics.map (·.id)).Nodup

def validateDomain (members : List (String × JsonValue)) : Option Domain := do
  if !knows ["id", "title", "metrics", "context_bindings"] members then none
  else
    let id ← field members "id" asId
    let title ← field members "title" asSolid
    let metrics ← field members "metrics" (asItems validateMetric)
    let contextBindings ← defaultField members "context_bindings" [] (asItems validateBinding)
    if metrics.isEmpty then none
    else if distinct : (metrics.map (·.id)).Nodup then some ⟨id, title, metrics, contextBindings, distinct⟩
    else none

structure RootManifest where
  version : SolidText
  description : SolidText
  extractionGroups : List (List String)
  pageRoutingEnabled : Bool

def rootKeys : List String := ["version", "description", "extraction_groups", "page_routing_enabled"]

def validateRoot (members : List (String × JsonValue)) : Option RootManifest := do
  if !knows rootKeys members then none
  else
    let version ← field members "version" asSolid
    let description ← field members "description" asSolid
    let extractionGroups ← field members "extraction_groups" (asItems (asItems asText))
    let pageRoutingEnabled ← field members "page_routing_enabled" asBool
    if extractionGroups.isEmpty || extractionGroups.any (·.isEmpty) then none
    else some ⟨version, description, extractionGroups, pageRoutingEnabled⟩

end Counselle.Cds.Authoring
