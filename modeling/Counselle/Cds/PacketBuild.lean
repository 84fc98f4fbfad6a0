import Counselle.Cds.Manifest
import Counselle.PyJsonText
import Mathlib.Data.List.Sort

/-! The packet of one domain, `packet_build.py`: findings become claims, and the claims of
a metric one outcome. -/
namespace Counselle.Cds
open PyJson (JsonValue PyFloat)
open PyJson.JsonValue (get)
open PyText (PyError strip isSpace)

inductive AvailabilityStatus where
  | reported
  | notReported
  | notApplicable
  | suppressed
  | notInTemplateVersion
  deriving DecidableEq

def AvailabilityStatus.name : AvailabilityStatus → String
  | .reported => "reported"
  | .notReported => "not_reported"
  | .notApplicable => "not_applicable"
  | .suppressed => "suppressed"
  | .notInTemplateVersion => "not_in_template_version"

inductive ExtractionStatus where
  | verified
  | notExtracted
  | conflict
  | invalid
  deriving DecidableEq

/-- A schema-valid claim of the model; `None` is `null`. -/
structure Finding where
  metricId : String
  availabilityStatus : AvailabilityStatus
  value : JsonValue
  rawValue : Option String
  pageNumber : Int
  section_ : Option String
  rowLabel : Option String
  columnLabel : Option String
  excerpt : String
  onPage : 1 ≤ pageNumber
  solid : isBlank excerpt = false

structure Evidence where
  pageNumber : Int
  excerpt : String
  section_ : Option String
  rowLabel : Option String
  columnLabel : Option String
  deriving DecidableEq

structure PacketMetric where
  availabilityStatus : Option AvailabilityStatus
  extractionStatus : ExtractionStatus
  value : JsonValue
  rawValue : Option String
  evidence : Option Evidence
  diagnosticCode : Option String

structure PacketCounts where
  verified : Nat
  notExtracted : Nat
  conflict : Nat
  invalid : Nat
  deriving DecidableEq

inductive PacketStatus where
  | validated
  | partial_
  deriving DecidableEq

structure Packet where
  documentSha256 : String
  academicYear : Int
  extractionId : String
  manifestVersion : String
  domainId : String
  domainSchemaHash : String
  extractorVersion : String
  modelId : String
  metrics : List (String × PacketMetric)
  providerContract : List (String × JsonValue)
  counts : PacketCounts
  status : PacketStatus

inductive BuildError where
  | zeroVerified (domainId : String) (counts : PacketCounts)
  | raised (error : PyError)
  deriving DecidableEq

/-- `d[key]` -/
def item (members : List (String × JsonValue)) (key : String) : Except PyError JsonValue :=
  match get members key with
  | some value => .ok value
  | none => .error .keyError

def isText (value : JsonValue) (text : String) : Bool :=
  match value with
  | .str other => other = text
  | _ => false

/-- `needle in value` -/
def pyIn (needle : String) : JsonValue → Except PyError Bool
  | .list items => .ok (items.any fun item => isText item needle)
  | .str text => .ok (text.toList.tails.any fun tail => needle.toList.isPrefixOf tail)
  | .dict members => .ok (members.any fun member => member.1 = needle)
  | _ => .error .typeError

def isNull : JsonValue → Bool
  | .null => true
  | _ => false

def typedInteger : JsonValue → Option JsonValue
  | .int n => some (.int n)
  | .float (.finite q) => if q.den = 1 then some (.int q.num) else none
  | _ => none

def typedNumber : JsonValue → Option JsonValue
  | .int n => some (.int n)
  | .float q => some (.float q)
  | _ => none

def typedString : JsonValue → Option JsonValue
  | .str text => if isBlank text then none else some (.str text)
  | _ => none

def typedBoolean : JsonValue → Option JsonValue
  | .bool b => some (.bool b)
  | _ => none

def typedEnum (enums : JsonValue) : JsonValue → Except PyError (Option JsonValue)
  | .str text =>
    let stripped := String.ofList (strip text.toList)
    (pyIn stripped enums).map fun isIn => if isIn then some (.str stripped) else none
  | _ => .ok none

def typedAs (metricType : JsonValue) (metric : List (String × JsonValue)) (value : JsonValue) :
    Except PyError (Option JsonValue) :=
  if isText metricType "integer" then .ok (typedInteger value)
  else if isText metricType "number" then .ok (typedNumber value)
  else if isText metricType "string" then .ok (typedString value)
  else if isText metricType "boolean" then .ok (typedBoolean value)
  else if isText metricType "enum" then typedEnum ((get metric "enums").getD (.list [])) value
  else .ok none

def typedValue (finding : Finding) (metric : List (String × JsonValue)) :
    Except PyError (Except String JsonValue) :=
  if finding.availabilityStatus ≠ .reported then .ok (.ok .null)
  else do
    let metricType ← item metric "type"
    let typed ← typedAs metricType metric finding.value
    .ok (match typed with
      | some value => .ok value
      | none => .error "type_mismatch")

/-- `<` of two texts, by code points. -/
def textLess : List Char → List Char → Bool
  | _, [] => false
  | [], _ :: _ => true
  | a :: as, b :: bs => a.toNat < b.toNat || a.toNat = b.toNat && textLess as bs

mutual
/-- `json.dumps(value, sort_keys=True, separators=(",", ":"))` of a value without an integer
that is too long to write. -/
def compact : JsonValue → List Char
  | .null => "null".toList
  | .bool b => (if b then "true" else "false").toList
  | .int n => PyJson.intRepr n
  | .float q => PyJson.dumpFloat q
  | .str text => PyJson.dumpText text
  | .list items => '[' :: ([','].intercalate (compactItems items) ++ [']'])
  | .dict members =>
    let entries := (compactEntries members).insertionSort fun a b => textLess b.1.toList a.1.toList = false
    '{' :: ([','].intercalate (entries.map fun entry => PyJson.dumpText entry.1 ++ ':' :: entry.2) ++ ['}'])

def compactItems : List JsonValue → List (List Char)
  | [] => []
  | value :: rest => compact value :: compactItems rest

def compactEntries : List (String × JsonValue) → List (String × List Char)
  | [] => []
  | (key, value) :: rest => (key, compact value) :: compactEntries rest
end

mutual
/-- An integer of more than 4300 digits, which `int.__repr__` refuses. -/
def hasLongInt : JsonValue → Bool
  | .int n => PyText.maxStrDigits < (Nat.toDigits 10 n.natAbs).length
  | .list items => anyLongInt items
  | .dict members => anyLongMember members
  | _ => false

def anyLongInt : List JsonValue → Bool
  | [] => false
  | value :: rest => hasLongInt value || anyLongInt rest

def anyLongMember : List (String × JsonValue) → Bool
  | [] => false
  | (_, value) :: rest => hasLongInt value || anyLongMember rest
end

def dumpsSorted (value : JsonValue) : Except PyError (List Char) :=
  if hasLongInt value then .error .valueError else .ok (compact value)

/-- `Decimal(str(value))` of a finite float. -/
def decimalOfRepr (q : ℚ) : ℚ :=
  if q = 0 then 0
  else
    let (value, power) := PyNumber.shortest |q|
    (if q < 0 then -1 else 1) * (value * 10 ^ power)

inductive SemanticKey where
  | none
  | boolean (value : Bool)
  | number (value : ℚ)
  | infinite (negative : Bool)
  | nan
  | string (words : List (List Char))
  | json (text : List Char)
  deriving DecidableEq

def semanticValueKey : JsonValue → Except PyError SemanticKey
  | .null => .ok .none
  | .bool b => .ok (.boolean b)
  | .int n => .ok (.number n)
  | .float (.finite q) => .ok (.number (decimalOfRepr q))
  | .float (.infinite negative) => .ok (.infinite negative)
  | .float .nan => .ok .nan
  | .str text => .ok (.string ((text.toList.splitOnP isSpace).filter (!·.isEmpty)))
  | value => (dumpsSorted value).map .json

abbrev OutcomeKey : Type := Option AvailabilityStatus × SemanticKey

/-- `==` of two outcomes: no NaN is equal to another. -/
def sameOutcome (a b : OutcomeKey) : Bool := a = b && a.2 ≠ .nan

def distinctOutcomes (outcomes : List OutcomeKey) : List OutcomeKey :=
  outcomes.foldl (fun seen outcome => if seen.any (sameOutcome outcome) then seen else seen ++ [outcome]) []

def textValue : Option String → JsonValue
  | some text => .str text
  | none => .null

def Evidence.json (evidence : Evidence) : JsonValue :=
  .dict [("page_number", .int evidence.pageNumber), ("excerpt", .str evidence.excerpt),
    ("section", textValue evidence.section_), ("row_label", textValue evidence.rowLabel),
    ("column_label", textValue evidence.columnLabel)]

structure Claim where
  availabilityStatus : AvailabilityStatus
  value : JsonValue
  rawValue : Option String
  evidence : Evidence

def Claim.metric (claim : Claim) : PacketMetric where
  availabilityStatus := some claim.availabilityStatus
  extractionStatus := .verified
  value := claim.value
  rawValue := claim.rawValue
  evidence := some claim.evidence
  diagnosticCode := none

def Claim.json (claim : Claim) : JsonValue :=
  .dict [("availability_status", .str claim.availabilityStatus.name), ("extraction_status", .str "verified"),
    ("value", claim.value), ("raw_value", textValue claim.rawValue), ("evidence", claim.evidence.json)]

/-- The page, the text of the evidence and the text of the claim. -/
abbrev ClaimKey : Type := Int × List Char × List Char

def ClaimKey.less (a b : ClaimKey) : Bool :=
  a.1 < b.1 || a.1 = b.1 && (textLess a.2.1 b.2.1 || a.2.1 = b.2.1 && textLess a.2.2 b.2.2)

def Claim.key (claim : Claim) : Except PyError ClaimKey := do
  let evidence ← dumpsSorted claim.evidence.json
  let text ← dumpsSorted claim.json
  .ok (claim.evidence.pageNumber, evidence, text)

/-- `min` of a list: the first item that no other is less than. -/
def pyMin {A : Type} (less : A → A → Bool) : List A → Option A
  | [] => none
  | first :: rest => some (rest.foldl (fun best next => if less next best then next else best) first)

def earliest (keyed : List (ClaimKey × Claim)) : Option Claim :=
  (pyMin (fun a b => a.1.less b.1) keyed).map Prod.snd

def unclaimed (status : ExtractionStatus) (diagnosticCode : Option String) : PacketMetric where
  availabilityStatus := none
  extractionStatus := status
  value := .null
  rawValue := none
  evidence := none
  diagnosticCode := diagnosticCode

def Claim.outcome (claim : Claim) : Except PyError OutcomeKey :=
  (semanticValueKey claim.value).map fun key => (some claim.availabilityStatus, key)

def metricOutcome (claims : List Claim) (errors : List String) : Except PyError PacketMetric := do
  let outcomes ← claims.mapM Claim.outcome
  match (distinctOutcomes outcomes).length with
  | 0 => .ok (match errors with
    | [] => unclaimed .notExtracted none
    | code :: _ => unclaimed .invalid (some code))
  | 1 => do
    let keyed ← claims.mapM fun claim => claim.key.map fun key => (key, claim)
    .ok (match earliest keyed with
      | some claim => claim.metric
      | none => unclaimed .notExtracted none)
  | _ => .ok (unclaimed .conflict none)

def claimFromFinding (finding : Finding) (value : JsonValue) : Claim where
  availabilityStatus := finding.availabilityStatus
  value := if finding.availabilityStatus = .reported then value else .null
  rawValue := finding.rawValue
  evidence := ⟨finding.pageNumber, finding.excerpt, finding.section_, finding.rowLabel, finding.columnLabel⟩

def orError {A : Type} (error : PyError) : Option A → Except PyError A
  | some a => .ok a
  | none => .error error

/-- `metric["id"]` with its metric. -/
def metricDefinition (rawMetric : JsonValue) : Except PyError (String × List (String × JsonValue)) := do
  let metric ← orError .typeError (asDict rawMetric)
  let id ← item metric "id"
  let id ← orError .typeError (asText id)
  .ok (id, metric)

def hasId (domainId : String) (rawDomain : JsonValue) : Bool :=
  ((asDict rawDomain).bind (get · "id")).any fun id => isText id domainId

/-- The metrics of a domain under their ids, as `domain_metric_definitions` looks them up. -/
def domainMetricDefinitions (content : JsonValue) (domainId : String) :
    Except PyError (List (String × List (String × JsonValue))) := do
  let members ← orError .typeError (asDict content)
  let domains ← item members "domains"
  let domains ← orError .typeError (asList domains)
  let domain ← orError .valueError (domains.find? (hasId domainId))
  let domain ← orError .typeError (asDict domain)
  let metrics ← item domain "metrics"
  let metrics ← orError .typeError (asList metrics)
  let definitions ← metrics.mapM metricDefinition
  .ok (Upsert.dictOf Prod.fst definitions)

/-- What `_collect_claims` does with a finding about a metric: nothing, a rejection with
its code, or a claim. -/
def collectClaim (finding : Finding) (metric : List (String × JsonValue)) (documentPageCount : Int) :
    Except PyError (Option (String ⊕ Claim)) := do
  match finding.availabilityStatus with
  | .notReported => .ok none
  | status =>
    if status = .notInTemplateVersion && (!isNull finding.value || finding.rawValue.isSome) then
      .ok (some (.inl "template_absence_has_value"))
    else if documentPageCount < finding.pageNumber then .ok (some (.inl "page_not_in_document"))
    else
      let typed ← typedValue finding metric
      match typed with
      | .error code => .ok (some (.inl code))
      | .ok value => .ok (some (.inr (claimFromFinding finding value)))

def collectFinding (finding : Finding) (domainMetrics : List (String × List (String × JsonValue)))
    (allowedMetricIds : List String) (documentPageCount : Int) : Except PyError (Option (String ⊕ Claim)) :=
  match domainMetrics.lookup finding.metricId with
  | some metric =>
    if allowedMetricIds.contains finding.metricId then collectClaim finding metric documentPageCount
    else .ok none
  | none => .ok none

/-- The verdicts on the findings of the domain, each with the id of its metric. -/
def collectClaims (findings : List Finding) (domainMetrics : List (String × List (String × JsonValue)))
    (allowedMetricIds : List String) (documentPageCount : Int) :
    Except PyError (List (String × (String ⊕ Claim))) :=
  match findings with
  | [] => .ok []
  | finding :: rest => do
    let verdict ← collectFinding finding domainMetrics allowedMetricIds documentPageCount
    let later ← collectClaims rest domainMetrics allowedMetricIds documentPageCount
    .ok (match verdict with
      | some verdict => (finding.metricId, verdict) :: later
      | none => later)

def claimsOf (verdicts : List (String × (String ⊕ Claim))) (metricId : String) : List Claim :=
  verdicts.filterMap fun verdict => if verdict.1 = metricId then verdict.2.getRight? else none

def errorsOf (verdicts : List (String × (String ⊕ Claim))) (metricId : String) : List String :=
  verdicts.filterMap fun verdict => if verdict.1 = metricId then verdict.2.getLeft? else none

/-- One outcome, or the prior one of a metric that nothing touched. -/
def resolveMetric (verdicts : List (String × (String ⊕ Claim)))
    (baseMetrics : Option (List (String × PacketMetric))) (metricId : String) :
    Except PyError PacketMetric :=
  let claims := claimsOf verdicts metricId
  let errors := errorsOf verdicts metricId
  match claims.isEmpty && errors.isEmpty, baseMetrics.bind (·.lookup metricId) with
  | true, some inherited => .ok inherited
  | _, _ => metricOutcome claims errors

def countsOf (metrics : List (String × PacketMetric)) : PacketCounts where
  verified := metrics.countP fun metric => metric.2.extractionStatus = .verified
  notExtracted := metrics.countP fun metric => metric.2.extractionStatus = .notExtracted
  conflict := metrics.countP fun metric => metric.2.extractionStatus = .conflict
  invalid := metrics.countP fun metric => metric.2.extractionStatus = .invalid

def packetStatus (metrics : List (String × PacketMetric)) (counts : PacketCounts) : PacketStatus :=
  if counts.verified = metrics.length ∧ metrics ≠ [] then .validated else .partial_

def raising {A : Type} : Except PyError A → Except BuildError A
  | .ok a => .ok a
  | .error error => .error (.raised error)

/-- The arguments of `build_packet`. Digests are given as their hexadecimal text. -/
structure BuildArgs where
  manifestContent : JsonValue
  domainHashes : List (String × String)
  domainId : String
  findings : List Finding
  providerContract : List (String × JsonValue)
  documentPageCount : Int
  documentSha256 : String
  academicYear : Int
  extractionId : String
  manifestVersion : String
  modelId : String
  extractorVersion : String
  allowedMetricIds : Option (List String)
  baseMetrics : Option (List (String × PacketMetric))

def buildPacket (args : BuildArgs) : Except BuildError Packet := do
  let domainMetrics ← raising (domainMetricDefinitions args.manifestContent args.domainId)
  let allowed := args.allowedMetricIds.getD (domainMetrics.map Prod.fst)
  let verdicts ← raising (collectClaims args.findings domainMetrics allowed args.documentPageCount)
  let metrics ← raising (domainMetrics.mapM fun metric =>
    (resolveMetric verdicts args.baseMetrics metric.1).map fun outcome => (metric.1, outcome))
  let counts := countsOf metrics
  if counts.verified = 0 then .error (.zeroVerified args.domainId counts)
  else match args.domainHashes.lookup args.domainId with
    | none => .error (.raised .keyError)
    | some domainSchemaHash => .ok {
        documentSha256 := args.documentSha256
        academicYear := args.academicYear
        extractionId := args.extractionId
        manifestVersion := args.manifestVersion
        domainId := args.domainId
        domainSchemaHash := domainSchemaHash
        extractorVersion := args.extractorVersion
        modelId := args.modelId
        metrics := metrics
        providerContract := args.providerContract
        counts := counts
        status := packetStatus metrics counts }

end Counselle.Cds
