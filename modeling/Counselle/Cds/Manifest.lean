import Counselle.Fallible
import Counselle.PyJson
import Counselle.PyText

/-! The compiled manifest of the CDS reader, `compile_manifest`: what it takes from the
stored JSON, and what it refuses. A dict is the list of its entries, with distinct keys. -/
namespace Counselle.Cds
open PyJson (JsonValue)
open PyJson.JsonValue (get)
open PyText (PyError strip)

inductive ValueType where
  | integer
  | number
  | string
  | boolean
  | enum
  deriving DecidableEq

structure ManifestContext where
  id : String
  label : String
  refs : List String
  deriving DecidableEq

structure ManifestMetric where
  ref : String
  description : String
  type : ValueType
  unit : Option String
  population : Option String
  denominator : Option String
  definitionVariant : Option String
  periodKind : Option String
  sourceHints : List String
  contexts : List ManifestContext
  deriving DecidableEq

structure ManifestDomain where
  id : String
  title : String
  schemaHash : String
  metrics : List ManifestMetric
  deriving DecidableEq

structure ManifestSnapshot where
  version : String
  domains : List ManifestDomain
  deriving DecidableEq

inductive ManifestError where
  | service (message : String)
  /-- An exception that `compile_manifest` does not catch. -/
  | escaped (error : PyError)
  deriving DecidableEq

def isBlank (text : String) : Bool := strip text.toList = []

def solidText : JsonValue → Option String
  | .str text => if isBlank text then none else some text
  | _ => none

def asText : JsonValue → Option String
  | .str text => some text
  | _ => none

def asDict : JsonValue → Option (List (String × JsonValue))
  | .dict members => some members
  | _ => none

def asList : JsonValue → Option (List JsonValue)
  | .list items => some items
  | _ => none

/-- What a `for` over the value takes: of a text its characters, of a dict its keys. -/
def iterate : JsonValue → Except ManifestError (List JsonValue)
  | .list items => .ok items
  | .str text => .ok (text.toList.map fun c => .str (String.singleton c))
  | .dict members => .ok (members.map fun member => .str member.1)
  | _ => .error (.escaped .typeError)

/-- A field of type `str | None` with the default `None`. -/
def optionalText (members : List (String × JsonValue)) (key : String) : Option (Option String) :=
  match get members key with
  | none | some .null => some none
  | some (.str text) => some (some text)
  | some _ => none

def ValueType.name : ValueType → String
  | .integer => "integer"
  | .number => "number"
  | .string => "string"
  | .boolean => "boolean"
  | .enum => "enum"

def asType : JsonValue → Option ValueType
  | .str text => [ValueType.integer, .number, .string, .boolean, .enum].find? (·.name = text)
  | _ => none

def require {A : Type} (message : String) : Option A → Except ManifestError A
  | some a => .ok a
  | none => .error (.service message)

def orRaise {A : Type} (error : PyError) : Option A → Except ManifestError A
  | some a => .ok a
  | none => .error (.escaped error)

def refuseIf (condition : Bool) (message : String) : Except ManifestError Unit :=
  if condition then .error (.service message) else .ok ()

/-- `text.startswith(f"{domain_id}.") and text.count(".") == 1` -/
def isRefOf (domainId text : String) : Bool :=
  (domainId ++ ".").toList.isPrefixOf text.toList && text.toList.count '.' = 1

/-- `ManifestContext.model_validate` -/
def validateContext (item : JsonValue) : Option ManifestContext := do
  let members ← asDict item
  if members.any fun member => member.1 ∉ ["id", "label", "refs"] then none
  else
    let id ← (get members "id").bind asText
    let label ← (get members "label").bind asText
    let refs ← (get members "refs").bind asList
    let refs ← refs.mapM asText
    some ⟨id, label, refs⟩

def contextIsEmpty (domainId : String) (context : ManifestContext) : Bool :=
  !isRefOf domainId context.id || isBlank context.label || context.refs.isEmpty ||
    context.refs.dedup.length ≠ context.refs.length

/-- The constructor of `ManifestMetric`; `none` is a `KeyError` or a `ValidationError`. -/
def buildMetric (ref : String) (members : List (String × JsonValue)) (hints : List JsonValue)
    (contexts : List ManifestContext) : Option ManifestMetric := do
  let description ← (get members "description").bind asText
  let type ← (get members "type").bind asType
  let unit ← optionalText members "unit"
  let population ← optionalText members "population"
  let denominator ← optionalText members "denominator"
  let definitionVariant ← optionalText members "definition_variant"
  let periodKind ← optionalText members "period_kind"
  let sourceHints ← hints.mapM asText
  some ⟨ref, description, type, unit, population, denominator, definitionVariant, periodKind,
    sourceHints, contexts⟩

def compileMetric (domainId : String) (seenRefs : List String) (rawMetric : JsonValue) :
    Except ManifestError ManifestMetric := do
  let members ← require "Manifest contains an invalid metric definition." (asDict rawMetric)
  let ref ← require "Manifest contains an invalid metric identifier."
    ((get members "id").bind solidText)
  refuseIf (seenRefs.contains ref || !isRefOf domainId ref)
    "Manifest metric references are invalid or duplicated."
  let items ← iterate ((get members "contexts").getD (.list []))
  let contexts ← require "Manifest contains an invalid compiled context."
    (items.mapM validateContext)
  refuseIf (contexts.any (contextIsEmpty domainId)) "Manifest contains an empty compiled context."
  refuseIf ((contexts.map (·.id)).dedup.length ≠ contexts.length)
    "Manifest contains a duplicate compiled context."
  refuseIf ((get members "description").isNone || (get members "type").isNone)
    "Manifest contains an invalid metric definition."
  let hints ← iterate ((get members "source_hints").getD (.list []))
  let metric ← require "Manifest contains an invalid metric definition."
    (buildMetric ref members hints contexts)
  refuseIf (isBlank metric.description || metric.sourceHints.any isBlank)
    "Manifest contains an invalid metric definition."
  .ok metric

/-- The metrics of a domain, and the references seen behind them. -/
def compileMetrics (domainId : String) :
    List JsonValue → List String → Except ManifestError (List ManifestMetric × List String)
  | [], seenRefs => .ok ([], seenRefs)
  | rawMetric :: rest, seenRefs => do
    let metric ← compileMetric domainId seenRefs rawMetric
    let (metrics, seenRefs) ← compileMetrics domainId rest (metric.ref :: seenRefs)
    .ok (metric :: metrics, seenRefs)

def hexDigits : List Char := "0123456789abcdefABCDEF".toList

/-- `_manifest_hash` of a value of the JSON column. -/
def manifestHash : Option JsonValue → Except ManifestError String
  | none | some .null => .ok ""
  | some (.str text) =>
    if text.toList.length = 64 && text.toList.all fun c => hexDigits.contains c then .ok text.toLower
    else .error (.service "Manifest contains an invalid domain hash.")
  | some _ => .error (.service "Manifest contains an invalid domain hash.")

def compileDomain (hashes : List (String × JsonValue)) (seenDomains seenRefs : List String)
    (rawDomain : JsonValue) : Except ManifestError (ManifestDomain × List String) := do
  let members ← orRaise .attributeError (asDict rawDomain)
  let domainId ← require "Manifest contains an invalid domain identifier."
    ((get members "id").bind solidText)
  refuseIf (seenDomains.contains domainId) "Manifest contains a duplicate domain identifier."
  let title ← require "Manifest contains an invalid domain title."
    (solidText ((get members "title").getD (.str domainId)))
  let rawMetrics ← require "Manifest domain metrics are invalid." ((get members "metrics").bind asList)
  let (metrics, seenRefs) ← compileMetrics domainId rawMetrics seenRefs
  let schemaHash ← manifestHash (get hashes domainId)
  .ok (⟨domainId, title, schemaHash, metrics⟩, seenRefs)

def compileDomains (hashes : List (String × JsonValue)) :
    List JsonValue → List String → List String → Except ManifestError (List ManifestDomain × List String)
  | [], _, seenRefs => .ok ([], seenRefs)
  | rawDomain :: rest, seenDomains, seenRefs => do
    let (domain, seenRefs) ← compileDomain hashes seenDomains seenRefs rawDomain
    let (domains, seenRefs) ← compileDomains hashes rest (domain.id :: seenDomains) seenRefs
    .ok (domain :: domains, seenRefs)

/-- `set(hashes) == seen_domains` -/
def sameNames (names others : List String) : Bool :=
  names.all others.contains && others.all names.contains

def compileManifest (version : String) (content : JsonValue)
    (domainHashes : Option (List (String × JsonValue))) : Except ManifestError ManifestSnapshot := do
  let rawDomains ← require "Manifest content is invalid."
    (((asDict content).bind (get · "domains")).bind asList)
  let hashes := domainHashes.getD []
  let (domains, seenRefs) ← compileDomains hashes rawDomains [] []
  refuseIf (domains.isEmpty ||
      domainHashes.any fun hashes => !sameNames (hashes.map Prod.fst) (domains.map (·.id)))
    "Manifest domain hashes are incomplete or inconsistent."
  refuseIf (domains.any fun domain => domain.metrics.any fun metric =>
      metric.contexts.any fun context => context.refs.any fun ref => !seenRefs.contains ref)
    "Manifest context references an unknown metric."
  .ok ⟨version, domains⟩

end Counselle.Cds
