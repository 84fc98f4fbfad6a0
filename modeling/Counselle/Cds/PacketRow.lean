import Counselle.Cds.PacketBuild

/-! The reader of stored packets, `parse_packet_row`: the identity of the row, and the
state and the value of every metric. -/
namespace Counselle.Cds
open PyJson (JsonValue PyFloat)
open PyText (PyError strip)

/-- A row of `cds_domain_packets` with its identity; digests are hexadecimal texts. -/
structure PacketRow where
  packet : Packet
  pdfSha256 : String
  domainSchemaHash : String
  domainId : String
  academicYear : Int
  extractionId : String
  manifestVersion : String
  acceptedPacketStatus : PacketStatus
  currentDefinitionMatch : Bool
  currentness : Option String

structure ParsedPacket where
  packet : Packet
  manifest : ManifestSnapshot
  currentDefinitionMatch : Bool
  currentness : String

inductive ReadError where
  /-- A `ServiceError`, logged under the code. -/
  | rejected (code : String)
  | escaped (error : PyError)
  deriving DecidableEq

/-- The characters that `str.isdigit` has beyond the decimal digits. -/
def otherDigits : List (Nat × Nat) :=
  [(0xb2, 0xb3), (0xb9, 0xb9), (0x1369, 0x1371), (0x19da, 0x19da), (0x2070, 0x2070),
    (0x2074, 0x2079), (0x2080, 0x2089), (0x2460, 0x2468), (0x2474, 0x247c), (0x2488, 0x2490),
    (0x24ea, 0x24ea), (0x24f5, 0x24fd), (0x24ff, 0x24ff), (0x2776, 0x277e), (0x2780, 0x2788),
    (0x278a, 0x2792), (0x10a40, 0x10a43), (0x10e60, 0x10e68), (0x11052, 0x1105a),
    (0x1f100, 0x1f10a)]

/-- `char.isdigit()` -/
def isDigitLike (c : Char) : Bool :=
  PyText.isDigit c || otherDigits.any fun range => range.1 ≤ c.toNat && c.toNat ≤ range.2

/-- `PacketEvidence` -/
def validEvidence (evidence : Evidence) : Bool := 1 ≤ evidence.pageNumber && !isBlank evidence.excerpt

/-- A diagnostic code of letters, digits and underscores in lower case. The codes are ASCII. -/
def validDiagnostic (code : String) : Bool :=
  code ≠ "" && code.toList.length ≤ 100 && code.toList.all (fun c => c = '_' || c.isAlphanum) &&
    code.toList.all fun c => !c.isUpper

def validMetricState (metric : PacketMetric) : Bool :=
  match metric.extractionStatus with
  | .verified =>
    match metric.availabilityStatus with
    | some .reported => !isNull metric.value && metric.evidence.isSome && metric.diagnosticCode.isNone
    | some _ => isNull metric.value && metric.rawValue.isNone && metric.evidence.isSome &&
        metric.diagnosticCode.isNone
    | none => false
  | status =>
    metric.availabilityStatus.isNone && isNull metric.value && metric.rawValue.isNone &&
      metric.evidence.isNone &&
        if status = .invalid then metric.diagnosticCode.any validDiagnostic
        else metric.diagnosticCode.isNone

/-- `float(value)` of a number. -/
def toFloat : JsonValue → Except PyError PyFloat
  | .int n =>
    match Binary64.ofRat n with
    | .finite q => .ok (.finite q)
    | _ => .error .overflowError
  | .float q => .ok q
  | _ => .error .typeError

def isFinite : PyFloat → Bool
  | .finite _ => true
  | _ => false

def validateTypedValue (value : JsonValue) (type : ValueType) : Except PyError Unit := do
  let valid ← match type, value with
    | .boolean, .bool _ => .ok true
    | .integer, .int _ => .ok true
    | .number, .int _ | .number, .float _ => (toFloat value).map isFinite
    | .string, .str text | .enum, .str text => .ok (!isBlank text)
    | _, _ => .ok false
  if valid then .ok () else .error .valueError

def grouped (digits : List Char) : List Char :=
  (digits.reverse.toChunks 3 |> List.intercalate [',']).reverse

/-- `f"{value:,}"` -/
def groupedInt (n : Int) : Except PyError (List Char) :=
  let digits := Nat.toDigits 10 n.natAbs
  if PyText.maxStrDigits < digits.length then .error .valueError
  else .ok ((if n < 0 then ['-'] else []) ++ grouped digits)

/-- `format_decimal` of a decimal of so many digits behind the point. -/
def formatDecimal (negative : Bool) (value : Nat) (power : Int) : List Char :=
  let places := (-power).toNat
  let scaled := value * 10 ^ power.toNat
  let whole := Nat.toDigits 10 (scaled / 10 ^ places)
  let digits := Nat.toDigits 10 (scaled % 10 ^ places)
  let fraction := ((List.replicate (places - digits.length) '0' ++ digits).take places).rdropWhile (· = '0')
  (if negative then ['-'] else []) ++ (if fraction = [] then whole else whole ++ '.' :: fraction)

def displayValue (type : ValueType) (value : JsonValue) : Except PyError (List Char) :=
  match type, value with
  | .boolean, .bool b => .ok (if b then "Yes" else "No").toList
  | .integer, .int n => groupedInt n
  | .number, .int n => do
    if isFinite (← toFloat (.int n)) then .ok (formatDecimal (n < 0) n.natAbs 0) else .error .valueError
  | .number, .float (.finite q) =>
    let (value, power) := if q = 0 then (0, 0) else PyNumber.shortest |q|
    .ok (formatDecimal (q < 0) value power)
  | .string, .str text | .enum, .str text => .ok (strip text.toList)
  | _, _ => .error .valueError

def display (metric : PacketMetric) (type : ValueType) : Except PyError (List Char) := do
  validateTypedValue metric.value type
  match metric.rawValue.map fun raw => strip raw.toList with
  | some (c :: rest) => .ok (c :: rest)
  | _ => displayValue type metric.value

def numericRaw (metric : PacketMetric) (type : ValueType) : Bool :=
  match type, metric.rawValue with
  | .integer, some raw | .number, some raw => isBlank raw || raw.toList.any isDigitLike
  | _, _ => true

def readable (domainId : String) (definitions : List (String × ValueType)) (ref : String)
    (metric : PacketMetric) : Except ReadError Unit := do
  if !isRefOf domainId ref then .error (.rejected "metric_ref_invalid")
  else if !validMetricState metric then .error (.rejected "metric_state_invalid")
  else if metric.extractionStatus = .verified && metric.availabilityStatus = some .reported then
    match definitions.lookup ref with
    | none => .error (.escaped .keyError)
    | some type =>
      match display metric type with
      | .error .valueError => .error (.rejected "metric_value_type_invalid")
      | .error error => .error (.escaped error)
      | .ok _ =>
        if numericRaw metric type then .ok () else .error (.rejected "metric_value_type_invalid")
  else .ok ()

def readAll (domainId : String) (definitions : List (String × ValueType)) :
    List (String × PacketMetric) → Except ReadError Unit
  | [] => .ok ()
  | (ref, metric) :: rest => do
    readable domainId definitions ref metric
    readAll domainId definitions rest

def reject {A : Type} (code : String) : Except ReadError A := .error (.rejected code)

/-- The packet is that of the row, under a supported extractor and the manifest's hash. -/
def identityMatches (row : PacketRow) (domain : ManifestDomain) (supportedExtractors : List String) : Bool :=
  let packet := row.packet
  supportedExtractors.contains packet.extractorVersion && packet.domainId = row.domainId &&
    packet.academicYear = row.academicYear && packet.extractionId = row.extractionId &&
    packet.manifestVersion = row.manifestVersion && packet.status = row.acceptedPacketStatus &&
    packet.documentSha256 = row.pdfSha256 && packet.domainSchemaHash = row.domainSchemaHash &&
    (domain.schemaHash = "" || packet.domainSchemaHash = domain.schemaHash)

def parsePacketRow (row : PacketRow) (manifests : List (String × ManifestSnapshot))
    (supportedExtractors : List String) : Except ReadError ParsedPacket :=
  let packet := row.packet
  if !packet.metrics.all fun metric => metric.2.evidence.all validEvidence then
    reject "packet_shape_invalid"
  else match manifests.lookup packet.manifestVersion with
    | none => reject "packet_manifest_domain_missing"
    | some manifest =>
      match manifest.domains.find? (·.id = packet.domainId) with
      | none => reject "packet_manifest_domain_missing"
      | some domain =>
        if !identityMatches row domain supportedExtractors then
          reject "packet_identity_mismatch"
        else
          let definitions := domain.metrics.map fun metric => (metric.ref, metric.type)
          if !packet.metrics.all fun metric => (definitions.lookup metric.1).isSome then
            reject "metric_ref_unknown"
          else match readAll packet.domainId definitions packet.metrics with
            | .error error => .error error
            | .ok () =>
              if countsOf packet.metrics ≠ packet.counts then reject "packet_counts_invalid"
              else .ok ⟨packet, manifest, row.currentDefinitionMatch, row.currentness.getD "current"⟩

end Counselle.Cds
