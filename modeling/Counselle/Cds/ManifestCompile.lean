import Counselle.Cds.Authoring
import Counselle.Json
import Mathlib.Data.List.Dedup
import Mathlib.Data.List.Sort

/-! The compiler of the manifest, `manifest_compile.py`: local names become qualified ones,
context bindings become contexts of the metrics that they target. -/
namespace Counselle.Cds.Authoring
open PyJson (JsonValue)
open PyJson.JsonValue (get)

/-- The loaded files of `config/cds`: a domain file is the stem of its name and its mapping,
in the order of the names. -/
structure ConfigDir where
  root : List (String × JsonValue)
  prompt : Option String
  domains : Option (List (String × List (String × JsonValue)))

inductive Halt where
  | cycle (node : String)
  | fuel
  deriving DecidableEq

/-- The `ManifestError`s, with what their messages name. -/
inductive AuthoringError where
  | rootKeys
  | invalidRoot
  | missingPrompt
  | emptyPrompt
  | missingDirectory
  | idMismatch (stem : String)
  | duplicateDomain (domainId : String)
  | invalidDomain (stem : String)
  | noDomains
  | unknownGroupDomain (domainId : String)
  | repeatedGroupDomain (domainId : String)
  | omittedDomains (domainIds : List String)
  | duplicateContext (domainId contextId : String)
  | unknownBinder (domainId ref : String)
  | unknownSelector (domainId : String) (selector : Selector)
  | unmatchedPeriodKind (domainId : String)
  | selfTargets (domainId contextId : String) (ids : List String)
  | noTargets (domainId : String)
  | contextCycle (halt : Halt)
  | unknownInputs (id : String) (inputs : List String)
  | selfInput (id : String)
  | formulaCycle (halt : Halt)
  deriving DecidableEq

def local_ (domainId id : String) : String := domainId ++ "." ++ id

def qualified (domainId reference : String) : String :=
  if reference.toList.contains '.' then reference else local_ domainId reference

/-- `members[key] = value` -/
def setItem (members : List (String × JsonValue)) (key : String) (value : JsonValue) :
    List (String × JsonValue) :=
  if members.any (·.1 = key) then members.map fun member => if member.1 = key then (key, value) else member
  else members ++ [(key, value)]

def texts (items : List String) : JsonValue := .list (items.map .str)

structure CanonicalMetric where
  authored : Metric
  id : String
  members : List (String × JsonValue)
  inputs : Option (List String)

def canonicalMetric (domainId : String) (authored : Metric) : CanonicalMetric :=
  let id := local_ domainId authored.id
  let members := setItem authored.members "id" (.str id)
  match authored.formula with
  | none => ⟨authored, id, members, none⟩
  | some formula =>
    let inputs := formula.inputs.map fun reference => qualified domainId reference
    ⟨authored, id, setItem members "formula"
      (.dict [("operation", .str formula.operation), ("inputs", texts inputs)]), some inputs⟩

structure CanonicalDomain where
  authored : Domain
  metrics : List CanonicalMetric

def canonicalizeDomains (domains : List Domain) : List CanonicalDomain :=
  domains.map fun domain => ⟨domain, domain.metrics.map (canonicalMetric domain.id)⟩

structure Context where
  id : String
  label : String
  refs : List String

def Context.json (context : Context) : JsonValue :=
  .dict [("id", .str context.id), ("label", .str context.label), ("refs", texts context.refs)]

/-- `metric["id"].split(".", 1)[1]` -/
def localId (metric : CanonicalMetric) : String :=
  String.ofList ((metric.id.toList.dropWhile (· ≠ '.')).drop 1)

def startsWith (text front : String) : Bool := front.toList.isPrefixOf text.toList

def selectBy (localMetrics selected : List CanonicalMetric) (domainId : String) (selector : Selector)
    (values : List String) : Except AuthoringError (List CanonicalMetric) :=
  match selector with
  | .sourceHints =>
    if values.all fun value => localMetrics.any fun metric => metric.authored.sourceHints.any (·.val = value) then
      .ok (selected.filter fun metric => metric.authored.sourceHints.any fun hint => values.contains hint.val)
    else .error (.unknownSelector domainId selector)
  | .metricIds =>
    if values.all fun value => localMetrics.any fun metric => localId metric = value then
      .ok (selected.filter fun metric => values.contains (localId metric))
    else .error (.unknownSelector domainId selector)
  | .metricIdPrefixes =>
    if values.all fun value => localMetrics.any fun metric => startsWith (localId metric) value then
      .ok (selected.filter fun metric => values.any fun value => startsWith (localId metric) value)
    else .error (.unknownSelector domainId selector)
  | .periodKinds =>
    if !values.all periodKinds.contains then .error (.unknownSelector domainId selector)
    else if values.all fun value => localMetrics.any fun metric => metric.authored.periodKind.val = value then
      .ok (selected.filter fun metric => values.contains metric.authored.periodKind.val)
    else .error (.unmatchedPeriodKind domainId)

def selectTargetMetrics (localMetrics : List CanonicalMetric) (targets : ContextTargets) (domainId : String) :
    Except AuthoringError (List CanonicalMetric) :=
  targets.selectors.foldlM (fun selected entry => selectBy localMetrics selected domainId entry.1 entry.2) localMetrics

def resolveRef (domainId : String) (metricOrder : List String) (binder : String) : Except AuthoringError String :=
  let ref := qualified domainId binder
  if metricOrder.contains ref then .ok ref else .error (.unknownBinder domainId ref)

def resolveRefs (binders : List Reference) (domainId : String) (metricOrder : List String) :
    Except AuthoringError (List String) :=
  (binders.mapM fun (binder : Reference) => resolveRef domainId metricOrder binder.val).map fun refs =>
    refs.insertionSort fun a b => metricOrder.idxOf a ≤ metricOrder.idxOf b

/-- A context with the ids of the metrics that it is a context of. -/
structure CompiledBinding where
  context : Context
  targets : List String

/-- The texts in the order of `sorted`. -/
def sortedTexts (items : List String) : List String :=
  items.insertionSort fun a b => a ≤ b

def compileBinding (metricOrder : List String) (domain : CanonicalDomain) (binding : ContextBinding) :
    Except AuthoringError CompiledBinding := do
  let domainId := domain.authored.id.val
  let contextId := local_ domainId binding.id
  let refs ← resolveRefs binding.binders domainId metricOrder
  let selected ← selectTargetMetrics domain.metrics binding.targets domainId
  let selfTargets := sortedTexts ((selected.filter fun metric => refs.contains metric.id).map (·.id))
  if selfTargets ≠ [] then
    .error (.selfTargets domainId contextId selfTargets)
  else if selected.isEmpty then .error (.noTargets domainId)
  else .ok ⟨⟨contextId, binding.label, refs⟩, selected.map (·.id)⟩

/-- The bindings of all domains, in order; no context id comes twice. -/
def compileBindings (metricOrder : List String) :
    List (CanonicalDomain × ContextBinding) → List String → Except AuthoringError (List CompiledBinding)
  | [], _ => .ok []
  | (domain, binding) :: rest, seen => do
    let contextId := local_ domain.authored.id binding.id
    if seen.contains contextId then .error (.duplicateContext domain.authored.id contextId)
    else
      let compiled ← compileBinding metricOrder domain binding
      let others ← compileBindings metricOrder rest (contextId :: seen)
      .ok (compiled :: others)

/-- `visit` of `_check_cycles`: the nodes visited after it. -/
def visit (next : String → List String) : Nat → List String → List String → String → Except Halt (List String)
  | 0, _, _, _ => .error .fuel
  | fuel + 1, visiting, visited, node =>
    if visited.contains node then .ok visited
    else if visiting.contains node then .error (.cycle node)
    else do
      let visited ← (next node).foldlM (visit next fuel (node :: visiting)) visited
      .ok (node :: visited)

/-- `_check_cycles`. Each node on the way to another has dependencies of its own, so the
fuel is not used up (`checkCycles_ne_fuel`). -/
def checkCycles (nodes : List String) (next : String → List String) : Except Halt (List String) :=
  nodes.foldlM (visit next (nodes.length + 2) []) []

theorem foldlM_ne_error {E A B : Type} {f : A → B → Except E A} {error : E} {items : List B}
    (each : ∀ a, ∀ b ∈ items, f a b ≠ .error error) (a : A) : items.foldlM f a ≠ .error error := by
  induction items generalizing a with
  | nil => nofun
  | cons item rest ih =>
    rw [List.foldlM_cons, ne_eq, Fallible.bind_error_iff, not_or]
    refine ⟨each a item List.mem_cons_self, ?_⟩
    rintro ⟨next, -, failed⟩
    exact ih (fun a b isIn => each a b (List.mem_cons_of_mem _ isIn)) next failed

theorem visit_ne_fuel {nodes : List String} {next : String → List String}
    (known : ∀ node, next node ≠ [] → node ∈ nodes) {fuel : Nat} {visiting : List String} (distinct : visiting.Nodup)
    (within : ∀ node ∈ visiting, node ∈ nodes) (enough : nodes.length + 2 ≤ fuel + visiting.length)
    (visited : List String) (node : String) : visit next fuel visiting visited node ≠ .error .fuel := by
  induction fuel generalizing visiting visited node with
  | zero =>
    have fits : visiting.length ≤ nodes.length := (List.subperm_of_subset distinct within).length_le
    omega
  | succ fuel ih =>
    rw [visit]
    split
    · nofun
    · split
      · nofun
      next apart =>
        rw [ne_eq, Fallible.bind_error_iff, not_or]
        refine ⟨?_, nofun⟩
        apply foldlM_ne_error
        intro visited dependency isDependency
        have isNode := known node (List.ne_nil_of_mem isDependency)
        apply ih
        · exact List.nodup_cons.mpr ⟨by simpa using apart, distinct⟩
        · exact List.forall_mem_cons.mpr ⟨isNode, within⟩
        · rw [List.length_cons]
          omega

/-- The nodes on the way to a dependency are distinct, and nodes of the graph. -/
theorem checkCycles_ne_fuel {nodes : List String} {next : String → List String}
    (known : ∀ node, next node ≠ [] → node ∈ nodes) : checkCycles nodes next ≠ .error .fuel := by
  apply foldlM_ne_error
  intro visited node _
  exact visit_ne_fuel known List.nodup_nil (fun _ => nofun) (by simp) visited node

theorem foldlM_visits {E A : Type} {f : List A → A → Except E (List A)} {P : A → Prop}
    (each : ∀ visited node after, f visited node = .ok after → (∀ node ∈ visited, P node) →
      (∀ node ∈ after, P node) ∧ visited ⊆ after ∧ node ∈ after)
    {nodes visited after : List A} (ran : nodes.foldlM f visited = .ok after) (holds : ∀ node ∈ visited, P node) :
    (∀ node ∈ after, P node) ∧ visited ⊆ after ∧ nodes ⊆ after := by
  induction nodes generalizing visited with
  | nil =>
    cases ran
    exact ⟨holds, List.Subset.refl _, nofun⟩
  | cons node rest ih =>
    rw [List.foldlM_cons] at ran
    obtain ⟨middle, isMiddle, ran⟩ := Fallible.bind_ok_iff.mp ran
    obtain ⟨holds, first, isNode⟩ := each _ _ _ isMiddle holds
    obtain ⟨holds, second, others⟩ := ih ran holds
    exact ⟨holds, List.Subset.trans first second, List.cons_subset.mpr ⟨second isNode, others⟩⟩

/-- Behind a node that was visited every way of dependencies ends. -/
theorem visit_acc {next : String → List String} (fuel : Nat) (visiting visited : List String) (node : String)
    (after : List String) (ran : visit next fuel visiting visited node = .ok after)
    (ends : ∀ node ∈ visited, Acc (fun ref id => ref ∈ next id) node) :
    (∀ node ∈ after, Acc (fun ref id => ref ∈ next id) node) ∧ visited ⊆ after ∧ node ∈ after := by
  induction fuel generalizing visiting visited node after with
  | zero => cases ran
  | succ fuel ih =>
    rw [visit] at ran
    split at ran
    next seen =>
      cases ran
      exact ⟨ends, List.Subset.refl _, List.contains_iff_mem.mp seen⟩
    · obtain ⟨-, ran⟩ := Fallible.guard_ok_iff.mp ran
      obtain ⟨middle, isMiddle, ran⟩ := Fallible.bind_ok_iff.mp ran
      cases ran
      obtain ⟨ends, more, areRefs⟩ := foldlM_visits (ih (node :: visiting)) isMiddle ends
      exact ⟨List.forall_mem_cons.mpr ⟨⟨_, fun ref isRef => ends ref (areRefs isRef)⟩, ends⟩,
        List.subset_cons_of_subset _ more, List.mem_cons_self⟩

/-- A node that is met again on its own way is on a cycle. -/
theorem visit_cycle {next : String → List String} {fuel : Nat} {visiting visited : List String} {node found : String}
    (ran : visit next fuel visiting visited node = .error (.cycle found))
    (way : ∀ earlier ∈ visiting, Relation.TransGen (fun id ref => ref ∈ next id) earlier node) :
    Relation.TransGen (fun id ref => ref ∈ next id) found found := by
  induction fuel generalizing visiting visited node with
  | zero => cases ran
  | succ fuel ih =>
    rw [visit] at ran
    split at ran
    · cases ran
    · split at ran
      next again =>
        cases ran
        exact way found (List.contains_iff_mem.mp again)
      · have failed := (Fallible.bind_error_iff.mp ran).resolve_right nofun
        by_contra acyclic
        refine foldlM_ne_error (fun visited ref isRef failed => acyclic (ih failed ?_)) _ failed
        exact List.forall_mem_cons.mpr ⟨.single isRef, fun earlier isIn => (way earlier isIn).tail isRef⟩

/-- The check passes graphs whose dependencies end, and names a node of a cycle in the others. -/
theorem checkCycles_exact {nodes : List String} {next : String → List String} (known : ∀ node, next node ≠ [] → node ∈ nodes) :
    (∃ visited, checkCycles nodes next = .ok visited) ∧ WellFounded (fun ref id => ref ∈ next id) ∨
      ∃ id, checkCycles nodes next = .error (.cycle id) ∧ Relation.TransGen (fun id ref => ref ∈ next id) id id := by
  cases ran : checkCycles nodes next with
  | ok visited =>
    obtain ⟨ends, -, all⟩ := foldlM_visits (visit_acc _ []) ran nofun
    refine Or.inl ⟨⟨visited, rfl⟩, ⟨fun node => ?_⟩⟩
    by_cases leaf : next node = []
    · exact ⟨_, fun ref isRef => absurd (leaf ▸ isRef) List.not_mem_nil⟩
    · exact ends node (all (known node leaf))
  | error halt =>
    cases halt with
    | fuel => exact absurd ran (checkCycles_ne_fuel known)
    | cycle found =>
      refine Or.inr ⟨found, rfl, ?_⟩
      by_contra acyclic
      exact foldlM_ne_error (fun visited node _ failed =>
        acyclic (visit_cycle failed fun _ isIn => absurd isIn List.not_mem_nil)) _ ran

def contextDependencies (bindings : List CompiledBinding) (id : String) : List String :=
  bindings.flatMap fun binding => if binding.targets.contains id then binding.context.refs else []

theorem contextDependencies_known (bindings : List CompiledBinding) (node : String) (bound : contextDependencies bindings node ≠ []) :
    node ∈ (bindings.flatMap (·.targets)).dedup := by
  obtain ⟨ref, isRef⟩ := List.exists_mem_of_ne_nil _ bound
  obtain ⟨binding, isBinding, isRef⟩ := List.mem_flatMap.mp isRef
  split at isRef
  · rw [List.mem_dedup, List.mem_flatMap]
    exact ⟨binding, isBinding, List.contains_iff_mem.mp ‹_›⟩
  · cases isRef

/-- `_compile_contexts`: the bindings, before they are attached to their metrics. -/
def compileContexts (domains : List CanonicalDomain) : Except AuthoringError (List CompiledBinding) := do
  let metricOrder := domains.flatMap fun domain => domain.metrics.map (·.id)
  let bindings ← compileBindings metricOrder
    (domains.flatMap fun domain => domain.authored.contextBindings.map fun binding => (domain, binding)) []
  match checkCycles (bindings.flatMap (·.targets)).dedup (contextDependencies bindings) with
  | .ok _ => .ok bindings
  | .error halt => .error (.contextCycle halt)

/-- The metric with its contexts, which `setdefault` puts behind its other keys. -/
def attach (bindings : List CompiledBinding) (metric : CanonicalMetric) : List (String × JsonValue) :=
  match bindings.filter fun binding => binding.targets.contains metric.id with
  | [] => metric.members
  | own => metric.members ++ [("contexts", .list (own.map (·.context.json)))]

def checkFormula (ids : List String) (metric : CanonicalMetric) : Except AuthoringError Unit :=
  match metric.inputs with
  | none => .ok ()
  | some inputs =>
    let unknown := sortedTexts (inputs.filter fun input => !ids.contains input).dedup
    if unknown ≠ [] then .error (.unknownInputs metric.id unknown)
    else if inputs.contains metric.id then .error (.selfInput metric.id)
    else .ok ()

def formulaInputs (metrics : List CanonicalMetric) (id : String) : List String :=
  ((metrics.find? (·.id = id)).bind (·.inputs)).getD []

theorem formulaInputs_known (metrics : List CanonicalMetric) (node : String) (derived : formulaInputs metrics node ≠ []) :
    node ∈ (metrics.filter (·.inputs.isSome)).map (·.id) := by
  unfold formulaInputs at derived
  cases found : metrics.find? (·.id = node) with
  | none =>
    rw [found] at derived
    exact absurd rfl derived
  | some metric =>
    rw [found] at derived
    have isNode := List.find?_some found
    rw [← of_decide_eq_true isNode]
    apply List.mem_map_of_mem
    rw [List.mem_filter]
    refine ⟨List.mem_of_find?_eq_some found, ?_⟩
    cases inputs : metric.inputs with
    | none =>
      rw [Option.bind_some, inputs] at derived
      exact absurd rfl derived
    | some => rfl

def validateFormulaReferences (domains : List CanonicalDomain) : Except AuthoringError Unit := do
  let metrics := domains.flatMap (·.metrics)
  let _ ← metrics.mapM (checkFormula (metrics.map (·.id)))
  match checkCycles ((metrics.filter (·.inputs.isSome)).map (·.id)) (formulaInputs metrics) with
  | .ok _ => .ok ()
  | .error halt => .error (.formulaCycle halt)

/-- Formulas and contexts are accepted only with an order to compute them in, and refused as
cyclic only for a metric that depends on itself. -/
theorem references_exact (domains : List CanonicalDomain) :
    (∀ checked, (domains.flatMap (·.metrics)).mapM (checkFormula ((domains.flatMap (·.metrics)).map (·.id))) = .ok checked →
      validateFormulaReferences domains = .ok () ∧
          WellFounded (fun input id => input ∈ formulaInputs (domains.flatMap (·.metrics)) id) ∨
        ∃ id, validateFormulaReferences domains = .error (.formulaCycle (.cycle id)) ∧
          Relation.TransGen (fun id input => input ∈ formulaInputs (domains.flatMap (·.metrics)) id) id id) ∧
    ∀ bindings, compileBindings (domains.flatMap fun domain => domain.metrics.map (·.id))
        (domains.flatMap fun domain => domain.authored.contextBindings.map fun binding => (domain, binding)) [] = .ok bindings →
      compileContexts domains = .ok bindings ∧ WellFounded (fun ref id => ref ∈ contextDependencies bindings id) ∨
        ∃ id, compileContexts domains = .error (.contextCycle (.cycle id)) ∧
          Relation.TransGen (fun id ref => ref ∈ contextDependencies bindings id) id id := by
  constructor
  · intro checked isChecked
    have ran : validateFormulaReferences domains = (Except.ok checked).bind _ := congrArg (· >>= _) isChecked
    obtain ⟨⟨visited, passes⟩, ends⟩ | ⟨id, halts, cycle⟩ := checkCycles_exact (formulaInputs_known (domains.flatMap (·.metrics)))
    · exact Or.inl ⟨by rw [ran, Except.bind, passes], ends⟩
    · exact Or.inr ⟨id, by rw [ran, Except.bind, halts], cycle⟩
  · intro bindings areBindings
    have ran : compileContexts domains = (Except.ok bindings).bind _ := congrArg (· >>= _) areBindings
    obtain ⟨⟨visited, passes⟩, ends⟩ | ⟨id, halts, cycle⟩ := checkCycles_exact (contextDependencies_known bindings)
    · exact Or.inl ⟨by rw [ran, Except.bind, passes], ends⟩
    · exact Or.inr ⟨id, by rw [ran, Except.bind, halts], cycle⟩

def checkGroup (domainIds : List String) : List String → List String → Except AuthoringError (List String)
  | [], seen => .ok seen
  | domainId :: rest, seen =>
    if !domainIds.contains domainId then .error (.unknownGroupDomain domainId)
    else if seen.contains domainId then .error (.repeatedGroupDomain domainId)
    else checkGroup domainIds rest (domainId :: seen)

def validateExtractionGroups (groups : List (List String)) (domainIds : List String) : Except AuthoringError Unit := do
  let seen ← checkGroup domainIds groups.flatten []
  let missing := sortedTexts (domainIds.filter fun domainId => !seen.contains domainId)
  if missing ≠ [] then .error (.omittedDomains missing) else .ok ()

def readDomains : List (String × List (String × JsonValue)) → List String → Except AuthoringError (List Domain)
  | [], _ => .ok []
  | (stem, members) :: rest, seen =>
    match get members "id" with
    | some (.str domainId) =>
      if domainId ≠ stem then .error (.idMismatch stem)
      else if seen.contains domainId then .error (.duplicateDomain domainId)
      else match validateDomain members with
        | none => .error (.invalidDomain stem)
        | some domain => (readDomains rest (domainId :: seen)).map (domain :: ·)
    | _ => .error (.idMismatch stem)

abbrev Digest : Type := {bytes : List UInt8 // bytes.length = 32}

def hexDigest (digest : Digest) : String :=
  String.ofList (digest.val.flatMap fun byte => [Json.hexDigit (byte.toNat / 16), Json.hexDigit (byte.toNat % 16)])

def extractionContractVersion : String := "8"

def CanonicalDomain.json (domain : CanonicalDomain) (bindings : List CompiledBinding) : JsonValue :=
  .dict [("id", .str domain.authored.id), ("title", .str domain.authored.title),
    ("metrics", .list (domain.metrics.map fun metric => .dict (attach bindings metric)))]

/-- `_semantic_domain`: the metrics without their titles. -/
def semanticDomain (domain : CanonicalDomain) (bindings : List CompiledBinding) (prompt : String) : JsonValue :=
  .dict [("id", .str domain.authored.id),
    ("metrics", .list (domain.metrics.map fun metric =>
      .dict ((attach bindings metric).filter fun member => member.1 ≠ "title"))),
    ("prompt", .str prompt), ("contract", .str extractionContractVersion)]

def enumSchema (values : List String) : JsonValue := .dict [("type", .str "string"), ("enum", texts values)]

def typesSchema (types : List String) : JsonValue := .dict [("type", texts types)]

/-- `_provider_schema`: one schema of the findings; derived metrics are not asked for. -/
def providerSchema (domains : List CanonicalDomain) : JsonValue :=
  let metricIds := sortedTexts (((domains.flatMap (·.metrics)).filter (·.inputs.isNone)).map (·.id))
  let finding : JsonValue := .dict [("type", .str "object"), ("additionalProperties", .bool false),
    ("required", texts ["metric_id", "availability_status", "raw_value", "page_number", "excerpt"]),
    ("properties", .dict [
      ("metric_id", enumSchema metricIds),
      ("availability_status", enumSchema
        ["reported", "not_reported", "not_applicable", "suppressed", "not_in_template_version"]),
      ("value", typesSchema ["integer", "number", "string", "boolean", "null"]),
      ("raw_value", typesSchema ["string", "null"]),
      ("page_number", .dict [("type", .str "integer"), ("minimum", .int 1)]),
      ("section", typesSchema ["string", "null"]),
      ("row_label", typesSchema ["string", "null"]),
      ("column_label", typesSchema ["string", "null"]),
      ("excerpt", .dict [("type", .str "string"), ("minLength", .int 1)])])]
  .dict [("type", .str "object"), ("additionalProperties", .bool false), ("required", texts ["findings"]),
    ("properties", .dict [("findings", .dict [("type", .str "array"), ("items", finding)])])]

structure CompiledManifest where
  content : JsonValue
  contentSha256 : String
  domainHashes : List (String × String)
  providerSchema : JsonValue

def contentOf (root : List (String × JsonValue)) (domains : List CanonicalDomain)
    (bindings : List CompiledBinding) (prompt : String) : JsonValue :=
  .dict [("root", .dict root), ("domains", .list (domains.map (·.json bindings))), ("prompt", .str prompt),
    ("extraction_contract_version", .str extractionContractVersion)]

/-- The prompt and the domains, once every file is valid. -/
def loadConfig (config : ConfigDir) : Except AuthoringError (String × List Domain) :=
  if !sameNames (config.root.map Prod.fst) rootKeys then .error .rootKeys
  else match validateRoot config.root, config.prompt with
    | none, _ => .error .invalidRoot
    | some _, none => .error .missingPrompt
    | some root, some prompt =>
      if isBlank prompt then .error .emptyPrompt
      else match config.domains with
        | none => .error .missingDirectory
        | some files => do
          let domains ← readDomains files []
          if domains.isEmpty then .error .noDomains
          else
            validateExtractionGroups root.extractionGroups (domains.map (·.id.val))
            .ok (prompt, domains)

/-- `compile_manifest`; `sha256` digests the canonical bytes of a value. -/
def compileManifest (sha256 : JsonValue → Digest) (config : ConfigDir) : Except AuthoringError CompiledManifest := do
  let (prompt, authored) ← loadConfig config
  let domains := canonicalizeDomains authored
  let bindings ← compileContexts domains
  validateFormulaReferences domains
  let content := contentOf config.root domains bindings prompt
  .ok {
    content
    contentSha256 := hexDigest (sha256 content)
    domainHashes := domains.map fun domain =>
      (domain.authored.id.val, hexDigest (sha256 (semanticDomain domain bindings prompt)))
    providerSchema := providerSchema domains }

end Counselle.Cds.Authoring
