import Counselle.Cds.Agreement
import Counselle.Cds.ManifestCompile
import Counselle.Transition

/-! One extraction from its queue row to its terminal status: the worker of `engine.py`, the
poller's lease and sweep, and the transactions of `cds_store.py` that they share. -/
namespace Counselle.Cds.Extraction
open PyJson (JsonValue)
open Authoring (validateExtractionGroups)

inductive ExtractionStatus where
  | queued
  | running
  | succeeded
  | partial_
  | failed
  deriving DecidableEq

/-- A row of `cds_manifests`. -/
structure ManifestRow where
  version : String
  content : JsonValue
  contentSha256 : String
  domainHashes : List (String × JsonValue)

structure EngineManifest where
  version : String
  content : JsonValue
  contentSha256 : String
  domainHashes : List (String × String)
  extractionGroups : List (List String)
  partition : validateExtractionGroups extractionGroups (domainHashes.map Prod.fst) = .ok ()

/-- What a run reads, and the columns of its row that it leaves alone. -/
structure RunEnv where
  manifest : EngineManifest
  manifests : List ManifestRow
  supportedExtractors : List String
  extractionId : String
  manifestVersion : String
  extractorVersion : String
  requestedDomains : List String
  isAsked : requestedDomains ≠ []
  pageCount : Int
  documentSha256 : String
  academicYear : Int
  /-- `provider_contract` -/
  runContract : List (String × JsonValue)
  isRouted : String → Bool
  leaseSeconds : Nat

/-- A row of `cds_domain_packets` of the extraction; `now()` is the time at which its
transaction began. -/
structure PacketRecord where
  domainId : String
  packet : Packet
  createdAt : Nat

structure Store where
  args : BuildArgs
  packet : Packet
  /-- `retry_starved_domains` stores it, not `store_domain_packets`. -/
  isRetry : Bool
  remaining : List String

/-- Why `_finish_failed` is called. -/
inductive Failure where
  /-- Nothing was stored: the manifest is another one, or an exception came before the
  stores. -/
  | refused
  | retryRaised
  deriving DecidableEq

inductive Phase where
  | claimed
  | checked
  | calling (domains : List String)
  /-- `store_domain_packets` -/
  | storing (remaining : List String)
  /-- `retry_starved_domains` -/
  | retrying (candidates : List String)
  | inserting (store : Store) (began : Nat)
  | committing (store : Store) (began : Nat)
  | failing (why : Failure)

structure Worker where
  leaseLost : Bool
  results : List BatchOutcome
  modelId : String
  /-- `domain_outcomes`, of which the status of the packet is kept. -/
  outcomes : List (String × Option PacketStatus)
  phase : Phase

inductive Closer where
  | completed
  | failed (why : Failure)
  | swept
  deriving DecidableEq

structure Closing where
  closer : Closer
  status : ExtractionStatus
  closedAt : Nat

structure RunState where
  clock : Nat
  status : ExtractionStatus
  leaseExpiresAt : Option Nat
  packets : List PacketRecord
  worker : Option Worker
  -- what happened so far; no columns
  /-- The domains whose store committed and then raised. -/
  unanswered : List String
  closings : List Closing

inductive Action where
  | tick
  | claim
  | renew
  | sweep
  /-- The process dies, or an exception leaves `run_extraction`. -/
  | crash
  | checkManifest
  | prepare
  | finishCalls (results : List BatchOutcome) (modelId : String)
  | build
  | beginRetries
  /-- The call for the next starved domain: `none` is an exception of the call. -/
  | retryCall (answer : Option (List Finding × String))
  | insert
  | commit
  /-- The commit takes effect and its answer is lost. -/
  | commitUnanswered
  /-- Any other exception at this point. -/
  | raises
  | complete
  | finishFailed

def callsForDomains (groups : List (List String)) (requested : List String) : Option (List (List String)) :=
  let calls := (groups.map fun group => group.filter requested.contains).filter (!·.isEmpty)
  if requested.all calls.flatten.contains then some calls else none

/-- `requested_domains` of `_prepare_run` -/
def RunEnv.domains (env : RunEnv) : Option (List String) :=
  (callsForDomains env.manifest.extractionGroups env.requestedDomains).map List.flatten

/-- Neither the version of the extraction nor the published content is another one. -/
def RunEnv.isCurrent (env : RunEnv) : Bool :=
  env.manifestVersion = env.manifest.version &&
    (env.manifests.find? (·.version = env.manifest.version)).any (·.contentSha256 = env.manifest.contentSha256)

def RunEnv.buildArgs (env : RunEnv) (domainId modelId : String) (findings : List Finding) : BuildArgs where
  manifestContent := env.manifest.content
  domainHashes := env.manifest.domainHashes
  domainId := domainId
  findings := findings
  providerContract := env.runContract
  documentPageCount := env.pageCount
  documentSha256 := env.documentSha256
  academicYear := env.academicYear
  extractionId := env.extractionId
  manifestVersion := env.manifest.version
  modelId := modelId
  extractorVersion := env.extractorVersion
  allowedMetricIds := none
  baseMetrics := none

def overallStatus (outcomes : List (String × Option PacketStatus)) : ExtractionStatus :=
  let stored := outcomes.countP (·.2.isSome)
  if stored = 0 then .failed else if stored = outcomes.length then .succeeded else .partial_

def Worker.record (worker : Worker) (domainId : String) (status : Option PacketStatus) : Worker :=
  { worker with outcomes := Upsert.insertKey Prod.fst worker.outcomes (domainId, status) }

def Worker.next (worker : Worker) (store : Store) : Worker :=
  { worker with phase := if store.isRetry then .retrying store.remaining else .storing store.remaining }

/-- No packet of the domain: a retry leaves the outcome as it is. -/
def Worker.unstored (worker : Worker) (store : Store) : Worker :=
  if store.isRetry then worker.next store else (worker.record store.args.domainId none).next store

/-- Only the stores of the main pass are isolated from each other. -/
def Worker.raised (worker : Worker) (store : Store) : Worker :=
  if store.isRetry then { worker with phase := .failing .retryRaised } else worker.unstored store

def Worker.stored (worker : Worker) (store : Store) : Worker :=
  (worker.record store.args.domainId (some store.packet.status)).next store

inductive StoreError where
  | packetInvalid
  | leaseLost
  | raised

/-- The round trip of `insert_packet` through the reader. -/
def readBack (env : RunEnv) (store : Store) : Except StoreError Unit :=
  match env.manifests.find? (·.version = env.manifest.version) with
  | none => .error .raised
  | some row =>
    match compileManifest row.version row.content (some row.domainHashes) with
    | .error (.service _) => .error .packetInvalid
    | .error (.escaped _) => .error .raised
    | .ok snapshot =>
      match parsePacketRow (store.args.row store.packet) [(env.manifest.version, snapshot)] env.supportedExtractors with
      | .error (.rejected _) => .error .packetInvalid
      | .error (.escaped _) => .error .raised
      | .ok _ => .ok ()

/-- `insert_packet`, whose `now()` is the beginning of the transaction. -/
def insertPacket (env : RunEnv) (state : RunState) (store : Store) (now : Nat) : Except StoreError Unit := do
  readBack env store
  if !state.leaseExpiresAt.all (now < ·) then .error .leaseLost
  else if state.packets.any (·.domainId = store.args.domainId) then .error .raised
  else .ok ()

def RunState.set (state : RunState) (worker : Worker) : RunState := { state with worker := some worker }

def RunState.stop (state : RunState) : RunState := { state with worker := none }

/-- `complete_extraction`; a lost lease is only logged. -/
def RunState.completeExtraction (state : RunState) (status : ExtractionStatus) (closer : Closer) : RunState :=
  if state.status = .running ∧ state.leaseExpiresAt.any (state.clock < ·) then
    { state with status := status, closings := ⟨closer, status, state.clock⟩ :: state.closings }
  else state

/-- `sweep_expired_leases` -/
def RunState.sweepLease (state : RunState) : RunState :=
  if state.status = .running ∧ state.leaseExpiresAt.any (· < state.clock) then
    { state with status := .failed, closings := ⟨.swept, .failed, state.clock⟩ :: state.closings }
  else state

def RunState.addPacket (state : RunState) (store : Store) (began : Nat) : RunState :=
  { state with packets := state.packets ++ [⟨store.args.domainId, store.packet, began⟩] }

def buildNext (env : RunEnv) (state : RunState) (worker : Worker) : Option RunState :=
  match worker.phase with
  | .storing (domainId :: remaining) =>
    let args := env.buildArgs domainId worker.modelId (collectBatchResults worker.results domainId)
    match buildPacket args with
    | .error _ => some (state.set { worker.record domainId none with phase := .storing remaining })
    | .ok packet => some (state.set { worker with phase := .inserting ⟨args, packet, false, remaining⟩ state.clock })
  | _ => none

def starvedRetry (env : RunEnv) (state : RunState) (worker : Worker) (answer : Option (List Finding × String)) :
    Option RunState :=
  match worker.phase with
  | .retrying (domainId :: remaining) =>
    if worker.leaseLost then some (state.set { worker with phase := .retrying [] })
    else match answer with
      | none | some ([], _) => some (state.set { worker with phase := .retrying remaining })
      | some (found, modelId) =>
        let args := env.buildArgs domainId modelId (mergedFindings worker.results domainId found)
        match buildPacket args with
        | .error (.zeroVerified ..) => some (state.set { worker with phase := .retrying remaining })
        | .error (.raised _) => some (state.set { worker with phase := .failing .retryRaised })
        | .ok packet => some (state.set { worker with phase := .inserting ⟨args, packet, true, remaining⟩ state.clock })
  | _ => none

/-- Where an exception goes that the phase does not expect. -/
def raise (state : RunState) (worker : Worker) : Option RunState :=
  match worker.phase with
  | .checked | .calling _ => some (state.set { worker with phase := .failing .refused })
  | .storing (domainId :: remaining) =>
    some (state.set { worker.record domainId none with phase := .storing remaining })
  | .retrying (_ :: _) => some (state.set { worker with phase := .failing .retryRaised })
  | .inserting store _ | .committing store _ => some (state.set (worker.raised store))
  | _ => none

/-- A step of `run_extraction`. -/
def work (env : RunEnv) (state : RunState) (worker : Worker) : Action → Option RunState
  | .renew =>
    if state.status = .running then some { state with leaseExpiresAt := some (state.clock + env.leaseSeconds) }
    else some (state.set { worker with leaseLost := true })
  | .checkManifest =>
    match worker.phase with
    | .claimed => some (state.set { worker with phase := if env.isCurrent then .checked else .failing .refused })
    | _ => none
  | .prepare =>
    match worker.phase with
    | .checked => some (state.set { worker with phase := match env.domains with
        | some domains => .calling domains
        | none => .failing .refused })
    | _ => none
  | .finishCalls results modelId =>
    match worker.phase with
    | .calling domains =>
      -- the batches are those of the requested domains
      if !results.all (domains.contains ·.domainId) then none
      else if worker.leaseLost then some state.stop
      else some (state.set { worker with results := results, modelId := modelId, phase := .storing domains })
    | _ => none
  | .build => buildNext env state worker
  | .beginRetries =>
    match worker.phase with
    | .storing [] =>
      let candidates := worker.outcomes.filter fun outcome => outcome.2.isNone && env.isRouted outcome.1
      some (state.set { worker with phase := .retrying (candidates.map Prod.fst) })
    | _ => none
  | .retryCall answer => starvedRetry env state worker answer
  | .insert =>
    match worker.phase with
    | .inserting store began =>
      match insertPacket env state store began with
      | .error .packetInvalid => some (state.set (worker.unstored store))
      | .error .leaseLost => some state.stop
      | .error .raised => some (state.set (worker.raised store))
      | .ok () => some (state.set { worker with phase := .committing store began })
    | _ => none
  | .commit =>
    match worker.phase with
    | .committing store began => some ((state.addPacket store began).set (worker.stored store))
    | _ => none
  | .commitUnanswered =>
    match worker.phase with
    | .committing store began => some { (state.addPacket store began).set (worker.raised store) with
        unanswered := store.args.domainId :: state.unanswered }
    | _ => none
  | .raises => raise state worker
  | .complete =>
    match worker.phase with
    | .retrying [] =>
      if worker.leaseLost then some state.stop
      else some (state.completeExtraction (overallStatus worker.outcomes) .completed).stop
    | _ => none
  | .finishFailed =>
    match worker.phase with
    | .failing why => some (state.completeExtraction .failed (.failed why)).stop
    | _ => none
  | _ => none

/-- A single statement takes effect at the clock that its `now()` reads. -/
def step (env : RunEnv) (state : RunState) : Action → Option RunState
  | .tick => some { state with clock := state.clock + 1 }
  | .claim =>
    if state.status = .queued then some { state with
      status := .running
      leaseExpiresAt := some (state.clock + env.leaseSeconds)
      worker := some ⟨false, [], "", [], .claimed⟩ }
    else none
  | .sweep => some state.sweepLease
  | .crash => some state.stop
  | act => state.worker.bind fun worker => work env state worker act

def RunState.initial : RunState := ⟨0, .queued, none, [], none, [], []⟩

end Counselle.Cds.Extraction
