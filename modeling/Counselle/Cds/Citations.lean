import Counselle.Cds.Agreement
import Counselle.Cds.Routing

/-! The citations of a call, `citation_remap.py` and `calling.py`: the pages that the model is
sent, the retry with a wider window, and the pages that its findings are stored with. Usage,
latency and the text of the prompt are left out. -/
namespace Counselle.Cds.Citations
open Batching Pages Ranges Routing

/-- `finding.model_copy(update={"page_number": page})` -/
def withPage (finding : Finding) (page : Int) (onPage : 1 ≤ page) : Finding :=
  { finding with pageNumber := page, onPage := onPage }

theorem resolved_onPage {fuzzy : Fuzzy} {raw : Int} {pageMap : PageMap} {excerpt : String} {pageText : List (Int × String)}
    {page : Int} (resolved : (resolveCitedPage fuzzy raw pageMap excerpt pageText).originalPage = some page) : 1 ≤ page := by
  obtain ⟨entry, isIn, rfl⟩ := List.mem_map.mp (resolve_page resolved).1
  exact pageMap.onPage entry isIn

/-- One turn of the loop of `remap_findings`. -/
def remapFinding (fuzzy : Fuzzy) (pageText : List (Int × String)) (pageMap : PageMap) (finding : Finding) : Option Finding :=
  match resolved : (resolveCitedPage fuzzy finding.pageNumber pageMap finding.excerpt pageText).originalPage with
  | none => none
  | some page => some (withPage finding page (resolved_onPage resolved))

def remapFindings (fuzzy : Fuzzy) (pageText : List (Int × String)) (findings : List Finding) (pageMap : Option PageMap) :
    List Finding :=
  match pageMap with
  | none => findings
  | some pageMap => findings.filterMap (remapFinding fuzzy pageText pageMap)

def droppedCitationPages (findings : List Finding) (pageMap : Option PageMap) : List Int :=
  match pageMap with
  | none => []
  | some pageMap =>
    (findings.filter fun finding =>
      (resolveCitedPage (fun _ _ => false) finding.pageNumber pageMap "" []).originalPage = none).map Finding.pageNumber

structure Document where
  pageCount : Int
  routingText : RoutingText
  within : Within pageCount routingText

structure CallEnv where
  doc : Document
  metrics : List BatchMetric
  isBoolean : BatchMetric → Bool
  hasFormFields : Bool
  /-- Empty on a corrupt text layer. -/
  pageText : List (Int × String)
  fuzzy : Fuzzy
  /-- A slice of these pages has fewer bytes than the document. -/
  slims : List Int → Bool

inductive CallError where
  | pageRange
  | model (text : String)

/-- The model's answer to the map in the prompt and the pages sent as images. -/
abbrev Answer := Option PageMap → List Int → Except CallError (List Finding)

structure Attempt where
  remappedFindings : List Finding
  droppedPages : List Int
  narrowed : Bool
  pagesSent : Int

def enumeratePages (pages : List Int) (onPage : ∀ page ∈ pages, 1 ≤ page) : PageMap where
  entries := (pages.zipIdx 1).map fun entry => ((entry.2 : Int), entry.1)
  onPage := by
    intro entry isIn
    obtain ⟨⟨page, index⟩, isPage, rfl⟩ := List.mem_map.mp isIn
    have place := (List.mem_zipIdx isPage).2.2
    exact onPage page (place ▸ List.getElem_mem _)

def allPages (pageCount : Int) : PageMap where
  entries := (pagesOf (1, pageCount)).map fun page => (page, page)
  onPage := by
    intro entry isIn
    obtain ⟨page, isPage, rfl⟩ := List.mem_map.mp isIn
    exact (mem_pagesOf.mp isPage).1

/-- `_require_valid_page` of each page -/
def checkPages (pageCount : Int) (pages : List Int) :
    Except CallError {pages : List Int // ∀ page ∈ pages, 1 ≤ page ∧ page ≤ pageCount} :=
  if valid : ∀ page ∈ pages, 1 ≤ page ∧ page ≤ pageCount then .ok ⟨pages, valid⟩ else .error .pageRange

/-- `narrow_document`: a slice that saves nothing gives way to the document. -/
def narrowDocument (env : CallEnv) (pages : List Int) : Except CallError PageMap :=
  (checkPages env.doc.pageCount pages).map fun pages =>
    if env.slims pages.1 then enumeratePages pages.1 fun page isIn => (pages.2 page isIn).1
    else allPages env.doc.pageCount

/-- The map of the clusters of a call, or none of a call with the whole document. -/
def clusterMap (env : CallEnv) (clusters : List Range) : Except CallError (Option PageMap) :=
  if clusters.isEmpty then .ok none else (narrowDocument env (clusters.flatMap pagesOf)).map some

def runCallOnce (env : CallEnv) (answer : Answer) (clusters : List Range) : Except CallError Attempt := do
  let pageMap ← clusterMap env clusters
  let formMarks := formMarkPages env.isBoolean env.hasFormFields env.metrics env.doc.routingText
  let images ← checkPages env.doc.pageCount (imagePages env.metrics env.doc.routingText formMarks)
  -- With form marks no document is sent, and the positions are those of the images.
  let effective :=
    if formMarks.isEmpty then pageMap else some (enumeratePages images.1 fun page isIn => (images.2 page isIn).1)
  let findings ← answer effective images.1
  .ok {
    remappedFindings := remapFindings env.fuzzy env.pageText findings effective
    droppedPages := droppedCitationPages findings effective
    narrowed := !clusters.isEmpty
    pagesSent := (effective.map fun pageMap => (pageMap.entries.length : Int)).getD env.doc.pageCount }

def retryClusters (clusters : List Range) (droppedPages : List Int) (originalPageCount : Int) : List Range :=
  if !droppedPages.isEmpty then widenClusters clusters droppedPages originalPageCount
  else growClusters clusters originalPageCount

structure CallResult where
  findings : List Finding
  narrowed : Bool
  pagesSent : Int
  retried : Bool

def Attempt.result (attempt : Attempt) (retried : Bool) : CallResult :=
  ⟨attempt.remappedFindings, attempt.narrowed, attempt.pagesSent, retried⟩

/-- `_run_call`, with the answers to the first call and to the retry. -/
def runCall (env : CallEnv) (answer retryAnswer : Answer) (windowKey : String) (paddedRanges : List (String × Range)) :
    Except CallError CallResult := do
  let clusters := pageClustersForGroup [windowKey] paddedRanges
  let attempt ← runCallOnce env answer clusters
  let wider := retryClusters clusters attempt.droppedPages env.doc.pageCount
  if attempt.narrowed && (attempt.remappedFindings.isEmpty || !attempt.droppedPages.isEmpty) && wider ≠ clusters then
    match runCallOnce env retryAnswer wider with
    | .error _ => .ok (attempt.result false)
    | .ok retry =>
      if attempt.remappedFindings.length ≤ retry.remappedFindings.length then .ok (retry.result true)
      else .ok (attempt.result true)
  else .ok (attempt.result false)

/-- The window of the isolated call in `retry_starved_domains`, for a domain with pages. -/
def starvedClusters (doc : Document) (domains : List BatchDomain) (domainId : String) : Option (List Range) :=
  ((paddedDomainRanges (routeDomains domains doc.routingText) doc.pageCount).lookup domainId).map fun range =>
    growClusters [range] doc.pageCount

section Clusters
variable {pageCount : Int} {routingText : RoutingText}

theorem lookup_padded {routing : List (String × Range)} {key : String} {range : Range}
    (routed : routing.lookup key = some range) : ∃ starts, (paddedDomainRanges routing pageCount).lookup key =
      some (padRange starts pageCount range) := by
  refine ⟨routing.map fun entry => entry.2.1, ?_⟩
  unfold paddedDomainRanges
  generalize routing.map (fun entry => entry.2.1) = starts
  induction routing with
  | nil => cases routed
  | cons entry rest ih =>
    rw [List.lookup_cons] at routed
    rw [List.map_cons, List.lookup_cons]
    split at routed
    case h_1 => exact congrArg (fun range => some (padRange starts pageCount range)) (Option.some.inj routed)
    case h_2 => exact ih routed

theorem lookup_routeBatches (plan : Plan) {batch : Batch} (isIn : batch ∈ plan.batches) :
    (routeBatches routingText plan.batches).lookup (batchKey batch) = spanOf (hintSpans routingText batch.hints) := by
  have distinct : ((routeBatches routingText plan.batches).map Prod.fst).Nodup := Upsert.nodup_dictOf _
  -- An entry under the key is that of the batch itself.
  have entries : ∀ entry ∈ routeBatches routingText plan.batches, entry.1 = batchKey batch →
      spanOf (hintSpans routingText batch.hints) = some entry.2 := by
    intro entry isEntry same
    have found := (Upsert.find?_key_iff distinct).mpr ⟨isEntry, same⟩
    rw [routeBatches, Upsert.find?_dictOf] at found
    obtain ⟨other, isOther, made⟩ := List.mem_filterMap.mp (List.mem_reverse.mp (List.mem_of_find?_eq_some found))
    obtain ⟨span, isSpan, rfl⟩ := Option.map_eq_some_iff.mp made
    obtain ⟨domain, index⟩ := batchKey_inj same
    rw [← plan.named other isOther batch isIn domain index]
    exact isSpan
  cases found : (routeBatches routingText plan.batches).lookup (batchKey batch) with
  | some range => exact (entries _ (Upsert.mem_of_lookup found) rfl).symm
  | none =>
    cases spans : spanOf (hintSpans routingText batch.hints) with
    | none => rfl
    | some span =>
      have listed : (batchKey batch, span) ∈ plan.batches.filterMap fun batch =>
          (spanOf (hintSpans routingText batch.hints)).map fun span => (batchKey batch, span) :=
        List.mem_filterMap.mpr ⟨batch, isIn, by rw [spans]; rfl⟩
      have keyed : batchKey batch ∈ (routeBatches routingText plan.batches).map Prod.fst := by
        rw [routeBatches, Upsert.mem_keys_dictOf]
        exact List.mem_map_of_mem (f := Prod.fst) listed
      rw [List.lookup_eq_none_iff] at found
      obtain ⟨entry, isEntry, same⟩ := List.mem_map.mp keyed
      have other := found entry isEntry
      rw [same, bne_self_eq_false] at other
      cases other

def batchClusters (doc : Document) (plan : Plan) (batch : Batch) : List Range :=
  pageClustersForGroup [batchKey batch] (paddedDomainRanges (routeBatches doc.routingText plan.batches) doc.pageCount)

theorem batchClusters_eq (doc : Document) (plan : Plan) {batch : Batch} (isIn : batch ∈ plan.batches) :
    batchClusters doc plan batch = [] ∧ hintSpans doc.routingText batch.hints = [] ∨
      ∃ span starts, spanOf (hintSpans doc.routingText batch.hints) = some span ∧
        batchClusters doc plan batch = mergePageRanges [padRange starts doc.pageCount span] := by
  have routed := @lookup_routeBatches doc.routingText plan batch isIn
  unfold batchClusters pageClustersForGroup
  cases spans : spanOf (hintSpans doc.routingText batch.hints) with
  | none =>
    left
    rw [spans] at routed
    have unpadded : (paddedDomainRanges (routeBatches doc.routingText plan.batches) doc.pageCount).lookup
        (batchKey batch) = none := by
      rw [List.lookup_eq_none_iff] at routed ⊢
      intro entry isEntry
      obtain ⟨other, isOther, rfl⟩ := List.mem_map.mp isEntry
      exact routed other isOther
    have none : hintSpans doc.routingText batch.hints = [] := by
      by_contra some
      obtain ⟨span, isSpan⟩ := spanOf_isSome some
      rw [isSpan] at spans
      cases spans
    simp [unpadded, none]
  | some span =>
    right
    obtain ⟨starts, padded⟩ := @lookup_padded doc.pageCount _ _ _ (routed.trans spans)
    exact ⟨span, starts, rfl, by simp [padded]⟩

theorem batchClusters_spec (doc : Document) (plan : Plan) {batch : Batch} (isIn : batch ∈ plan.batches) :
    Apart 2 (batchClusters doc plan batch) ∧
      (∀ cluster ∈ batchClusters doc plan batch, Inside cluster (1, doc.pageCount)) ∧
      ∀ hint ∈ batch.hints, hitPagesForHints doc.routingText [hint] ≠ [] →
        ∃ cluster ∈ batchClusters doc plan batch, Inside (densestHitSpan (hitPagesForHints doc.routingText [hint])) cluster := by
  obtain ⟨none, unrouted⟩ | ⟨span, starts, isSpan, clusters⟩ := batchClusters_eq doc plan isIn
  · rw [none]
    refine ⟨Apart.nil 2, nofun, fun hint isHint some => ?_⟩
    have spans := mem_hintSpans isHint some
    rw [unrouted] at spans
    cases spans
  · obtain ⟨inside, ⟨first, firstIn, isFirst⟩, last, lastIn, isLast⟩ := spanOf_inside isSpan
    have hints := hintSpans_spec doc.within batch.hints
    have within : 1 ≤ span.1 ∧ span.2 ≤ doc.pageCount :=
      ⟨isFirst ▸ (hints first firstIn).1, isLast ▸ (hints last lastIn).2.2⟩
    have filled : span.1 ≤ span.2 := by
      rw [← isFirst]
      exact (hints first firstIn).2.1.trans (inside first firstIn).2
    obtain ⟨padded, bounded⟩ := @padRange_spec doc.pageCount starts span within filled
    have ordered : (padRange starts doc.pageCount span).1 ≤ (padRange starts doc.pageCount span).2 :=
      padded.1.trans (filled.trans padded.2)
    obtain ⟨apart, bounds, around⟩ := @merge_spec doc.pageCount [padRange starts doc.pageCount span]
      (fun range isIn => List.mem_singleton.mp isIn ▸ ordered) (fun range isIn => List.mem_singleton.mp isIn ▸ bounded)
    rw [clusters]
    refine ⟨apart, bounds, fun hint isHint some => ?_⟩
    obtain ⟨cluster, isCluster, holds⟩ := around _ (List.mem_singleton_self _)
    exact ⟨cluster, isCluster, ((inside _ (mem_hintSpans isHint some)).trans padded).trans holds⟩

theorem retryClusters_widens {clusters : List Range} (some : clusters ≠ []) (apart : Apart 2 clusters)
    (within : ∀ cluster ∈ clusters, Inside cluster (1, pageCount)) (droppedPages : List Int) :
    Widens pageCount clusters droppedPages (retryClusters clusters droppedPages pageCount) := by
  obtain ⟨cluster, isIn⟩ := List.exists_mem_of_ne_nil clusters some
  have bounds := within cluster isIn
  have filled := apart.filled cluster isIn
  have one : 1 ≤ pageCount := bounds.1.trans (filled.trans bounds.2)
  unfold retryClusters
  cases droppedPages with
  | nil => exact growClusters_widens one apart.filled within
  | cons page rest => exact widenClusters_widens one apart.filled within (page :: rest)

end Clusters

section Kept
variable {fuzzy : Fuzzy} {pageText : List (Int × String)}

theorem remapFinding_some {pageMap : PageMap} {cited kept : Finding}
    (remapped : remapFinding fuzzy pageText pageMap cited = some kept) :
    (∃ onPage, kept = withPage cited kept.pageNumber onPage) ∧ kept.pageNumber ∈ pageMap.pages ∧
      (pageMap.entries.lookup cited.pageNumber = some kept.pageNumber ∨ kept.pageNumber = cited.pageNumber) := by
  unfold remapFinding at remapped
  split at remapped
  case h_1 => cases remapped
  case h_2 page resolved =>
    obtain ⟨isIn, reading⟩ := resolve_page resolved
    cases remapped
    exact ⟨⟨_, rfl⟩, isIn, reading⟩

theorem remapFinding_none_iff {pageMap : PageMap} {cited : Finding} : remapFinding fuzzy pageText pageMap cited = none ↔
    (resolveCitedPage (fun _ _ => false) cited.pageNumber pageMap "" []).originalPage = none := by
  have same : (resolveCitedPage fuzzy cited.pageNumber pageMap cited.excerpt pageText).originalPage = none ↔
      (resolveCitedPage (fun _ _ => false) cited.pageNumber pageMap "" []).originalPage = none :=
    resolve_none_iff.trans resolve_none_iff.symm
  rw [← same]
  unfold remapFinding
  split
  case h_1 none => simp [none]
  case h_2 page resolved => simp [resolved]

theorem droppedCitationPages_eq (findings : List Finding) (pageMap : PageMap) :
    droppedCitationPages findings (some pageMap) =
      (findings.filter fun finding => (remapFindings fuzzy pageText [finding] (some pageMap)).isEmpty).map
        Finding.pageNumber := by
  refine congrArg (List.map _) (List.filter_congr fun finding _ => ?_)
  have none := @remapFinding_none_iff fuzzy pageText pageMap finding
  rw [Bool.eq_iff_iff, decide_eq_true_eq, ← none, remapFindings, List.isEmpty_iff, List.filterMap_eq_nil_iff]
  simp

end Kept

section Calls
variable {env : CallEnv} {answer : Answer} {clusters : List Range} {attempt : Attempt}

theorem mem_enumeratePages {pages : List Int} (onPage : ∀ page ∈ pages, 1 ≤ page) {page : Int}
    (isIn : page ∈ (enumeratePages pages onPage).pages) : page ∈ pages := by
  obtain ⟨entry, isEntry, rfl⟩ := List.mem_map.mp isIn
  obtain ⟨⟨page, index⟩, isPage, rfl⟩ := List.mem_map.mp isEntry
  exact (List.mem_zipIdx isPage).2.2 ▸ List.getElem_mem _

theorem mem_allPages {pageCount page : Int} (isIn : page ∈ (allPages pageCount).pages) : 1 ≤ page ∧ page ≤ pageCount := by
  obtain ⟨entry, isEntry, rfl⟩ := List.mem_map.mp isIn
  obtain ⟨page, isPage, rfl⟩ := List.mem_map.mp isEntry
  exact mem_pagesOf.mp isPage

theorem clusterMap_within (some : clusters ≠ []) {mapped : Option PageMap} (isMapped : clusterMap env clusters = .ok mapped) :
    ∃ pageMap, mapped = .some pageMap ∧ ∀ page ∈ pageMap.pages, 1 ≤ page ∧ page ≤ env.doc.pageCount := by
  unfold clusterMap at isMapped
  rw [if_neg (by simpa using some)] at isMapped
  obtain ⟨pageMap, narrowed, rfl⟩ := Fallible.map_ok_iff.mp isMapped
  obtain ⟨⟨pages, valid⟩, -, rfl⟩ := Fallible.map_ok_iff.mp narrowed
  refine ⟨_, rfl, fun page isIn => ?_⟩
  split at isIn
  case isTrue => exact valid page (mem_enumeratePages _ isIn)
  case isFalse => exact mem_allPages isIn

theorem runCallOnce_narrowed (some : clusters ≠ []) (ran : runCallOnce env answer clusters = .ok attempt) :
    ∃ pageMap images findings, answer (.some pageMap) images = .ok findings ∧
      (∀ page ∈ pageMap.pages, 1 ≤ page ∧ page ≤ env.doc.pageCount) ∧
      attempt.remappedFindings = remapFindings env.fuzzy env.pageText findings (.some pageMap) ∧
      attempt.droppedPages = droppedCitationPages findings (.some pageMap) := by
  obtain ⟨mapped, isMapped, ran⟩ := Fallible.bind_ok_iff.mp ran
  obtain ⟨⟨images, valid⟩, -, ran⟩ := Fallible.bind_ok_iff.mp ran
  obtain ⟨findings, answered, ran⟩ := Fallible.bind_ok_iff.mp ran
  obtain ⟨pageMap, rfl, within⟩ := clusterMap_within some isMapped
  obtain rfl := Except.ok.inj ran
  dsimp only at answered ⊢
  split at answered
  case isTrue document =>
    rw [if_pos document]
    exact ⟨pageMap, images, findings, answered, within, rfl, rfl⟩
  case isFalse marked =>
    rw [if_neg marked]
    exact ⟨_, images, findings, answered, fun page isIn => valid page (mem_enumeratePages _ isIn), rfl, rfl⟩

theorem runCallOnce_within (some : clusters ≠ []) (ran : runCallOnce env answer clusters = .ok attempt) :
    ∀ finding ∈ attempt.remappedFindings, 1 ≤ finding.pageNumber ∧ finding.pageNumber ≤ env.doc.pageCount := by
  obtain ⟨pageMap, -, findings, -, within, kept, -⟩ := runCallOnce_narrowed some ran
  intro finding isIn
  rw [kept] at isIn
  obtain ⟨cited, -, remapped⟩ := List.mem_filterMap.mp isIn
  exact within _ (remapFinding_some remapped).2.1

/-- Whatever comes of the retry, the batch has the findings of its first call or as many of
the second one's. -/
theorem runCall_attempt (retryAnswer : Answer) {windowKey : String} {paddedRanges : List (String × Range)} {first : Attempt}
    (isFirst : runCallOnce env answer (pageClustersForGroup [windowKey] paddedRanges) = .ok first) :
    ∃ result, runCall env answer retryAnswer windowKey paddedRanges = .ok result ∧
      (result.findings = first.remappedFindings ∨
        ∃ retry, runCallOnce env retryAnswer
            (retryClusters (pageClustersForGroup [windowKey] paddedRanges) first.droppedPages env.doc.pageCount) = .ok retry ∧
          first.narrowed = true ∧ first.remappedFindings.length ≤ retry.remappedFindings.length ∧
          result.findings = retry.remappedFindings) := by
  have ran : runCall env answer retryAnswer windowKey paddedRanges = (Except.ok first).bind _ := congrArg (· >>= _) isFirst
  rw [ran]
  dsimp only [Except.bind]
  split
  case isTrue needed =>
    split
    case h_1 => exact ⟨_, rfl, Or.inl rfl⟩
    case h_2 retry isRetry =>
      split
      case isTrue more =>
        simp only [Bool.and_eq_true] at needed
        exact ⟨_, rfl, Or.inr ⟨retry, isRetry, needed.1.1, more, rfl⟩⟩
      case isFalse => exact ⟨_, rfl, Or.inl rfl⟩
  case isFalse => exact ⟨_, rfl, Or.inl rfl⟩

theorem runCallOnce_isNarrowed (ran : runCallOnce env answer clusters = .ok attempt) (narrowed : attempt.narrowed = true) :
    clusters ≠ [] := by
  obtain ⟨mapped, -, ran⟩ := Fallible.bind_ok_iff.mp ran
  obtain ⟨images, -, ran⟩ := Fallible.bind_ok_iff.mp ran
  obtain ⟨findings, -, ran⟩ := Fallible.bind_ok_iff.mp ran
  obtain rfl := Except.ok.inj ran
  simpa using narrowed

/-- The retry of a batch loses none of its first call's findings and looks in a wider window. -/
theorem retry_keeps_findings (plan : Plan) {batch : Batch} (isIn : batch ∈ plan.batches) (retryAnswer : Answer) {first : Attempt}
    (isFirst : runCallOnce env answer (batchClusters env.doc plan batch) = .ok first) :
    ∃ result, runCall env answer retryAnswer (batchKey batch)
        (paddedDomainRanges (routeBatches env.doc.routingText plan.batches) env.doc.pageCount) = .ok result ∧
      first.remappedFindings.length ≤ result.findings.length ∧
      (batchClusters env.doc plan batch ≠ [] → ∀ finding ∈ result.findings,
        1 ≤ finding.pageNumber ∧ finding.pageNumber ≤ env.doc.pageCount) ∧
      (result.findings = first.remappedFindings ∨ ∃ wider retry,
        Widens env.doc.pageCount (batchClusters env.doc plan batch) first.droppedPages wider ∧
        runCallOnce env retryAnswer wider = .ok retry ∧ result.findings = retry.remappedFindings) := by
  obtain ⟨apart, bounds, -⟩ := batchClusters_spec env.doc plan isIn
  obtain ⟨result, ran, same | ⟨retry, isRetry, narrowed, more, same⟩⟩ := runCall_attempt retryAnswer isFirst
  · refine ⟨result, ran, same ▸ le_rfl, fun some => ?_, Or.inl same⟩
    rw [same]
    exact runCallOnce_within some isFirst
  · have widens := retryClusters_widens (runCallOnce_isNarrowed isFirst narrowed) apart bounds first.droppedPages
    refine ⟨result, ran, same ▸ more, fun some => ?_, Or.inr ⟨_, retry, widens, isRetry, same⟩⟩
    obtain ⟨cluster, isCluster⟩ := List.exists_mem_of_ne_nil _ some
    obtain ⟨other, isOther, -⟩ := widens.around cluster isCluster
    rw [same]
    exact runCallOnce_within (List.ne_nil_of_mem isOther) isRetry

def aidBatch : Batch := ⟨"aid", 0, plainDomain.metrics, ["H1", "H14"]⟩

def aidPlan : Plan := ⟨[aidBatch], by simp +contextual⟩

def aidEnv : CallEnv where
  doc := ⟨30, [(12, "H1 Aid awarded")], by simp [Within]⟩
  metrics := plainDomain.metrics
  isBoolean _ := false
  hasFormFields := false
  pageText := []
  fuzzy _ _ := false
  slims _ := true

theorem retry_keeps_findings_silent : batchClusters aidEnv.doc aidPlan aidBatch = [(10, 20)] ∧
    ∃ result, runCall aidEnv (fun _ _ => .ok []) (fun _ _ => .error (.model "timeout")) (batchKey aidBatch)
        (paddedDomainRanges (routeBatches aidEnv.doc.routingText aidPlan.batches) aidEnv.doc.pageCount) = .ok result ∧
      0 ≤ result.findings.length := by
  refine ⟨by decide +kernel, ?_⟩
  obtain ⟨result, ran, kept, -⟩ := @retry_keeps_findings aidEnv (fun _ _ => .ok []) aidPlan _
    (List.mem_singleton_self aidBatch) (fun _ _ => .error (.model "timeout")) _ rfl
  exact ⟨result, ran, kept⟩

theorem routed_domain {doc : Document} {domains : List BatchDomain} {entry : String × Range}
    (isIn : entry ∈ routeDomains domains doc.routingText) : ∃ domain ∈ domains, domain.id = entry.1 ∧
      Inside entry.2 (1, doc.pageCount) ∧ entry.2.1 ≤ entry.2.2 ∧
      ∀ hit ∈ hitPagesForHints doc.routingText (metricHints domain.metrics), Inside (hit, hit) entry.2 := by
  have found := (Upsert.find?_key_iff (Upsert.nodup_dictOf _)).mpr ⟨isIn, rfl⟩
  rw [Upsert.find?_dictOf] at found
  obtain ⟨domain, isDomain, routed⟩ := List.mem_filterMap.mp (List.mem_reverse.mp (List.mem_of_find?_eq_some found))
  dsimp only at routed
  split at routed
  case h_1 first last isFirst isLast =>
    cases routed
    obtain ⟨firstIn, least⟩ := List.min?_eq_some_iff.mp isFirst
    obtain ⟨lastIn, greatest⟩ := List.max?_eq_some_iff.mp isLast
    have within := hits_within doc.within (metricHints domain.metrics)
    exact ⟨domain, isDomain, rfl, ⟨(within _ firstIn).1, (within _ lastIn).2⟩, least _ lastIn,
      fun hit isHit => ⟨least hit isHit, greatest hit isHit⟩⟩
  case h_2 => cases routed

/-- The isolated call for a domain without facts is sent every page with a code of the domain,
and cites pages of the document. -/
theorem starved_window (doc : Document) (domains : List BatchDomain) {domainId : String} {clusters : List Range}
    (isWindow : starvedClusters doc domains domainId = some clusters) :
    Apart 2 clusters ∧ (∀ cluster ∈ clusters, Inside cluster (1, doc.pageCount)) ∧
      (∃ domain ∈ domains, domain.id = domainId ∧
        ∀ hit ∈ hitPagesForHints doc.routingText (metricHints domain.metrics), ∃ cluster ∈ clusters,
          Inside (hit, hit) cluster) ∧
      ∀ env answer attempt, env.doc = doc → runCallOnce env answer clusters = .ok attempt →
        ∀ finding ∈ attempt.remappedFindings, 1 ≤ finding.pageNumber ∧ finding.pageNumber ≤ doc.pageCount := by
  obtain ⟨range, isRange, rfl⟩ := Option.map_eq_some_iff.mp isWindow
  obtain ⟨entry, isEntry, same⟩ := List.mem_map.mp (Upsert.mem_of_lookup isRange)
  obtain ⟨rfl, rfl⟩ := Prod.mk.inj same
  obtain ⟨domain, isDomain, named, within, filled, hits⟩ := routed_domain isEntry
  obtain ⟨padded, bounded⟩ := @padRange_spec doc.pageCount
    ((routeDomains domains doc.routingText).map fun entry => entry.2.1) entry.2 within filled
  have widens := @growClusters_widens doc.pageCount [padRange _ doc.pageCount entry.2]
    (within.1.trans (filled.trans within.2))
    (fun range isIn => List.mem_singleton.mp isIn ▸ padded.1.trans (filled.trans padded.2))
    (fun range isIn => List.mem_singleton.mp isIn ▸ bounded)
  obtain ⟨wider, isWider, around⟩ := widens.around _ (List.mem_singleton_self _)
  refine ⟨widens.apart, widens.within, ⟨domain, isDomain, named, fun hit isHit => ?_⟩, ?_⟩
  · exact ⟨wider, isWider, ((hits hit isHit).trans padded).trans around⟩
  · rintro env answer attempt rfl ran
    exact runCallOnce_within (List.ne_nil_of_mem isWider) ran

theorem starved_window_aid : starvedClusters aidEnv.doc [plainDomain] "aid" = some [(4, 26)] ∧
    Apart 2 [((4 : Int), (26 : Int))] :=
  have isWindow : starvedClusters aidEnv.doc [plainDomain] "aid" = some [(4, 26)] := by decide +kernel
  ⟨isWindow, (starved_window aidEnv.doc [plainDomain] isWindow).1⟩

end Calls

theorem packet_pages {args : BuildArgs} {packet : Packet} (fresh : args.baseMetrics = none)
    (built : buildPacket args = .ok packet) : ∀ metric ∈ packet.metrics, ∀ evidence, metric.2.evidence = some evidence →
      1 ≤ evidence.pageNumber ∧ evidence.pageNumber ≤ args.documentPageCount := by
  obtain ⟨entries, verdicts, hash, defined, collected, pairs, -, -⟩ := buildPacket_ok built
  intro metric isIn evidence isEvidence
  obtain ⟨entry, isEntry, -, resolved⟩ := Fallible.forall₂_mem_left pairs.flip metric isIn
  have sorted := collectClaims_sorted (nodup_definitions defined) collected isEntry
  have outcome : metricOutcome (claimsOf verdicts entry.1) (errorsOf verdicts entry.1) = .ok metric.2 := by
    rw [resolveMetric, fresh] at resolved
    split at resolved
    case h_1 none => cases none
    case h_2 => exact resolved
  obtain ⟨outcomes, -, resolves⟩ := metricOutcome_ok_iff.mp outcome
  rw [sorted.claims] at resolves
  generalize metric.2 = resolved at resolves isEvidence
  cases resolves with
  | none =>
    generalize errorsOf verdicts entry.1 = errors at isEvidence
    cases errors with
    | nil => cases isEvidence
    | cons code rest => cases isEvidence
  | agreed _ _ isLeading =>
    obtain ⟨finding, isFinding, isClaim⟩ := List.mem_filterMap.mp (pyMin_mem isLeading)
    obtain ⟨-, last⟩ := claim_within isClaim
    obtain ⟨value, -, rfl⟩ := claim_of_finding isClaim
    cases isEvidence
    exact ⟨finding.onPage, last⟩
  | conflict => cases isEvidence

/-- Where a run looks is in order and apart, holds what it looks for and stays so when it looks
again; what a narrowed call keeps stands on a page of its map; and no packet leaves the document. -/
theorem stored_citation_shown (doc : Document) (plan : Plan) :
    (∀ batch ∈ plan.batches,
      let clusters := batchClusters doc plan batch
      Apart 2 clusters ∧ (∀ cluster ∈ clusters, Inside cluster (1, doc.pageCount)) ∧
      (∀ hint ∈ batch.hints, hitPagesForHints doc.routingText [hint] ≠ [] →
        ∃ run ∈ hitClusters (hitPagesForHints doc.routingText [hint]),
          (∀ other ∈ hitClusters (hitPagesForHints doc.routingText [hint]), denser other run = false) ∧
          ∃ cluster ∈ clusters, ∀ page ∈ run, Inside (page, page) cluster) ∧
      (clusters ≠ [] → ∀ droppedPages, Widens doc.pageCount clusters droppedPages
        (retryClusters clusters droppedPages doc.pageCount))) ∧
    (∀ env answer clusters attempt, env.doc = doc → clusters ≠ [] → runCallOnce env answer clusters = .ok attempt →
      ∃ pageMap images findings, answer (some pageMap) images = .ok findings ∧
        (∀ page ∈ pageMap.pages, 1 ≤ page ∧ page ≤ doc.pageCount) ∧
        (∀ kept ∈ attempt.remappedFindings, ∃ cited ∈ findings,
          (∃ onPage, kept = withPage cited kept.pageNumber onPage) ∧ kept.pageNumber ∈ pageMap.pages ∧
          (pageMap.entries.lookup cited.pageNumber = some kept.pageNumber ∨ kept.pageNumber = cited.pageNumber)) ∧
        attempt.droppedPages = (findings.filter fun finding =>
          (remapFindings env.fuzzy env.pageText [finding] (some pageMap)).isEmpty).map Finding.pageNumber) ∧
    (∀ args packet, args.documentPageCount = doc.pageCount → args.baseMetrics = none → buildPacket args = .ok packet →
      ∀ metric ∈ packet.metrics, ∀ evidence, metric.2.evidence = some evidence →
        1 ≤ evidence.pageNumber ∧ evidence.pageNumber ≤ doc.pageCount) := by
  refine ⟨?clusters, ?calls, ?packets⟩
  case clusters =>
    intro batch isIn
    obtain ⟨apart, within, around⟩ := batchClusters_spec doc plan isIn
    refine ⟨apart, within, fun hint isHint some => ?_, fun some => retryClusters_widens some apart within⟩
    obtain ⟨cluster, isCluster, holds⟩ := around hint isHint some
    obtain ⟨-, -, -, spans⟩ := densestHitSpan_spec some (hits_sorted doc.routingText [hint])
    refine ⟨_, densestCluster_mem some, densestCluster_densest some, cluster, isCluster, fun page isPage => ?_⟩
    exact Inside.trans (spans page isPage) holds
  case calls =>
    rintro env answer clusters attempt rfl some ran
    obtain ⟨pageMap, images, findings, answered, within, kept, dropped⟩ := runCallOnce_narrowed some ran
    refine ⟨pageMap, images, findings, answered, within, fun finding isKept => ?_, ?_⟩
    · rw [kept] at isKept
      obtain ⟨cited, isCited, remapped⟩ := List.mem_filterMap.mp isKept
      exact ⟨cited, isCited, remapFinding_some remapped⟩
    · rw [dropped]
      exact droppedCitationPages_eq findings pageMap
  case packets =>
    intro args packet pages fresh built
    rw [← pages]
    exact packet_pages fresh built

end Counselle.Cds.Citations
