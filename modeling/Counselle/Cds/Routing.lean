import Counselle.Cds.Batching
import Counselle.Cds.ClaimOrder
import Counselle.Cds.Pages
import Counselle.PyRegex
import Counselle.Text

/-! Where a run looks for its metrics, `routing.py`: the pages whose lines start with the code
of a section, the densest run of them, and the span of a batch. -/
namespace Counselle.Cds.Routing
open Batching Pages Ranges
open PyRegex (Regex)
open PyText (isSpace strip)

abbrev RoutingText := List (Int × String)

def isLineBreak (c : Char) : Bool :=
  c ∈ ['\n', '\r', '\x0b', '\x0c', '\x1c', '\x1d', '\x1e', '\u0085', '\u2028', '\u2029']

/-- `str.splitlines`, with the front of the line in hand reversed. -/
def splitlines (line : List Char) : List Char → List (List Char)
  | [] => if line.isEmpty then [] else [line.reverse]
  | '\r' :: '\n' :: rest => line.reverse :: splitlines [] rest
  | c :: rest => if isLineBreak c then line.reverse :: splitlines [] rest else splitlines (c :: line) rest

/-- `-` and `_HINT_DASH_CHARS` -/
def isHintDash (c : Char) : Bool := c ∈ ['-', '\u2010', '\u2011', '\u2012', '\u2013', '\u2014', '\u2212']

/-- `_hint_pattern` in front of its lookahead: a dash may be missing, another one or between blanks. -/
def hintPattern (hint : List Char) : Regex :=
  hint.foldr (fun c rest =>
    if c = '-' then .seq (.many isSpace) (.seq (.opt (.char isHintDash)) (.seq (.many isSpace) rest))
    else .seq (Regex.lit c) rest) .empty

/-- `(?![0-9A-Za-z])` -/
def endsCode : List Char → Bool
  | [] => true
  | c :: _ => !c.isAlphanum

def hintMatches (hint : String) (line : List Char) : Bool :=
  ((hintPattern hint.toList).run line).any fun m => endsCode m.rest

def pageLines (text : String) : List (List Char) :=
  (splitlines [] (text.toList.map fun c => if c = '\u00a0' then ' ' else c)).map strip

def hitPagesForHints (routingText : RoutingText) (hints : List String) : List Int :=
  ((routingText.insertionSort fun a b => a.1 ≤ b.1).filter fun page =>
    (pageLines page.2).any fun line => hints.any fun hint => hintMatches hint line).map Prod.fst

/-- `_metric_hints` and the hints of a batch -/
def metricHints (metrics : List BatchMetric) : List String := metrics.flatMap BatchMetric.sourceHints

def hitClusterGap : Int := 3

/-- The clusters of `_densest_hit_span`. -/
def hitClusters (hits : List Int) : List (List Int) := hits.splitBy fun last page => !(page - last > hitClusterGap)

/-- The order that `max` ranks clusters by. -/
def denser (a b : List Int) : Bool :=
  b.length < a.length || b.length = a.length && b.getLast?.getD 0 < a.getLast?.getD 0

def densestCluster (hits : List Int) : List Int := (pyMin denser (hitClusters hits)).getD []

/-- `_densest_hit_span`, of hits -/
def densestHitSpan (hits : List Int) : Range :=
  let best := densestCluster hits
  (best.head?.getD 0, best.getLast?.getD 0)

def spanOf (spans : List Range) : Option Range :=
  match (spans.map Prod.fst).min?, (spans.map Prod.snd).max? with
  | some first, some last => some (first, last)
  | _, _ => none

def hintSpans (routingText : RoutingText) (hints : List String) : List Range :=
  ((hints.map fun hint => hitPagesForHints routingText [hint]).filter (!·.isEmpty)).map densestHitSpan

def batchKey (batch : Batch) : String := batch.domainId ++ "#" ++ toString batch.batchIndex

def routeBatches (routingText : RoutingText) (batches : List Batch) : List (String × Range) :=
  Upsert.dictOf Prod.fst (batches.filterMap fun batch =>
    (spanOf (hintSpans routingText batch.hints)).map fun span => (batchKey batch, span))

def routeDomains (domains : List BatchDomain) (routingText : RoutingText) : List (String × Range) :=
  Upsert.dictOf Prod.fst (domains.filterMap fun domain =>
    let hits := hitPagesForHints routingText (metricHints domain.metrics)
    match hits.min?, hits.max? with
    | some first, some last => some (domain.id, (first, last))
    | _, _ => none)

def checkboxGridHint : String := "C7"

def columnPositionHints : List String := ["C9", "C15", "C16", "D5", "H12", "H13", "H14"]

def checkboxGridMaxPages : Nat := 2

def formMarkMaxPages : Nat := 4

/-- `range(first, last + 1)` -/
def pagesOf (range : Range) : List Int :=
  (List.range (range.2 + 1 - range.1).toNat).map fun (offset : Nat) => range.1 + offset

def spanRank (span : Range) (hits : List Int) : Nat × Int :=
  (hits.countP fun hit => span.1 ≤ hit && hit ≤ span.2, span.2)

def ranksLower (a b : Nat × Int) : Bool := a.1 < b.1 || a.1 = b.1 && a.2 < b.2

/-- `sorted(set(hints))` -/
def sortedHints (metrics : List BatchMetric) : List String :=
  (Upsert.dictOf id (metricHints metrics)).insertionSort fun a b => textLess b.toList a.toList = false

/-- `_form_mark_pages`; `isBoolean` reads the type of a metric. -/
def formMarkPages (isBoolean : BatchMetric → Bool) (hasFormFields : Bool) (metrics : List BatchMetric)
    (routingText : RoutingText) : List Int :=
  if !metrics.all isBoolean || !hasFormFields then []
  else
    let perHint := (sortedHints metrics).map fun hint => hitPagesForHints routingText [hint]
    let spans := (perHint.filter (!·.isEmpty)).map fun hits => (densestHitSpan hits, hits)
    let ranked := spans.insertionSort fun a b => ranksLower (spanRank a.1 a.2) (spanRank b.1 b.2) = false
    let ordered := Upsert.dictOf id (ranked.flatMap fun span => pagesOf span.1)
    (ordered.take formMarkMaxPages).insertionSort (· ≤ ·)

/-- The pages of `_c7_supplementary_images`. -/
def imagePages (metrics : List BatchMetric) (routingText : RoutingText) (formMarks : List Int) : List Int :=
  let gridHints := (metricHints metrics).filter fun hint => hint = checkboxGridHint || hint ∈ columnPositionHints
  let hits := if gridHints.isEmpty then [] else hitPagesForHints routingText gridHints
  let gridPages := if hits.isEmpty then [] else (pagesOf (densestHitSpan hits)).take checkboxGridMaxPages
  (Upsert.dictOf id (gridPages ++ formMarks)).insertionSort (· ≤ ·)

def Within (pageCount : Int) (routingText : RoutingText) : Prop := ∀ page ∈ routingText, 1 ≤ page.1 ∧ page.1 ≤ pageCount

theorem hits_within {pageCount : Int} {routingText : RoutingText} (within : Within pageCount routingText)
    (hints : List String) : ∀ hit ∈ hitPagesForHints routingText hints, 1 ≤ hit ∧ hit ≤ pageCount := by
  intro hit isIn
  obtain ⟨page, isPage, rfl⟩ := List.mem_map.mp isIn
  exact within page ((List.perm_insertionSort _ routingText).mem_iff.mp (List.mem_of_mem_filter isPage))

theorem hits_sorted (routingText : RoutingText) (hints : List String) :
    (hitPagesForHints routingText hints).Pairwise (· ≤ ·) := by
  have total : Std.Total fun a b : Int × String => a.1 ≤ b.1 := ⟨fun a b => le_total a.1 b.1⟩
  have trans : IsTrans (Int × String) fun a b => a.1 ≤ b.1 := ⟨fun _ _ _ => le_trans⟩
  exact List.pairwise_map.mpr ((List.pairwise_insertionSort _ routingText).filter _)

theorem mem_pagesOf {range : Range} {page : Int} : page ∈ pagesOf range ↔ range.1 ≤ page ∧ page ≤ range.2 := by
  constructor
  · intro isIn
    obtain ⟨offset, isOffset, rfl⟩ := List.mem_map.mp isIn
    have short := List.mem_range.mp isOffset
    omega
  · rintro ⟨low, high⟩
    refine List.mem_map.mpr ⟨(page - range.1).toNat, List.mem_range.mpr ?_, ?_⟩
    · omega
    · omega

section Densest
variable {hits : List Int}

theorem densestCluster_mem (some : hits ≠ []) : densestCluster hits ∈ hitClusters hits := by
  obtain ⟨best, isBest⟩ := @pyMin_isSome _ denser (hitClusters hits) (List.splitBy_ne_nil.mpr some)
  rw [densestCluster, isBest]
  exact pyMin_mem isBest

theorem densestCluster_densest (some : hits ≠ []) : ∀ cluster ∈ hitClusters hits, denser cluster (densestCluster hits) = false := by
  intro cluster isIn
  obtain ⟨best, isBest⟩ := @pyMin_isSome _ denser (hitClusters hits) (List.splitBy_ne_nil.mpr some)
  rw [densestCluster, isBest, Option.getD_some]
  let rank (cluster : List Int) : Lex (Nat × Int) := toLex (cluster.length, cluster.getLast?.getD 0)
  have ranked (a b : List Int) : denser a b = true ↔ OrderDual.toDual (rank a) < OrderDual.toDual (rank b) := by
    rw [OrderDual.toDual_lt_toDual, Prod.Lex.toLex_lt_toLex, denser, Bool.or_eq_true, Bool.and_eq_true, decide_eq_true_eq,
      decide_eq_true_eq, decide_eq_true_eq, eq_comm (a := b.length)]
  have least := rank_pyMin_le (fun cluster => OrderDual.toDual (rank cluster)) ranked isBest cluster isIn
  rw [← Bool.not_eq_true, ranked]
  exact not_lt.mpr least

theorem cluster_sublist {cluster : List Int} (isIn : cluster ∈ hitClusters hits) : cluster.Sublist hits := by
  have part := List.sublist_flatten_of_mem isIn
  rwa [hitClusters, List.flatten_splitBy] at part

theorem densestHitSpan_spec (some : hits ≠ []) (sorted : hits.Pairwise (· ≤ ·)) :
    (densestHitSpan hits).1 ∈ hits ∧ (densestHitSpan hits).2 ∈ hits ∧
      (densestHitSpan hits).1 ≤ (densestHitSpan hits).2 ∧
      ∀ page ∈ densestCluster hits, (densestHitSpan hits).1 ≤ page ∧ page ≤ (densestHitSpan hits).2 := by
  have isIn := densestCluster_mem some
  have part := cluster_sublist isIn
  have filled : densestCluster hits ≠ [] := List.ne_nil_of_mem_splitBy isIn
  have ordered := sorted.sublist part
  have first : (densestHitSpan hits).1 = (densestCluster hits).head filled := by
    rw [densestHitSpan, List.head?_eq_some_head filled]
    rfl
  have last : (densestHitSpan hits).2 = (densestCluster hits).getLast filled := by
    rw [densestHitSpan, List.getLast?_eq_some_getLast filled]
    rfl
  have bounds : ∀ page ∈ densestCluster hits,
      (densestCluster hits).head filled ≤ page ∧ page ≤ (densestCluster hits).getLast filled :=
    fun page isPage => ⟨ordered.rel_head isPage, ordered.rel_getLast isPage⟩
  rw [first, last]
  exact ⟨part.subset (List.head_mem filled), part.subset (List.getLast_mem filled),
    (bounds _ (List.getLast_mem filled)).1, bounds⟩

end Densest

theorem spanOf_inside {spans : List Range} {span : Range} (isSpan : spanOf spans = some span) :
    (∀ inner ∈ spans, Inside inner span) ∧ (∃ first ∈ spans, first.1 = span.1) ∧ ∃ last ∈ spans, last.2 = span.2 := by
  unfold spanOf at isSpan
  split at isSpan
  case h_1 first last isFirst isLast =>
    cases isSpan
    obtain ⟨firstIn, least⟩ := List.min?_eq_some_iff.mp isFirst
    obtain ⟨lastIn, greatest⟩ := List.max?_eq_some_iff.mp isLast
    refine ⟨fun inner isIn => ⟨least _ (List.mem_map_of_mem isIn), greatest _ (List.mem_map_of_mem isIn)⟩, ?_, ?_⟩
    · exact List.mem_map.mp firstIn
    · exact List.mem_map.mp lastIn
  case h_2 => cases isSpan

theorem spanOf_isSome {spans : List Range} (some : spans ≠ []) : ∃ span, spanOf spans = .some span := by
  have first := List.isSome_min?_of_ne_nil (l := spans.map Prod.fst) (by simpa using some)
  have last := List.isSome_max?_of_ne_nil (l := spans.map Prod.snd) (by simpa using some)
  obtain ⟨first, isFirst⟩ := Option.isSome_iff_exists.mp first
  obtain ⟨last, isLast⟩ := Option.isSome_iff_exists.mp last
  exact ⟨(first, last), by rw [spanOf, isFirst, isLast]⟩

theorem hintSpans_spec {pageCount : Int} {routingText : RoutingText} (within : Within pageCount routingText)
    (hints : List String) : ∀ span ∈ hintSpans routingText hints, 1 ≤ span.1 ∧ span.1 ≤ span.2 ∧ span.2 ≤ pageCount := by
  intro span isIn
  obtain ⟨hits, isHits, rfl⟩ := List.mem_map.mp isIn
  obtain ⟨listed, filled⟩ := List.mem_filter.mp isHits
  obtain ⟨hint, -, rfl⟩ := List.mem_map.mp listed
  have some : hitPagesForHints routingText [hint] ≠ [] := by simpa using filled
  obtain ⟨first, last, ordered, -⟩ := densestHitSpan_spec some (hits_sorted routingText [hint])
  exact ⟨(hits_within within _ _ first).1, ordered, (hits_within within _ _ last).2⟩

theorem mem_hintSpans {routingText : RoutingText} {hints : List String} {hint : String} (isHint : hint ∈ hints)
    (some : hitPagesForHints routingText [hint] ≠ []) :
    densestHitSpan (hitPagesForHints routingText [hint]) ∈ hintSpans routingText hints := by
  refine List.mem_map_of_mem (List.mem_filter.mpr ⟨List.mem_map_of_mem isHint, ?_⟩)
  simpa using some

theorem batchKey_inj {a b : Batch} (same : batchKey a = batchKey b) : a.domainId = b.domainId ∧ a.batchIndex = b.batchIndex := by
  have mark : "#".toList = ['#'] := rfl
  have texts := congrArg (fun key => key.toList.reverse) same
  simp only [batchKey, String.toList_append, mark, List.reverse_append, List.reverse_cons,
    List.append_assoc, List.singleton_append] at texts
  have unmarked (n : Nat) : '#' ∉ (toString n).toList.reverse := by
    rw [List.mem_reverse]
    exact Text.not_mem_repr (by decide) n
  obtain ⟨numbers, domains⟩ := Text.append_mark_inj (unmarked _) (unmarked _) texts
  exact ⟨String.toList_injective (List.reverse_injective domains),
    Nat.repr_inj.mp (String.toList_injective (List.reverse_injective numbers))⟩

/-- The batches of a run: a domain and an index name one of them. -/
structure Plan where
  batches : List Batch
  named : ∀ a ∈ batches, ∀ b ∈ batches, a.domainId = b.domainId → a.batchIndex = b.batchIndex → a = b

theorem batchesForDomains_named {manifest : List BatchDomain} {domainIds : List String} {batches : List Batch}
    (planned : batchesForDomains manifest domainIds = .ok batches) :
    ∀ a ∈ batches, ∀ b ∈ batches, a.domainId = b.domainId → a.batchIndex = b.batchIndex → a = b := by
  obtain ⟨pieces, arePieces, rfl⟩ := Fallible.map_ok_iff.mp planned
  -- A batch is the chunk of its domain at its index.
  have placed : ∀ batch ∈ pieces.flatten, ∃ chunks metrics,
      metricBatchesForDomain manifest batch.domainId defaultMetricBatchSize = .ok chunks ∧
      chunks[batch.batchIndex]? = some metrics ∧
      batch = ⟨batch.domainId, batch.batchIndex, metrics, metrics.flatMap BatchMetric.sourceHints⟩ := by
    intro batch isIn
    obtain ⟨piece, isPiece, isIn⟩ := List.mem_flatten.mp isIn
    obtain ⟨domainId, -, made⟩ := Fallible.mapM_of_mem arePieces piece isPiece
    obtain ⟨chunks, areChunks, rfl⟩ := Fallible.map_ok_iff.mp made
    obtain ⟨⟨metrics, index⟩, isChunk, rfl⟩ := List.mem_map.mp isIn
    exact ⟨chunks, metrics, areChunks, List.mem_zipIdx_iff_getElem?.mp isChunk, rfl⟩
  intro a isA b isB domain index
  obtain ⟨chunks, metrics, areChunks, isChunk, whole⟩ := placed a isA
  obtain ⟨others, others', areOthers, isOther, whole'⟩ := placed b isB
  rw [domain, areOthers] at areChunks
  cases areChunks
  rw [index, isOther] at isChunk
  cases isChunk
  rw [whole, whole', domain, index]

def Plan.ofDomains {manifest : List BatchDomain} {domainIds : List String} {batches : List Batch}
    (planned : batchesForDomains manifest domainIds = .ok batches) : Plan := ⟨batches, batchesForDomains_named planned⟩

example : hintMatches "B4-B21" "B4 \u2010 B21. Graduation Rates".toList = true ∧
    hintMatches "C1" "C10 Applications".toList = false := by decide

example : densestHitSpan [1, 29, 35, 37] = (35, 37) := by decide

end Counselle.Cds.Routing
