import Counselle.Cds.PacketBuild
import Counselle.Ranges

/-! Page ranges and cited page numbers, `pages.py`: the window of a section, the clusters that
a call is sent, and the page that a citation of a narrowed call stands for. -/
namespace Counselle.Cds.Pages
open Ranges

def defaultRoutingPagePad : Int := 2

def maxTrailingPadExtra : Int := 6

def retryWidenPagePad : Int := 6

def clipPage (page pageCount : Int) : Int := max 1 (min pageCount page)

def trailingEdge (last : Int) (otherStarts : List Int) (documentPageCount pad maxExtra : Int) : Int :=
  let cap := match (otherStarts.filter (last < ·)).min? with
    | none => documentPageCount
    | some nextStart => nextStart - 1
  let grown := min (last + pad + maxExtra) cap
  clipPage (max (last + pad) grown) documentPageCount

def padRange (allStarts : List Int) (documentPageCount : Int) (range : Range) : Range :=
  (clipPage (range.1 - defaultRoutingPagePad) documentPageCount,
    trailingEdge range.2 allStarts documentPageCount defaultRoutingPagePad maxTrailingPadExtra)

def paddedDomainRanges (routing : List (String × Range)) (documentPageCount : Int) : List (String × Range) :=
  let allStarts := routing.map fun entry => entry.2.1
  routing.map fun entry => (entry.1, padRange allStarts documentPageCount entry.2)

/-- Ranges with at most one page between them become one. -/
def mergePageRanges (ranges : List Range) : List Range := join 2 ranges

def window (page documentPageCount : Int) : Range :=
  (clipPage (page - retryWidenPagePad) documentPageCount, clipPage (page + retryWidenPagePad) documentPageCount)

def widenClusters (clusters : List Range) (extraPages : List Int) (documentPageCount : Int) : List Range :=
  mergePageRanges (clusters ++ extraPages.map fun page => window page documentPageCount)

def growCluster (documentPageCount : Int) (cluster : Range) : Range :=
  (clipPage (cluster.1 - retryWidenPagePad) documentPageCount, clipPage (cluster.2 + retryWidenPagePad) documentPageCount)

def growClusters (clusters : List Range) (documentPageCount : Int) : List Range :=
  mergePageRanges (clusters.map (growCluster documentPageCount))

def pageClustersForGroup (domainIds : List String) (domainRanges : List (String × Range)) : List Range :=
  let ranges := domainIds.filterMap fun domainId => domainRanges.lookup domainId
  if ranges.length ≠ domainIds.length then [] else mergePageRanges ranges

/-- The pages behind the positions of what a call was sent. -/
structure PageMap where
  entries : List (Int × Int)
  onPage : ∀ entry ∈ entries, 1 ≤ entry.2

def PageMap.pages (pageMap : PageMap) : List Int := pageMap.entries.map Prod.snd

/-- `fuzzy_contains` over normalized texts. -/
abbrev Fuzzy := String → String → Bool

def excerptConfirmsPage (fuzzy : Fuzzy) (excerpt : String) (pageText : List (Int × String)) (page : Int) : Bool :=
  match pageText.lookup page with
  | none => false
  | some text => text ≠ "" && fuzzy excerpt text

structure CitationResolution where
  originalPage : Option Int
  ambiguous : Bool

/-- Without an excerpt and page texts it is `resolve_cited_page(raw_page_number, page_map)`. -/
def resolveCitedPage (fuzzy : Fuzzy) (rawPageNumber : Int) (pageMap : PageMap) (excerpt : String)
    (pageText : List (Int × String)) : CitationResolution :=
  let positionPage := pageMap.entries.lookup rawPageNumber
  let literalPage := if rawPageNumber ∈ pageMap.pages then some rawPageNumber else none
  match positionPage, literalPage with
  | some position, some literal =>
    if position ≠ literal then
      if excerptConfirmsPage fuzzy excerpt pageText literal && !excerptConfirmsPage fuzzy excerpt pageText position then
        ⟨some literal, false⟩
      else ⟨some position, true⟩
    else ⟨some position, false⟩
  | some position, none => ⟨some position, false⟩
  | none, some literal => ⟨some literal, false⟩
  | none, none => ⟨none, false⟩

section Windows
variable {pageCount : Int}

theorem clipPage_within (some : 1 ≤ pageCount) (page : Int) : 1 ≤ clipPage page pageCount ∧ clipPage page pageCount ≤ pageCount := by
  unfold clipPage
  omega

theorem clipPage_mono {page other : Int} (lower : page ≤ other) : clipPage page pageCount ≤ clipPage other pageCount := by
  unfold clipPage
  omega

theorem clipPage_le {page limit : Int} (one : 1 ≤ limit) (lower : page ≤ limit) : clipPage page pageCount ≤ limit := by
  unfold clipPage
  omega

theorem le_clipPage {page limit : Int} (within : limit ≤ pageCount) (lower : limit ≤ page) : limit ≤ clipPage page pageCount := by
  unfold clipPage
  omega

theorem padRange_spec {allStarts : List Int} {range : Range} (within : 1 ≤ range.1 ∧ range.2 ≤ pageCount)
    (filled : range.1 ≤ range.2) :
    Inside range (padRange allStarts pageCount range) ∧ Inside (padRange allStarts pageCount range) (1, pageCount) := by
  have some : 1 ≤ pageCount := within.1.trans (filled.trans within.2)
  have front : clipPage (range.1 - defaultRoutingPagePad) pageCount ≤ range.1 :=
    clipPage_le within.1 (by unfold defaultRoutingPagePad; omega)
  have behind : range.2 ≤ trailingEdge range.2 allStarts pageCount defaultRoutingPagePad maxTrailingPadExtra := by
    refine le_clipPage within.2 (le_trans ?_ (le_max_left _ _))
    unfold defaultRoutingPagePad
    omega
  exact ⟨⟨front, behind⟩, (clipPage_within some _).1, (clipPage_within some _).2⟩

theorem merge_spec {ranges : List Range} (filled : ∀ range ∈ ranges, range.1 ≤ range.2)
    (within : ∀ range ∈ ranges, Inside range (1, pageCount)) :
    Apart 2 (mergePageRanges ranges) ∧ (∀ cluster ∈ mergePageRanges ranges, Inside cluster (1, pageCount)) ∧
      ∀ range ∈ ranges, ∃ cluster ∈ mergePageRanges ranges, Inside range cluster :=
  ⟨join_apart (by decide) filled, join_bounds within, fun _ isIn => join_inside isIn⟩

/-- The clusters of a wider window: in order, apart, within the document, around the first
ones and around the pages that it was widened for. -/
structure Widens (pageCount : Int) (clusters : List Range) (extraPages : List Int) (wider : List Range) : Prop where
  apart : Apart 2 wider
  within : ∀ cluster ∈ wider, Inside cluster (1, pageCount)
  around : ∀ cluster ∈ clusters, ∃ other ∈ wider, Inside cluster other
  holds : ∀ page ∈ extraPages, 1 ≤ page → page ≤ pageCount → ∃ other ∈ wider, Inside (page, page) other

variable {clusters : List Range}

theorem widenClusters_widens (some : 1 ≤ pageCount) (filled : ∀ cluster ∈ clusters, cluster.1 ≤ cluster.2)
    (within : ∀ cluster ∈ clusters, Inside cluster (1, pageCount)) (extraPages : List Int) :
    Widens pageCount clusters extraPages (widenClusters clusters extraPages pageCount) := by
  have windows : ∀ range ∈ extraPages.map fun page => window page pageCount,
      range.1 ≤ range.2 ∧ Inside range (1, pageCount) := by
    intro range isIn
    obtain ⟨page, -, rfl⟩ := List.mem_map.mp isIn
    refine ⟨clipPage_mono ?_, (clipPage_within some _).1, (clipPage_within some _).2⟩
    unfold retryWidenPagePad
    omega
  obtain ⟨apart, bounds, inside⟩ := @merge_spec pageCount (clusters ++ extraPages.map fun page => window page pageCount)
    (fun range isIn => (List.mem_append.mp isIn).elim (filled range) fun isIn => (windows range isIn).1)
    (fun range isIn => (List.mem_append.mp isIn).elim (within range) fun isIn => (windows range isIn).2)
  refine ⟨apart, bounds, fun cluster isIn => inside cluster (List.mem_append_left _ isIn), ?_⟩
  intro page isIn one last
  obtain ⟨other, isOther, around⟩ := inside (window page pageCount) (List.mem_append_right _ (List.mem_map_of_mem isIn))
  have here : Inside (page, page) (window page pageCount) := by
    constructor
    · exact clipPage_le one (by unfold retryWidenPagePad; omega)
    · exact le_clipPage last (by unfold retryWidenPagePad; omega)
  exact ⟨other, isOther, here.trans around⟩

theorem growClusters_widens (some : 1 ≤ pageCount) (filled : ∀ cluster ∈ clusters, cluster.1 ≤ cluster.2)
    (within : ∀ cluster ∈ clusters, Inside cluster (1, pageCount)) :
    Widens pageCount clusters [] (growClusters clusters pageCount) := by
  have grown : ∀ range ∈ clusters.map (growCluster pageCount), range.1 ≤ range.2 ∧ Inside range (1, pageCount) := by
    intro range isIn
    obtain ⟨cluster, isCluster, rfl⟩ := List.mem_map.mp isIn
    have ordered := filled cluster isCluster
    refine ⟨clipPage_mono ?_, (clipPage_within some _).1, (clipPage_within some _).2⟩
    unfold retryWidenPagePad
    omega
  obtain ⟨apart, bounds, inside⟩ := @merge_spec pageCount (clusters.map (growCluster pageCount))
    (fun range isIn => (grown range isIn).1) (fun range isIn => (grown range isIn).2)
  refine ⟨apart, bounds, fun cluster isIn => ?_, nofun⟩
  obtain ⟨other, isOther, around⟩ := inside (growCluster pageCount cluster) (List.mem_map_of_mem isIn)
  have bounds := within cluster isIn
  have ordered := filled cluster isIn
  have here : Inside cluster (growCluster pageCount cluster) := by
    constructor
    · exact clipPage_le bounds.1 (by unfold retryWidenPagePad; omega)
    · exact le_clipPage bounds.2 (by unfold retryWidenPagePad; omega)
  exact ⟨other, isOther, here.trans around⟩

end Windows

section Resolved
variable {fuzzy : Fuzzy} {raw : Int} {pageMap : PageMap} {excerpt : String} {pageText : List (Int × String)}

theorem resolve_page {page : Int}
    (resolved : (resolveCitedPage fuzzy raw pageMap excerpt pageText).originalPage = some page) :
    page ∈ pageMap.pages ∧ (pageMap.entries.lookup raw = some page ∨ page = raw) := by
  have byPosition (isPosition : pageMap.entries.lookup raw = some page) : page ∈ pageMap.pages :=
    List.mem_map_of_mem (f := Prod.snd) (Upsert.mem_of_lookup isPosition)
  have byLiteral (isLiteral : (if raw ∈ pageMap.pages then some raw else none) = some page) :
      page ∈ pageMap.pages ∧ page = raw := by
    obtain ⟨isIn, same⟩ := Option.ite_none_right_eq_some.mp isLiteral
    cases same
    exact ⟨isIn, rfl⟩
  unfold resolveCitedPage at resolved
  dsimp only at resolved
  split at resolved
  case h_1 position literal isPosition isLiteral =>
    split at resolved
    case isTrue =>
      split at resolved
      case isTrue =>
        cases resolved
        exact ⟨(byLiteral isLiteral).1, Or.inr (byLiteral isLiteral).2⟩
      case isFalse =>
        cases resolved
        exact ⟨byPosition isPosition, Or.inl isPosition⟩
    case isFalse =>
      cases resolved
      exact ⟨byPosition isPosition, Or.inl isPosition⟩
  case h_2 position isPosition isLiteral =>
    cases resolved
    exact ⟨byPosition isPosition, Or.inl isPosition⟩
  case h_3 literal isPosition isLiteral =>
    cases resolved
    exact ⟨(byLiteral isLiteral).1, Or.inr (byLiteral isLiteral).2⟩
  case h_4 => cases resolved

theorem resolve_none_iff : (resolveCitedPage fuzzy raw pageMap excerpt pageText).originalPage = none ↔
    pageMap.entries.lookup raw = none ∧ raw ∉ pageMap.pages := by
  unfold resolveCitedPage
  dsimp only
  cases position : pageMap.entries.lookup raw with
  | none =>
    by_cases isIn : raw ∈ pageMap.pages
    · simp [isIn]
    · simp [isIn]
  | some page =>
    by_cases isIn : raw ∈ pageMap.pages
    · rw [if_pos isIn]
      dsimp only
      split_ifs <;> simp
    · simp [isIn]

end Resolved

end Counselle.Cds.Pages
