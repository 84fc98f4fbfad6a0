import Counselle.Packing
import Counselle.Cds.Authoring

/-! How a run's metrics are split into batches, one model call each: the domain's
sections are packed in manifest order, and only a section over the limit is sliced. -/
namespace Counselle.Cds.Batching
open Packing

structure BatchMetric where
  id : String
  sourceHints : List String
  formula : Option Authoring.Formula
  hinted : sourceHints ≠ []

structure BatchDomain where
  id : String
  metrics : List BatchMetric
  filled : metrics ≠ []

inductive BatchError where
  | unknownDomain (domainId : String)
  | rangeStepZero

def deliberationHints : List String := ["H14"]

def isDeliberationMetric (metric : BatchMetric) : Bool :=
  metric.sourceHints.any fun hint => hint ∈ deliberationHints

/-- The key that `_contiguous_sections` groups by. -/
def sectionKey (metric : BatchMetric) : String × Bool :=
  (metric.sourceHints.head metric.hinted, isDeliberationMetric metric)

structure Sections where
  sections : List (List BatchMetric)
  openKey : Option (String × Bool)

/-- One turn of the grouping loop: `sections[-1].append(metric)`, on a new section where
the key changes. -/
def Sections.add (state : Sections) (metric : BatchMetric) : Sections :=
  let key := sectionKey metric
  if state.sections = [] ∨ some key ≠ state.openKey then ⟨state.sections ++ [[metric]], some key⟩
  else ⟨state.sections.dropLast ++ [state.sections.getLast?.getD [] ++ [metric]], state.openKey⟩

def contiguousSections (metrics : List BatchMetric) : List (List BatchMetric) :=
  (metrics.foldl Sections.add ⟨[], none⟩).sections

structure Packed where
  batches : List (List BatchMetric)
  current : List BatchMetric

def Packed.close (state : Packed) : List (List BatchMetric) :=
  if state.current ≠ [] then state.batches ++ [state.current] else state.batches

/-- `_is_deliberation_metric(current[0]) != _is_deliberation_metric(section[0])` -/
def clashes (current sectionMetrics : List BatchMetric) : Bool :=
  current.head?.map isDeliberationMetric != sectionMetrics.head?.map isDeliberationMetric

def Packed.add (maxBatchSize : Nat) (state : Packed) (sectionMetrics : List BatchMetric) :
    Except BatchError Packed :=
  if sectionMetrics.length > maxBatchSize then
    -- `range(0, len(section), max_batch_size)` refuses a step of zero
    if maxBatchSize = 0 then .error .rangeStepZero
    else .ok ⟨state.close ++ slices maxBatchSize sectionMetrics, []⟩
  else if state.current ≠ [] ∧ (state.current.length + sectionMetrics.length > maxBatchSize ∨
      clashes state.current sectionMetrics) then
    .ok ⟨state.batches ++ [state.current], sectionMetrics⟩
  else .ok ⟨state.batches, state.current ++ sectionMetrics⟩

def metricBatchesForDomain (manifest : List BatchDomain) (domainId : String) (maxBatchSize : Nat) :
    Except BatchError (List (List BatchMetric)) :=
  match manifest.find? fun domain => domain.id = domainId with
  | none => .error (.unknownDomain domainId)
  | some domain =>
    ((contiguousSections domain.metrics).foldlM (Packed.add maxBatchSize) ⟨[], []⟩).map Packed.close

def defaultMetricBatchSize : Nat := 25

structure Batch where
  domainId : String
  batchIndex : Nat
  metrics : List BatchMetric
  hints : List String

def batchesForDomains (manifest : List BatchDomain) (domainIds : List String) :
    Except BatchError (List Batch) :=
  (domainIds.mapM fun domainId =>
    (metricBatchesForDomain manifest domainId defaultMetricBatchSize).map fun chunks =>
      chunks.zipIdx.map fun (metrics, index) =>
        Batch.mk domainId index metrics (metrics.flatMap BatchMetric.sourceHints)).map List.flatten

/-- What the grouping loop keeps of the metrics it has read. -/
structure Sections.Ok (state : Sections) (read : List BatchMetric) : Prop where
  flat : state.sections.flatten = read
  nonempty : ∀ one ∈ state.sections, one ≠ []
  uniform : ∀ one ∈ state.sections, ∀ metric ∈ one, ∀ other ∈ one, sectionKey metric = sectionKey other
  openKey : state.openKey = read.getLast?.map sectionKey
  begun : state.sections = [] ↔ read = []

theorem sections_last {state : Sections} {read : List BatchMetric} (ok : state.Ok read) (begun : state.sections ≠ []) :
    ∃ before last, state.sections = before ++ [last] ∧ last ≠ [] ∧
      ∀ metric ∈ last, some (sectionKey metric) = state.openKey := by
  rcases List.eq_nil_or_concat' state.sections with none | ⟨before, last, split⟩
  · exact absurd none begun
  · have isIn : last ∈ state.sections := by rw [split]; exact List.mem_append_right _ (List.mem_singleton_self _)
    refine ⟨before, last, split, ok.nonempty last isIn, fun metric inLast => ?_⟩
    obtain ⟨start, final, rfl⟩ := (List.eq_nil_or_concat' last).resolve_left (ok.nonempty last isIn)
    have read_eq : read = (before.flatten ++ start) ++ [final] := by
      rw [← ok.flat, split]
      simp
    rw [ok.openKey, read_eq, List.getLast?_concat, Option.map_some]
    exact congrArg _ (ok.uniform _ isIn metric inLast final (by simp))

theorem Sections.add_ok {state : Sections} {read : List BatchMetric} (ok : state.Ok read)
    (metric : BatchMetric) : (state.add metric).Ok (read ++ [metric]) := by
  have lastKey : (read ++ [metric]).getLast?.map sectionKey = some (sectionKey metric) := by
    rw [List.getLast?_concat, Option.map_some]
  unfold Sections.add
  simp only
  split
  · next opens =>
    refine ⟨by simp [ok.flat], fun one isIn => ?_, fun one isIn => ?_, lastKey.symm, by simp⟩
    · rcases List.mem_append.mp isIn with old | new
      · exact ok.nonempty one old
      · rw [List.mem_singleton.mp new]
        exact List.cons_ne_nil _ _
    · rcases List.mem_append.mp isIn with old | new
      · exact ok.uniform one old
      · intro one' isOne other isOther
        rw [List.mem_singleton.mp new, List.mem_singleton] at isOne isOther
        rw [isOne, isOther]
  · next stays =>
    obtain ⟨begun, sameKey⟩ := not_or.mp stays
    obtain ⟨before, last, split', nonempty, keyed⟩ := sections_last ok begun
    rw [not_not] at sameKey
    simp only [split', List.dropLast_concat, List.getLast?_concat, Option.getD_some]
    refine ⟨by simp [← ok.flat, split'], fun one isIn => ?_, fun one isIn => ?_, by rw [← sameKey, lastKey],
      by simp⟩
    · rcases List.mem_append.mp isIn with old | new
      · exact ok.nonempty one (by rw [split']; exact List.mem_append_left _ old)
      · rw [List.mem_singleton.mp new]
        simp
    · rcases List.mem_append.mp isIn with old | new
      · exact ok.uniform one (by rw [split']; exact List.mem_append_left _ old)
      · have each : ∀ part ∈ one, sectionKey part = sectionKey metric := by
          intro part isPart
          rw [List.mem_singleton.mp new] at isPart
          rcases List.mem_append.mp isPart with inLast | isNew
          · exact Option.some.inj ((keyed part inLast).trans sameKey.symm)
          · rw [List.mem_singleton.mp isNew]
        exact fun part isPart other isOther => (each part isPart).trans (each other isOther).symm

theorem Sections.fold_ok {state : Sections} {read : List BatchMetric} (ok : state.Ok read)
    (metrics : List BatchMetric) : (metrics.foldl Sections.add state).Ok (read ++ metrics) := by
  induction metrics generalizing state read with
  | nil => rwa [List.append_nil]
  | cons metric rest ih =>
    have next := ih (Sections.add_ok ok metric)
    rwa [List.append_assoc, List.singleton_append] at next

theorem sections_ok (metrics : List BatchMetric) : (metrics.foldl Sections.add ⟨[], none⟩).Ok metrics :=
  @Sections.fold_ok _ [] ⟨rfl, by simp, by simp, rfl, by simp⟩ metrics

theorem Sections.fold_keeps {closed : List (List BatchMetric)} (metrics : List BatchMetric) :
    ∀ {state : Sections} {more : List (List BatchMetric)}, state.sections = closed ++ more → more ≠ [] →
      ∃ later, (metrics.foldl Sections.add state).sections = closed ++ later := by
  induction metrics with
  | nil => exact fun {_ more} split _ => ⟨more, split⟩
  | cons metric rest ih =>
    intro state more split begun
    obtain ⟨before, last, rfl⟩ := (List.eq_nil_or_concat' more).resolve_left begun
    rw [← List.append_assoc] at split
    have next : ∃ added, added ≠ [] ∧ (state.add metric).sections = closed ++ added := by
      unfold Sections.add
      simp only
      split
      · exact ⟨before ++ [last] ++ [[metric]], by simp, by simp [split]⟩
      · refine ⟨before ++ [last ++ [metric]], by simp, ?_⟩
        simp only [split, List.dropLast_concat, List.getLast?_concat, Option.getD_some]
        rw [List.append_assoc]
    obtain ⟨added, nonempty, kept⟩ := next
    exact ih kept nonempty

theorem Sections.fold_joins {closed : List (List BatchMetric)} {key : String × Bool} (metrics : List BatchMetric) :
    ∀ {last : List BatchMetric}, (∀ metric ∈ metrics, sectionKey metric = key) →
      metrics.foldl Sections.add ⟨closed ++ [last], some key⟩ = ⟨closed ++ [last ++ metrics], some key⟩ := by
  induction metrics with
  | nil => intro last _; rw [List.append_nil]; rfl
  | cons metric rest ih =>
    intro last keyed
    have stays : Sections.add ⟨closed ++ [last], some key⟩ metric = ⟨closed ++ [last ++ [metric]], some key⟩ := by
      simp [Sections.add, keyed metric List.mem_cons_self]
    rw [List.foldl_cons, stays, ih fun next isNext => keyed next (List.mem_cons_of_mem _ isNext),
      List.append_assoc, List.singleton_append]

theorem section_of_isRun {front segment back : List BatchMetric} (run : IsRun sectionKey front segment back) :
    ∃ before after, contiguousSections (front ++ segment ++ back) = before ++ segment :: after ∧
      before.flatten = front := by
  have ok := sections_ok front
  obtain ⟨first, rest, rfl⟩ := List.exists_cons_of_ne_nil run.nonempty
  set state := front.foldl Sections.add ⟨[], none⟩ with isState
  have opens : state.add first = ⟨state.sections ++ [[first]], some (sectionKey first)⟩ := by
    unfold Sections.add
    refine if_pos ?_
    rw [ok.openKey]
    cases ends : front.getLast? with
    | none => exact Or.inl (ok.begun.mpr (List.getLast?_eq_none_iff.mp ends))
    | some before =>
      refine Or.inr fun same => run.begins before ends first List.mem_cons_self ?_
      exact (Option.some.inj same).symm
  have joins := @Sections.fold_joins state.sections _ rest [first] fun metric isIn =>
    run.uniform metric (List.mem_cons_of_mem _ isIn) first List.mem_cons_self
  have read : (front ++ first :: rest).foldl Sections.add ⟨[], none⟩ =
      ⟨state.sections ++ [first :: rest], some (sectionKey first)⟩ := by
    rw [List.foldl_append, ← isState, List.foldl_cons, opens, joins, List.singleton_append]
  have closes : ∃ after, contiguousSections (front ++ first :: rest ++ back) =
      state.sections ++ [first :: rest] ++ after := by
    unfold contiguousSections
    rw [List.foldl_append, read]
    cases back with
    | nil => exact ⟨[], by simp⟩
    | cons next later =>
      have differs : some (sectionKey next) ≠ some (sectionKey first) := fun same =>
        run.ends next rfl first List.mem_cons_self (Option.some.inj same)
      refine @Sections.fold_keeps _ later _ [[next]] ?_ (List.cons_ne_nil _ _)
      simp [Sections.add, differs]
  obtain ⟨after, split⟩ := closes
  exact ⟨state.sections, after, by rw [split, List.append_assoc, List.singleton_append], ok.flat⟩

def Unmixed (metrics : List BatchMetric) : Prop :=
  ∀ metric ∈ metrics, ∀ other ∈ metrics, isDeliberationMetric metric = isDeliberationMetric other

theorem Unmixed.append {metrics others : List BatchMetric} (unmixed : Unmixed metrics) (otherUnmixed : Unmixed others)
    (agree : clashes metrics others = false) (some : metrics ≠ []) (otherSome : others ≠ []) :
    Unmixed (metrics ++ others) := by
  obtain ⟨first, rest, rfl⟩ := List.exists_cons_of_ne_nil some
  obtain ⟨next, more, rfl⟩ := List.exists_cons_of_ne_nil otherSome
  have heads : isDeliberationMetric first = isDeliberationMetric next := by
    simpa [clashes] using agree
  have each : ∀ metric ∈ (first :: rest) ++ (next :: more), isDeliberationMetric metric = isDeliberationMetric first := by
    intro metric isIn
    rcases List.mem_append.mp isIn with here | there
    · exact unmixed metric here first List.mem_cons_self
    · exact (otherUnmixed metric there next List.mem_cons_self).trans heads.symm
  exact fun metric isIn other isOther => (each metric isIn).trans (each other isOther).symm

structure Sendable (maxBatchSize : Nat) (batch : List BatchMetric) : Prop where
  filled : batch ≠ []
  bounded : batch.length ≤ maxBatchSize
  unmixed : Unmixed batch

/-- What the packing loop keeps of the sections it has read. -/
structure Packed.Ok (maxBatchSize : Nat) (state : Packed) (read : List (List BatchMetric)) : Prop where
  flat : state.batches.flatten ++ state.current = read.flatten
  sendable : ∀ batch ∈ state.batches, Sendable maxBatchSize batch
  bounded : state.current.length ≤ maxBatchSize
  unmixed : Unmixed state.current
  whole : ∀ before segment after, read = before ++ segment :: after → segment.length ≤ maxBatchSize →
    Whole (state.batches ++ [state.current]) before.flatten segment

section Pack

variable {maxBatchSize : Nat} {state : Packed} {read : List (List BatchMetric)}

theorem Packed.Ok.close (ok : state.Ok maxBatchSize read) (filled : ∀ one ∈ read, one ≠ []) :
    state.close.flatten = read.flatten ∧ (∀ batch ∈ state.close, Sendable maxBatchSize batch) ∧
      ∀ before segment after, read = before ++ segment :: after → segment.length ≤ maxBatchSize →
        Whole state.close before.flatten segment := by
  unfold Packed.close
  split
  · next opened =>
    refine ⟨by simp [← ok.flat], fun batch isIn => ?_, ok.whole⟩
    rcases List.mem_append.mp isIn with old | new
    · exact ok.sendable batch old
    · rw [List.mem_singleton.mp new]
      exact ⟨opened, ok.bounded, ok.unmixed⟩
  · next closed =>
    have nothing := not_not.mp closed
    refine ⟨by rw [← ok.flat, nothing, List.append_nil], ok.sendable, ?_⟩
    intro before segment after split short
    have inside := ok.whole before segment after split short
    rw [nothing] at inside
    exact inside.of_empty (filled segment (by simp [split]))

theorem split_concat {before after : List (List BatchMetric)} {segment last : List BatchMetric}
    (split : read ++ [last] = before ++ segment :: after) :
    (before = read ∧ segment = last) ∨ ∃ earlier, read = before ++ segment :: earlier := by
  rcases List.eq_nil_or_concat' after with rfl | ⟨earlier, final, rfl⟩
  · obtain ⟨rfl, same⟩ := List.append_inj' split rfl
    exact Or.inl ⟨rfl, (List.cons.inj same).1.symm⟩
  · rw [← List.cons_append, ← List.append_assoc] at split
    exact Or.inr ⟨earlier, (List.append_inj' split rfl).1⟩

theorem Packed.add_ok (positive : 0 < maxBatchSize) (ok : state.Ok maxBatchSize read)
    (filled : ∀ one ∈ read, one ≠ []) {next : List BatchMetric} (nonempty : next ≠ []) (unmixed : Unmixed next) :
    ∃ packed, state.add maxBatchSize next = .ok packed ∧ packed.Ok maxBatchSize (read ++ [next]) := by
  obtain ⟨closeFlat, closeSendable, closeWhole⟩ := ok.close filled
  unfold Packed.add
  split
  · next long =>
    obtain ⟨flat, each⟩ := slices_spec positive next
    rw [if_neg positive.ne']
    refine ⟨_, rfl, by simp [closeFlat, flat], fun batch isIn => ?_, Nat.zero_le _, by simp [Unmixed], ?_⟩
    · rcases List.mem_append.mp isIn with old | new
      · exact closeSendable batch old
      · obtain ⟨some, bounded, inside⟩ := each batch new
        exact ⟨some, bounded, fun metric isMetric other isOther =>
          unmixed metric (inside isMetric) other (inside isOther)⟩
    · intro before segment after split short
      rcases split_concat split with ⟨-, rfl⟩ | ⟨earlier, old⟩
      · exact absurd short (by omega)
      · exact ((closeWhole before segment earlier old short).append _).append _
  · next fits =>
    split
    · next full =>
      refine ⟨_, rfl, by simp [← ok.flat], fun batch isIn => ?_, by simpa using fits, unmixed, ?_⟩
      · rcases List.mem_append.mp isIn with old | new
        · exact ok.sendable batch old
        · rw [List.mem_singleton.mp new]
          exact ⟨full.1, ok.bounded, ok.unmixed⟩
      · intro before segment after split short
        rcases split_concat split with ⟨rfl, rfl⟩ | ⟨earlier, old⟩
        · have inside := whole_last (state.batches ++ [state.current]) [] segment
          rwa [List.nil_append, List.append_nil, List.flatten_concat, ok.flat] at inside
        · exact (ok.whole before segment earlier old short).append _
    · next joins =>
      have joined : (state.current ++ next).length ≤ maxBatchSize ∧ Unmixed (state.current ++ next) := by
        by_cases opened : state.current = []
        · rw [opened, List.nil_append]
          exact ⟨by simpa using fits, unmixed⟩
        · simp only [not_and, not_or, gt_iff_lt, not_lt, Bool.not_eq_true] at joins
          obtain ⟨short, agree⟩ := joins opened
          exact ⟨by rwa [List.length_append], ok.unmixed.append unmixed agree opened nonempty⟩
      refine ⟨_, rfl, by simp [← ok.flat], ok.sendable, joined.1, joined.2, ?_⟩
      intro before segment after split short
      rcases split_concat split with ⟨rfl, rfl⟩ | ⟨earlier, old⟩
      · have inside := whole_last state.batches state.current segment
        rwa [ok.flat] at inside
      · exact (ok.whole before segment earlier old short).grow _

theorem Packed.fold_ok (positive : 0 < maxBatchSize) {sections : List (List BatchMetric)} (ok : state.Ok maxBatchSize read)
    (filled : ∀ one ∈ read ++ sections, one ≠ []) (unmixed : ∀ one ∈ sections, Unmixed one) :
    ∃ packed, sections.foldlM (Packed.add maxBatchSize) state = .ok packed ∧
      packed.Ok maxBatchSize (read ++ sections) := by
  induction sections generalizing state read with
  | nil => exact ⟨state, rfl, by rwa [List.append_nil]⟩
  | cons first rest ih =>
    obtain ⟨next, stepped, nextOk⟩ := Packed.add_ok positive ok
      (fun one isIn => filled one (List.mem_append_left _ isIn)) (filled first (by simp))
      (unmixed first List.mem_cons_self)
    obtain ⟨packed, ran, packedOk⟩ := ih nextOk (by simpa using filled)
      fun one isIn => unmixed one (List.mem_cons_of_mem _ isIn)
    rw [List.append_assoc, List.singleton_append] at packedOk
    refine ⟨packed, ?_, packedOk⟩
    rw [List.foldlM_cons, stepped]
    exact ran

end Pack

theorem sections_unmixed {metrics : List BatchMetric} :
    ∀ one ∈ contiguousSections metrics, one ≠ [] ∧ Unmixed one := by
  intro one isIn
  have ok := sections_ok metrics
  refine ⟨ok.nonempty one isIn, fun metric isMetric other isOther => ?_⟩
  exact congrArg Prod.snd (ok.uniform one isIn metric isMetric other isOther)

theorem packs {maxBatchSize : Nat} (positive : 0 < maxBatchSize) (metrics : List BatchMetric) :
    ∃ packed, (contiguousSections metrics).foldlM (Packed.add maxBatchSize) ⟨[], []⟩ = .ok packed ∧
      packed.Ok maxBatchSize (contiguousSections metrics) := by
  refine @Packed.fold_ok _ _ [] positive _ ⟨rfl, by simp, Nat.zero_le _, by simp [Unmixed], by simp⟩ ?_ ?_
  · exact fun one isIn => (sections_unmixed one isIn).1
  · exact fun one isIn => (sections_unmixed one isIn).2

theorem packs_zero {metrics : List BatchMetric} (filled : metrics ≠ []) (state : Packed) :
    (contiguousSections metrics).foldlM (Packed.add 0) state = .error .rangeStepZero := by
  have ok := sections_ok metrics
  obtain ⟨first, rest, split⟩ := List.exists_cons_of_ne_nil (mt ok.begun.mp filled)
  have long : first.length > 0 := List.length_pos_iff.mpr (ok.nonempty first (by rw [split]; exact List.mem_cons_self))
  unfold contiguousSections
  rw [split, List.foldlM_cons, Packed.add, if_pos long, if_pos rfl]
  rfl

/-- Batches that list what the model is to be asked, in manifest order, each within the
limit and of one kind, and that divide a section only where it is over the limit. -/
structure Partitions (maxBatchSize : Nat) (metrics : List BatchMetric) (batches : List (List BatchMetric)) : Prop where
  complete : batches.flatten = metrics.filter fun metric => metric.formula.isNone
  sendable : ∀ batch ∈ batches, Sendable maxBatchSize batch
  whole : ∀ front segment back, metrics = front ++ segment ++ back → IsRun sectionKey front segment back →
    segment.length ≤ maxBatchSize → Whole batches front segment

theorem batches_spec {manifest : List BatchDomain} {domainId : String} {domain : BatchDomain}
    (found : manifest.find? (fun domain => domain.id = domainId) = some domain)
    {maxBatchSize : Nat} (positive : 0 < maxBatchSize) :
    ∃ batches, metricBatchesForDomain manifest domainId maxBatchSize = .ok batches ∧
      batches.flatten = domain.metrics ∧ (∀ batch ∈ batches, Sendable maxBatchSize batch) ∧
      ∀ front segment back, domain.metrics = front ++ segment ++ back → IsRun sectionKey front segment back →
        segment.length ≤ maxBatchSize → Whole batches front segment := by
  obtain ⟨packed, ran, ok⟩ := packs positive domain.metrics
  obtain ⟨flat, sendable, whole⟩ := ok.close fun one isIn => (sections_unmixed one isIn).1
  refine ⟨packed.close, ?_, flat.trans (sections_ok domain.metrics).flat, sendable, ?_⟩
  · unfold metricBatchesForDomain
    rw [found]
    simp only [ran]
    rfl
  · intro front segment back split run short
    obtain ⟨before, after, isSection, isFront⟩ := section_of_isRun run
    rw [← split] at isSection
    have inside := whole before segment after isSection short
    rwa [isFront] at inside

/-- **The batches of a domain.** They partition what is asked of the model exactly when the
limit is positive and no metric of the domain is derived. -/
theorem batches_partition_iff {manifest : List BatchDomain} {domainId : String} {domain : BatchDomain}
    (found : manifest.find? (fun domain => domain.id = domainId) = some domain) (maxBatchSize : Nat) :
    (∃ batches, metricBatchesForDomain manifest domainId maxBatchSize = .ok batches ∧
      Partitions maxBatchSize domain.metrics batches) ↔
    0 < maxBatchSize ∧ ∀ metric ∈ domain.metrics, metric.formula = none := by
  constructor
  · rintro ⟨batches, returned, partitions⟩
    rcases Nat.eq_zero_or_pos maxBatchSize with rfl | positive
    · unfold metricBatchesForDomain at returned
      rw [found] at returned
      simp only [packs_zero domain.filled] at returned
      cases returned
    · obtain ⟨all, same, flat, -⟩ := batches_spec found positive
      rw [Except.ok.inj (same.symm.trans returned)] at flat
      have kept : domain.metrics.filter (fun metric => metric.formula.isNone) = domain.metrics :=
        partitions.complete.symm.trans flat
      exact ⟨positive, fun metric isIn => Option.isNone_iff_eq_none.mp (List.filter_eq_self.mp kept metric isIn)⟩
  · rintro ⟨positive, underived⟩
    obtain ⟨batches, returned, flat, sendable, whole⟩ := batches_spec found positive
    refine ⟨batches, returned, ?_, sendable, whole⟩
    rw [flat, List.filter_eq_self.mpr fun metric isIn => Option.isNone_iff_eq_none.mpr (underived metric isIn)]

theorem plan_metrics {manifest : List BatchDomain} {domainIds : List String} {domains : List BatchDomain}
    (found : domainIds.map (fun domainId => manifest.find? fun domain => domain.id = domainId) = domains.map some) :
    ∃ plan, batchesForDomains manifest domainIds = .ok plan ∧
      (plan.map Batch.metrics).flatten = domains.flatMap BatchDomain.metrics := by
  have each : ∃ calls, (domainIds.mapM fun domainId =>
      (metricBatchesForDomain manifest domainId defaultMetricBatchSize).map fun chunks =>
        chunks.zipIdx.map fun (metrics, index) =>
          Batch.mk domainId index metrics (metrics.flatMap BatchMetric.sourceHints)) = .ok calls ∧
      (calls.flatten.map Batch.metrics).flatten = domains.flatMap BatchDomain.metrics := by
    induction domainIds generalizing domains with
    | nil =>
      obtain rfl := List.map_eq_nil_iff.mp found.symm
      exact ⟨[], rfl, rfl⟩
    | cons domainId rest ih =>
      obtain ⟨domain, later, rfl⟩ : ∃ domain later, domains = domain :: later := by
        cases domains with
        | nil => cases found
        | cons domain later => exact ⟨domain, later, rfl⟩
      obtain ⟨isDomain, restFound⟩ := List.cons.inj found
      obtain ⟨calls, called, restFlat⟩ := ih restFound
      obtain ⟨batches, returned, flat, -⟩ := @batches_spec _ _ _ isDomain defaultMetricBatchSize (by decide)
      refine ⟨_ :: calls, by rw [List.mapM_cons, called, returned]; rfl, ?_⟩
      have metrics : (batches.zipIdx.map fun (metrics, index) =>
          Batch.mk domainId index metrics (metrics.flatMap BatchMetric.sourceHints)).map Batch.metrics = batches := by
        rw [List.map_map]
        exact List.zipIdx_map_fst 0 batches
      rw [List.flatten_cons, List.map_append, List.flatten_append, metrics, restFlat, flat, List.flatMap_cons]
  obtain ⟨calls, called, flat⟩ := each
  exact ⟨calls.flatten, by rw [batchesForDomains, called]; rfl, flat⟩

def plainMetric (id hint : String) (formula : Option Authoring.Formula) : BatchMetric :=
  ⟨id, [hint], formula, List.cons_ne_nil _ _⟩

def plainDomain : BatchDomain :=
  ⟨"aid", [plainMetric "aid.offered" "H1" none, plainMetric "aid.awarded" "H1" none,
    plainMetric "aid.form" "H14" none], List.cons_ne_nil _ _⟩

theorem batches_partition_iff_plain :
    (∃ batches, metricBatchesForDomain [plainDomain] "aid" 2 = .ok batches ∧
      Partitions 2 plainDomain.metrics batches) ↔
    0 < 2 ∧ ∀ metric ∈ plainDomain.metrics, metric.formula = none :=
  batches_partition_iff (List.find?_cons_of_pos (decide_eq_true rfl)) 2

def derivedDomain : BatchDomain :=
  ⟨"aid", [plainMetric "aid.offered" "H1" none, plainMetric "aid.awarded" "H1" none,
    plainMetric "aid.total" "H1"
      (some ⟨⟨"sum", by decide⟩, [⟨"offered", by decide +kernel⟩, ⟨"awarded", by decide +kernel⟩]⟩)],
    List.cons_ne_nil _ _⟩

theorem plan_metrics_plain : ∃ plan, batchesForDomains [plainDomain] ["aid", "aid"] = .ok plan ∧
    (plan.map Batch.metrics).flatten = plainDomain.metrics ++ plainDomain.metrics :=
  @plan_metrics _ _ [plainDomain, plainDomain] rfl

/-- The derived metric is put into the batch with the metrics it is derived from. -/
theorem derived_is_batched :
    ¬ ∃ batches, metricBatchesForDomain [derivedDomain] "aid" 25 = .ok batches ∧
      Partitions 25 derivedDomain.metrics batches := by
  rintro ⟨batches, returned, partitions⟩
  obtain ⟨all, same, flat, -⟩ := @batches_spec [derivedDomain] "aid" derivedDomain
    (List.find?_cons_of_pos (decide_eq_true rfl)) 25 (by decide)
  rw [Except.ok.inj (same.symm.trans returned)] at flat
  have lengths := congrArg List.length (partitions.complete.symm.trans flat)
  exact absurd lengths (by decide)

end Counselle.Cds.Batching
