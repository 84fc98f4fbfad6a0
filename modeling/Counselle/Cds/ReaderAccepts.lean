import Counselle.Cds.CompiledMetric

/-! A manifest that compiles, before the reader. The compiler asks that the binders of a
context are distinct as they are written, the reader that they are when resolved. -/
namespace Counselle.Cds.Authoring
open PyJson (JsonValue)
open PyJson.JsonValue (get)
open Fallible (Yields)

def canonicalDomain (domain : Domain) : CanonicalDomain :=
  ⟨domain, domain.metrics.map (canonicalMetric domain.id)⟩

/-- What the compiler leaves of an authored domain for the reader to rely on. -/
structure Domain.Attached (bindings : List CompiledBinding) (domain : Domain) : Prop where
  written : ∀ metric ∈ domain.metrics, metric.Written
  attachable : ∀ metric ∈ domain.metrics, Attachable bindings domain.id (canonicalMetric domain.id metric)

structure Domain.ReadAs (bindings : List CompiledBinding) (domain : Domain) (read : ManifestDomain) : Prop where
  id : read.id = domain.id
  metrics : read.metrics = domain.metrics.map fun metric => (canonicalMetric domain.id metric).read bindings

theorem Domain.refs_nodup (domain : Domain) : domain.refs.Nodup := by
  have inject : Function.Injective fun id : StableId => local_ domain.id id.val := fun id other same =>
    Subtype.ext (local_inj domain.id.property domain.id.property same).2
  have distinct := domain.distinct.map inject
  rwa [List.map_map] at distinct

theorem hexDigit_hexDigits (n : Fin 16) : hexDigits.contains (Json.hexDigit n.val) = true := by
  revert n
  decide

theorem manifestHash_hex (digest : Digest) :
    manifestHash (some (.str (hexDigest digest))) = .ok (hexDigest digest).toLower := by
  have length : (hexDigest digest).toList.length = 64 := by
    simp [hexDigest, List.length_flatMap, digest.property]
  have digits : ((hexDigest digest).toList.all fun c => hexDigits.contains c) = true := by
    rw [List.all_eq_true]
    intro c isIn
    rw [hexDigest, String.toList_ofList, List.mem_flatMap] at isIn
    obtain ⟨byte, -, isDigit⟩ := isIn
    have small : byte.toNat < 256 := byte.toNat_lt
    rw [List.mem_cons, List.mem_singleton] at isDigit
    rcases isDigit with rfl | rfl
    · exact hexDigit_hexDigits ⟨byte.toNat / 16, by omega⟩
    · exact hexDigit_hexDigits ⟨byte.toNat % 16, by omega⟩
  rw [manifestHash, length, digits]
  rfl

def domainMembers (bindings : List CompiledBinding) (domain : Domain) : List (String × JsonValue) :=
  [("id", .str domain.id), ("title", .str domain.title),
    ("metrics", .list (domain.metrics.map fun metric => .dict (attach bindings (canonicalMetric domain.id metric))))]

theorem canonicalDomain_json (bindings : List CompiledBinding) (domain : Domain) :
    (canonicalDomain domain).json bindings = .dict (domainMembers bindings domain) := by
  rw [CanonicalDomain.json, canonicalDomain, List.map_map]
  rfl

theorem get_domainMembers_id (bindings : List CompiledBinding) (domain : Domain) :
    get (domainMembers bindings domain) "id" = some (.str domain.id) := rfl

theorem get_domainMembers_title (bindings : List CompiledBinding) (domain : Domain) :
    get (domainMembers bindings domain) "title" = some (.str domain.title) := rfl

theorem get_domainMembers_metrics (bindings : List CompiledBinding) (domain : Domain) :
    get (domainMembers bindings domain) "metrics" =
      some (.list (domain.metrics.map fun metric => .dict (attach bindings (canonicalMetric domain.id metric)))) := rfl

theorem compileDomain_yields {bindings : List CompiledBinding} {domain : Domain} {hashes : List (String × JsonValue)}
    {seenDomains seenRefs : List String} (attached : domain.Attached bindings) (unseen : domain.id.val ∉ seenDomains)
    (fresh : ∀ ref ∈ domain.refs, ref ∉ seenRefs)
    (hashed : ∃ digest, get hashes domain.id = some (.str (hexDigest digest))) :
    Yields (compileDomain hashes seenDomains seenRefs ((canonicalDomain domain).json bindings))
      (∀ metric ∈ domain.metrics, RefsDistinct bindings domain.id metric)
      (fun result => domain.ReadAs bindings result.1 ∧ result.2 = domain.refs.reverse ++ seenRefs) := by
  obtain ⟨digest, isHash⟩ := hashed
  have isSeen : seenDomains.contains domain.id.val = false := by simpa using unseen
  have metrics := compileMetrics_yields domain.id.property attached.written attached.attachable
    (fun metric isIn => fresh _ (List.mem_map_of_mem isIn)) domain.refs_nodup
  rw [canonicalDomain_json]
  unfold compileDomain
  simp only [asDict, orRaise, require, ok_bind, get_domainMembers_id, get_domainMembers_title, get_domainMembers_metrics,
    Option.bind_some, Option.getD_some, solidText_of_solid (isBlank_of_isId domain.id.property), isSeen, refuseIf,
    Bool.false_eq_true, if_false, solidText_of_solid domain.title.property, asList, isHash, manifestHash_hex]
  refine (metrics.bind fun read isRead => ?_).congr (iff_of_eq (and_true _))
  subst isRead
  exact Yields.ok ⟨⟨rfl, rfl⟩, rfl⟩

theorem refs_disjoint {domain other : Domain} {ref : String} (isRef : ref ∈ domain.refs) (otherRef : ref ∈ other.refs) :
    domain.id = other.id := by
  obtain ⟨metric, -, rfl⟩ := List.mem_map.mp isRef
  obtain ⟨otherMetric, -, same⟩ := List.mem_map.mp otherRef
  exact Subtype.ext (local_inj other.id.property domain.id.property same).1.symm

theorem compileDomains_yields {bindings : List CompiledBinding} {hashes : List (String × JsonValue)}
    {domains : List Domain} {seenDomains seenRefs : List String}
    (attached : ∀ domain ∈ domains, domain.Attached bindings) (distinct : (domains.map (·.id)).Nodup)
    (unseen : ∀ domain ∈ domains, domain.id.val ∉ seenDomains)
    (fresh : ∀ domain ∈ domains, ∀ ref ∈ domain.refs, ref ∉ seenRefs)
    (hashed : ∀ domain ∈ domains, ∃ digest, get hashes domain.id = some (.str (hexDigest digest))) :
    Yields (compileDomains hashes (domains.map fun domain => (canonicalDomain domain).json bindings) seenDomains seenRefs)
      (∀ domain ∈ domains, ∀ metric ∈ domain.metrics, RefsDistinct bindings domain.id metric)
      (fun result => List.Forall₂ (fun domain => domain.ReadAs bindings) domains result.1 ∧
        result.2 = (domains.flatMap Domain.refs).reverse ++ seenRefs) := by
  induction domains generalizing seenDomains seenRefs with
  | nil =>
    refine Yields.congr (Yields.ok ?_) (by simp)
    simp
  | cons domain rest ih =>
    rw [List.forall_mem_cons] at attached unseen fresh hashed
    rw [List.map_cons, List.nodup_cons] at distinct
    have apart : ∀ other ∈ rest, domain.id ≠ other.id := fun other isIn same =>
      distinct.1 (same ▸ List.mem_map_of_mem isIn)
    have first := compileDomain_yields attached.1 unseen.1 fresh.1 hashed.1
    have unseenLater : ∀ other ∈ rest, other.id.val ∉ domain.id.val :: seenDomains := by
      intro other isIn
      rw [List.mem_cons, not_or]
      exact ⟨fun same => apart other isIn (Subtype.ext same.symm), unseen.2 other isIn⟩
    have freshLater : ∀ other ∈ rest, ∀ ref ∈ other.refs, ref ∉ domain.refs.reverse ++ seenRefs := by
      intro other isIn ref isRef
      rw [List.mem_append, List.mem_reverse, not_or]
      exact ⟨fun here => apart other isIn (refs_disjoint here isRef), fresh.2 other isIn ref isRef⟩
    have later := ih attached.2 distinct.2 unseenLater freshLater hashed.2
    rw [List.map_cons, compileDomains, List.forall_mem_cons]
    refine first.bind fun result reads => ?_
    obtain ⟨read, refs⟩ := result
    obtain ⟨isRead, rfl⟩ := reads
    change Yields (compileDomains hashes _ (read.id :: seenDomains) _ >>= _) _ _
    rw [isRead.id]
    refine (later.bind fun others areOthers => ?_).congr (iff_of_eq (and_true _))
    apply Yields.ok
    refine ⟨.cons isRead areOthers.1, ?_⟩
    rw [areOthers.2]
    simp

structure CompiledBinding.From (metricOrder : List String) (domain : CanonicalDomain) (binding : ContextBinding)
    (compiled : CompiledBinding) : Prop where
  id : compiled.context.id = local_ domain.authored.id binding.id
  label : compiled.context.label = binding.label
  refs : compiled.context.refs.Perm (binding.binders.map fun binder => qualified domain.authored.id binder.val)
  known : ∀ ref ∈ compiled.context.refs, ref ∈ metricOrder
  targets : ∀ id ∈ compiled.targets, id ∈ domain.metrics.map (·.id)
  targeted : compiled.targets ≠ []

theorem resolveRef_ok {domainId : String} {metricOrder : List String} {binder ref : String}
    (resolved : resolveRef domainId metricOrder binder = .ok ref) : ref = qualified domainId binder ∧ ref ∈ metricOrder := by
  rw [resolveRef] at resolved
  split at resolved
  case isFalse => cases resolved
  case isTrue known =>
    obtain rfl := Except.ok.inj resolved
    exact ⟨rfl, List.contains_iff_mem.mp known⟩

theorem resolveRefs_ok {binders : List Reference} {domainId : String} {metricOrder refs : List String}
    (resolved : resolveRefs binders domainId metricOrder = .ok refs) :
    refs.Perm (binders.map fun binder => qualified domainId binder.val) ∧ ∀ ref ∈ refs, ref ∈ metricOrder := by
  obtain ⟨written, areWritten, rfl⟩ := Fallible.map_ok_iff.mp resolved
  have sorted := List.perm_insertionSort (fun a b => metricOrder.idxOf a ≤ metricOrder.idxOf b) written
  have each := (Fallible.mapM_ok_iff.mp areWritten).imp fun binder ref => resolveRef_ok
  have both : written = (binders.map fun binder => qualified domainId binder.val) ∧ ∀ ref ∈ written, ref ∈ metricOrder := by
    clear resolved areWritten sorted
    induction each with
    | nil => simp
    | cons here _ ih =>
      obtain ⟨rfl, known⟩ := here
      exact ⟨congrArg (_ :: ·) ih.1, List.forall_mem_cons.mpr ⟨known, ih.2⟩⟩
  rw [← both.1]
  exact ⟨sorted, fun ref isIn => both.2 ref (sorted.mem_iff.mp isIn)⟩

theorem selectBy_sublist {localMetrics selected others : List CanonicalMetric} {domainId : String}
    {selector : Selector} {values : List String}
    (isSelected : selectBy localMetrics selected domainId selector values = .ok others) : others.Sublist selected := by
  unfold selectBy at isSelected
  cases selector with
  | periodKinds =>
    simp only at isSelected
    split at isSelected
    · cases isSelected
    · split at isSelected
      · obtain rfl := Except.ok.inj isSelected
        exact List.filter_sublist
      · cases isSelected
  | _ =>
    simp only at isSelected
    split at isSelected
    · obtain rfl := Except.ok.inj isSelected
      exact List.filter_sublist
    · cases isSelected

theorem selectTargetMetrics_sublist {localMetrics selected : List CanonicalMetric} {targets : ContextTargets}
    {domainId : String} (isSelected : selectTargetMetrics localMetrics targets domainId = .ok selected) :
    selected.Sublist localMetrics := by
  rw [selectTargetMetrics] at isSelected
  suffices ∀ entries start, List.foldlM (fun selected entry => selectBy localMetrics selected domainId
      (Prod.fst entry) (Prod.snd entry)) start entries = .ok selected → selected.Sublist start from
    this _ _ isSelected
  intro entries
  induction entries with
  | nil =>
    intro start same
    exact Except.ok.inj same ▸ List.Sublist.refl start
  | cons entry rest ih =>
    intro start chosen
    rw [List.foldlM_cons] at chosen
    obtain ⟨next, isNext, chosen⟩ := Fallible.bind_ok_iff.mp chosen
    exact (ih next chosen).trans (selectBy_sublist isNext)

theorem compileBinding_from {metricOrder : List String} {domain : CanonicalDomain} {binding : ContextBinding}
    {compiled : CompiledBinding} (isCompiled : compileBinding metricOrder domain binding = .ok compiled) :
    compiled.From metricOrder domain binding := by
  obtain ⟨refs, areRefs, isCompiled⟩ := Fallible.bind_ok_iff.mp isCompiled
  obtain ⟨selected, isSelected, isCompiled⟩ := Fallible.bind_ok_iff.mp isCompiled
  simp only at isCompiled
  split at isCompiled
  · cases isCompiled
  · split at isCompiled
    · cases isCompiled
    next some =>
      obtain rfl := Except.ok.inj isCompiled
      obtain ⟨perm, known⟩ := resolveRefs_ok areRefs
      exact {
        id := rfl
        label := rfl
        refs := perm
        known := known
        targets := fun id isIn => ((selectTargetMetrics_sublist isSelected).map _).subset isIn
        targeted := by simpa using some }

theorem compileBindings_from {metricOrder : List String} {pairs : List (CanonicalDomain × ContextBinding)}
    {seen : List String} {bindings : List CompiledBinding}
    (areCompiled : compileBindings metricOrder pairs seen = .ok bindings) :
    List.Forall₂ (fun pair (compiled : CompiledBinding) => compiled.From metricOrder pair.1 pair.2) pairs bindings ∧
      (bindings.map (·.context.id)).Nodup ∧ ∀ binding ∈ bindings, binding.context.id ∉ seen := by
  induction pairs generalizing seen bindings with
  | nil =>
    obtain rfl := Except.ok.inj areCompiled
    simp
  | cons pair rest ih =>
    obtain ⟨domain, binding⟩ := pair
    rw [compileBindings] at areCompiled
    split at areCompiled
    case isTrue => cases areCompiled
    case isFalse unseen =>
      obtain ⟨compiled, isCompiled, areCompiled⟩ := Fallible.bind_ok_iff.mp areCompiled
      obtain ⟨others, areOthers, areCompiled⟩ := Fallible.bind_ok_iff.mp areCompiled
      obtain rfl := Except.ok.inj areCompiled
      have isFrom := compileBinding_from isCompiled
      obtain ⟨from', distinct, apart⟩ := ih areOthers
      rw [← isFrom.id] at apart unseen
      refine ⟨.cons isFrom from', ?_, ?_⟩
      · rw [List.map_cons, List.nodup_cons]
        refine ⟨fun isIn => ?_, distinct⟩
        obtain ⟨other, isOther, same⟩ := List.mem_map.mp isIn
        exact apart other isOther (same ▸ List.mem_cons_self)
      · rw [List.forall_mem_cons]
        refine ⟨by simpa using unseen, fun other isOther isSeen => ?_⟩
        exact apart other isOther (List.mem_cons_of_mem _ isSeen)

/-- The binders of the contexts, as they are resolved, are not repeated. -/
def Domain.BindersDistinct (domain : Domain) : Prop :=
  ∀ binding ∈ domain.contextBindings, (binding.binders.map fun binder => qualified domain.id binder.val).Nodup

section Contexts
variable {domains : List Domain} {bindings : List CompiledBinding}

/-- Each compiled binding is of a domain, and each binding of a domain is compiled. -/
structure Compiles (domains : List Domain) (bindings : List CompiledBinding) : Prop where
  source : ∀ compiled ∈ bindings, ∃ domain ∈ domains, ∃ binding ∈ domain.contextBindings,
    compiled.From (domains.flatMap Domain.refs) (canonicalDomain domain) binding
  target : ∀ domain ∈ domains, ∀ binding ∈ domain.contextBindings, ∃ compiled ∈ bindings,
    compiled.From (domains.flatMap Domain.refs) (canonicalDomain domain) binding
  distinct : (bindings.map (·.context.id)).Nodup

theorem canonical_refs (domain : Domain) : (canonicalDomain domain).metrics.map (·.id) = domain.refs := by
  rw [canonicalDomain, Domain.refs, List.map_map]
  exact List.map_congr_left fun metric _ => canonical_id domain.id metric

theorem compileContexts_compiles (areCompiled : compileContexts (canonicalizeDomains domains) = .ok bindings) :
    Compiles domains bindings := by
  obtain ⟨others, areOthers, areCompiled⟩ := Fallible.bind_ok_iff.mp areCompiled
  have same : others = bindings := by
    split at areCompiled
    · exact Except.ok.inj areCompiled
    · cases areCompiled
  subst same
  have order : ((canonicalizeDomains domains).flatMap fun domain => domain.metrics.map (·.id)) =
      domains.flatMap Domain.refs := by
    rw [canonicalizeDomains, List.flatMap_map]
    exact List.flatMap_congr fun domain _ => canonical_refs domain
  rw [order] at areOthers
  obtain ⟨pairs, distinct, -⟩ := compileBindings_from areOthers
  refine ⟨fun compiled isIn => ?_, fun domain isDomain binding isBinding => ?_, distinct⟩
  · obtain ⟨pair, isPair, isFrom⟩ := Fallible.forall₂_mem_left pairs.flip compiled isIn
    obtain ⟨canonical, isCanonical, isPair⟩ := List.mem_flatMap.mp isPair
    obtain ⟨domain, isDomain, rfl⟩ := List.mem_map.mp isCanonical
    obtain ⟨binding, isBinding, rfl⟩ := List.mem_map.mp isPair
    exact ⟨domain, isDomain, binding, isBinding, isFrom⟩
  · have isPair : (canonicalDomain domain, binding) ∈ (canonicalizeDomains domains).flatMap fun domain =>
        domain.authored.contextBindings.map fun binding => (domain, binding) :=
      List.mem_flatMap.mpr ⟨canonicalDomain domain, List.mem_map_of_mem isDomain, List.mem_map_of_mem isBinding⟩
    obtain ⟨compiled, isCompiled, isFrom⟩ := Fallible.forall₂_mem_left pairs _ isPair
    exact ⟨compiled, isCompiled, isFrom⟩

theorem Compiles.own (compiles : Compiles domains bindings) {domain : Domain} {metric : Metric} {context : Context}
    (isMetric : metric ∈ domain.metrics)
    (isOwn : context ∈ ownContexts bindings (local_ domain.id metric.id)) :
    ∃ other ∈ domains, other.id = domain.id ∧ ∃ binding ∈ other.contextBindings, ∃ compiled ∈ bindings,
      compiled.context = context ∧ compiled.From (domains.flatMap Domain.refs) (canonicalDomain other) binding := by
  obtain ⟨compiled, isCompiled, rfl⟩ := List.mem_map.mp isOwn
  rw [List.mem_filter, List.contains_iff_mem] at isCompiled
  obtain ⟨other, isOther, binding, isBinding, isFrom⟩ := compiles.source compiled isCompiled.1
  have isRef := isFrom.targets _ isCompiled.2
  rw [canonical_refs] at isRef
  exact ⟨other, isOther, refs_disjoint isRef (List.mem_map_of_mem isMetric), binding, isBinding, compiled, isCompiled.1,
    rfl, isFrom⟩

theorem CompiledBinding.From.formed {metricOrder : List String} {domain : Domain} {binding : ContextBinding}
    {compiled : CompiledBinding} (isFrom : compiled.From metricOrder (canonicalDomain domain) binding) :
    compiled.context.Formed domain.id where
  isRef := by
    rw [isFrom.id]
    exact isRefOf_local domain.id.property binding.id.property
  solid := by
    rw [isFrom.label]
    exact binding.label.property
  bound none := by
    have perm := isFrom.refs
    rw [none] at perm
    exact binding.bound (List.map_eq_nil_iff.mp perm.nil_eq.symm)

theorem Compiles.attached (compiles : Compiles domains bindings) {domain : Domain}
    (written : ∀ metric ∈ domain.metrics, metric.Written) : domain.Attached bindings where
  written := written
  attachable metric isMetric := by
    refine ⟨fun context isOwn => ?_, ?_⟩
    · rw [canonical_id] at isOwn
      obtain ⟨other, -, same, binding, -, compiled, -, rfl, isFrom⟩ := compiles.own isMetric isOwn
      exact same ▸ isFrom.formed
    · rw [ownContexts, List.map_map]
      exact compiles.distinct.sublist (List.filter_sublist.map _)

theorem Compiles.distinct_iff (compiles : Compiles domains bindings) :
    (∀ domain ∈ domains, ∀ metric ∈ domain.metrics, RefsDistinct bindings domain.id metric) ↔
      ∀ domain ∈ domains, domain.BindersDistinct := by
  constructor
  · intro each domain isDomain binding isBinding
    obtain ⟨compiled, isCompiled, isFrom⟩ := compiles.target domain isDomain binding isBinding
    obtain ⟨id, isTarget⟩ := List.exists_mem_of_ne_nil _ isFrom.targeted
    have isRef := isFrom.targets id isTarget
    rw [canonical_refs] at isRef
    obtain ⟨metric, isMetric, rfl⟩ := List.mem_map.mp isRef
    have distinct := each domain isDomain metric isMetric compiled.context
      (List.mem_map_of_mem (List.mem_filter.mpr ⟨isCompiled, List.contains_iff_mem.mpr isTarget⟩))
    exact isFrom.refs.nodup_iff.mp distinct
  · intro each domain isDomain metric isMetric context isOwn
    obtain ⟨other, isOther, -, binding, isBinding, compiled, -, rfl, isFrom⟩ := compiles.own isMetric isOwn
    exact isFrom.refs.nodup_iff.mpr (each other isOther binding isBinding)

end Contexts

theorem validateDomain_written {members : List (String × JsonValue)} {domain : Domain}
    (valid : validateDomain members = some domain) :
    get members "id" = some (.str domain.id) ∧ ∀ metric ∈ domain.metrics, metric.Written := by
  unfold validateDomain at valid
  split at valid
  case isTrue => cases valid
  case isFalse =>
    obtain ⟨id, isId, valid⟩ := Option.bind_eq_some_iff.mp valid
    obtain ⟨title, -, valid⟩ := Option.bind_eq_some_iff.mp valid
    obtain ⟨metrics, areMetrics, valid⟩ := Option.bind_eq_some_iff.mp valid
    obtain ⟨contextBindings, -, valid⟩ := Option.bind_eq_some_iff.mp valid
    split at valid
    case isTrue => cases valid
    case isFalse =>
      split at valid
      case isFalse => cases valid
      case isTrue =>
        obtain rfl := Option.some.inj valid
        obtain ⟨value, found, isRead⟩ := field_some isId
        refine ⟨by rw [found, asId_some isRead], ?_⟩
        obtain ⟨value, -, isRead⟩ := field_some areMetrics
        obtain ⟨values, -, areRead⟩ := Option.bind_eq_some_iff.mp isRead
        intro metric isMetric
        obtain ⟨source, -, isSource⟩ := Fallible.mapM_some_mem areRead metric isMetric
        exact validateMetric_written isSource

theorem readDomains_ok {files : List (String × List (String × JsonValue))} {seen : List String}
    {domains : List Domain} (areRead : readDomains files seen = .ok domains) :
    List.Forall₂ (fun file domain => validateDomain (Prod.snd file) = some domain) files domains ∧
      (domains.map (·.id)).Nodup ∧ ∀ domain ∈ domains, domain.id.val ∉ seen := by
  induction files generalizing seen domains with
  | nil =>
    obtain rfl := Except.ok.inj areRead
    simp
  | cons file rest ih =>
    obtain ⟨stem, members⟩ := file
    rw [readDomains] at areRead
    split at areRead
    case h_2 => cases areRead
    case h_1 domainId isId =>
      split at areRead
      case isTrue => cases areRead
      case isFalse =>
        split at areRead
        case isTrue => cases areRead
        case isFalse unseen =>
          split at areRead
          case h_1 => cases areRead
          case h_2 domain valid =>
            obtain ⟨others, areOthers, rfl⟩ := Fallible.map_ok_iff.mp areRead
            obtain ⟨pairs, distinct, apart⟩ := ih areOthers
            have same := isId.symm.trans (validateDomain_written valid).1
            obtain rfl := JsonValue.str.inj (Option.some.inj same)
            refine ⟨.cons valid pairs, ?_, ?_⟩
            · rw [List.map_cons, List.nodup_cons]
              refine ⟨fun isIn => ?_, distinct⟩
              obtain ⟨other, isOther, same⟩ := List.mem_map.mp isIn
              exact apart other isOther (same ▸ List.mem_cons_self)
            · rw [List.forall_mem_cons]
              refine ⟨by simpa using unseen, fun other isOther isSeen => ?_⟩
              exact apart other isOther (List.mem_cons_of_mem _ isSeen)

/-- The binders of each context are distinct once they are resolved in their domain. -/
def ConfigDir.BindersDistinct (config : ConfigDir) : Prop :=
  ∀ file ∈ config.domains.getD [], ∀ domain, validateDomain file.2 = some domain → domain.BindersDistinct

def contextJson (context : ManifestContext) : JsonValue :=
  .dict [("id", .str context.id), ("label", .str context.label), ("refs", texts context.refs)]

structure DescribesMetric (value : JsonValue) (metric : ManifestMetric) : Prop where
  ref : (asDict value).bind (get · "id") = some (.str metric.ref)
  type : (asDict value).bind (get · "type") = some (.str metric.type.name)
  unit : (asDict value).bind (get · "unit") = metric.unit.map .str
  contexts : ((asDict value).bind (get · "contexts")).getD (.list []) = .list (metric.contexts.map contextJson)

structure DescribesDomain (value : JsonValue) (domain : ManifestDomain) : Prop where
  id : (asDict value).bind (get · "id") = some (.str domain.id)
  metrics : ∃ items, (asDict value).bind (get · "metrics") = some (.list items) ∧
    List.Forall₂ DescribesMetric items domain.metrics

/-- The snapshot has the domains of the content, in their order, with their metrics. -/
def Describes (content : JsonValue) (snapshot : ManifestSnapshot) : Prop :=
  ∃ items, (asDict content).bind (get · "domains") = some (.list items) ∧
    List.Forall₂ DescribesDomain items snapshot.domains

theorem describes_metric {bindings : List CompiledBinding} {domainId : String} {authored : Metric}
    (written : authored.Written) :
    DescribesMetric (.dict (attach bindings (canonicalMetric domainId authored)))
      ((canonicalMetric domainId authored).read bindings) where
  ref := by
    rw [CanonicalMetric.read, canonical_id]
    exact (get_attach (by decide)).trans (get_canonical_id domainId authored)
  type := by
    rw [CanonicalMetric.read, canonical_authored]
    exact (get_attach (by decide)).trans ((get_canonical (by decide) (by decide)).trans written.type)
  unit := by
    rw [CanonicalMetric.read, canonical_authored]
    exact (get_attach (by decide)).trans ((get_canonical (by decide) (by decide)).trans written.unit)
  contexts := by
    rw [CanonicalMetric.read, List.map_map]
    exact get_attach_contexts ((get_canonical (by decide) (by decide)).trans written.uncontexted)

theorem describes_domain {bindings : List CompiledBinding} {domain : Domain} {read : ManifestDomain}
    (written : ∀ metric ∈ domain.metrics, metric.Written) (isRead : domain.ReadAs bindings read) :
    DescribesDomain ((canonicalDomain domain).json bindings) read := by
  rw [canonicalDomain_json]
  refine ⟨?_, _, get_domainMembers_metrics bindings domain, ?_⟩
  · rw [isRead.id]
    exact get_domainMembers_id bindings domain
  · rw [isRead.metrics, List.forall₂_map_left_iff, List.forall₂_map_right_iff, List.forall₂_same]
    exact fun metric isMetric => describes_metric (written metric isMetric)

theorem get_hash {domains : List Domain} (hash : Domain → Digest) {domain : Domain} (isDomain : domain ∈ domains) :
    ∃ digest, get (jsonHashes (domains.map fun domain => (domain.id.val, hexDigest (hash domain)))) domain.id =
      some (.str (hexDigest digest)) := by
  rw [get_jsonHashes]
  induction domains with
  | nil => cases isDomain
  | cons first rest ih =>
    rw [List.map_cons, List.lookup_cons]
    split
    next => exact ⟨hash first, rfl⟩
    next apart =>
      rcases List.mem_cons.mp isDomain with rfl | later
      · rw [beq_self_eq_true] at apart
        cases apart
      · exact ih later

theorem sameNames_self (names : List String) : sameNames names names = true := by
  simp [sameNames]

theorem loadConfig_ok {config : ConfigDir} {prompt : String} {domains : List Domain}
    (loaded : loadConfig config = .ok (prompt, domains)) :
    ∃ files, config.domains = some files ∧ readDomains files [] = .ok domains ∧ domains.isEmpty = false := by
  unfold loadConfig at loaded
  split at loaded
  case isTrue => cases loaded
  case isFalse =>
    split at loaded
    case h_1 => cases loaded
    case h_2 => cases loaded
    case h_3 =>
      split at loaded
      case isTrue => cases loaded
      case isFalse =>
        split at loaded
        case h_1 => cases loaded
        case h_2 files isFiles =>
          obtain ⟨others, areOthers, loaded⟩ := Fallible.bind_ok_iff.mp loaded
          split at loaded
          case isTrue => cases loaded
          case isFalse some =>
            obtain ⟨-, -, loaded⟩ := Fallible.bind_ok_iff.mp loaded
            obtain ⟨rfl, rfl⟩ := Prod.mk.inj (Except.ok.inj loaded)
            exact ⟨files, isFiles, areOthers, by simpa using some⟩

theorem compileManifest_yields {domains : List Domain} {bindings : List CompiledBinding}
    (compiles : Compiles domains bindings) (written : ∀ domain ∈ domains, ∀ metric ∈ domain.metrics, metric.Written)
    (distinct : (domains.map (·.id)).Nodup) (some : domains.isEmpty = false) (hash : Domain → Digest)
    (version prompt : String) (root : List (String × JsonValue)) :
    Yields (Cds.compileManifest version (contentOf root (canonicalizeDomains domains) bindings prompt)
        (.some (jsonHashes (domains.map fun domain => (domain.id.val, hexDigest (hash domain))))))
      (∀ domain ∈ domains, domain.BindersDistinct)
      (Describes (contentOf root (canonicalizeDomains domains) bindings prompt)) := by
  have read := @compileDomains_yields bindings _ domains [] []
    (fun domain isDomain => compiles.attached (written domain isDomain)) distinct (fun _ _ => List.not_mem_nil)
    (fun _ _ _ _ => List.not_mem_nil) (fun domain => get_hash hash)
  have isDomains : (asDict (contentOf root (canonicalizeDomains domains) bindings prompt)).bind (get · "domains") =
      .some (.list (domains.map fun domain => (canonicalDomain domain).json bindings)) := by
    rw [contentOf, canonicalizeDomains, List.map_map]
    rfl
  unfold Cds.compileManifest
  rw [isDomains]
  refine ((read.congr compiles.distinct_iff).bind (fun result areRead => ?_)).congr (iff_of_eq (and_true _))
  obtain ⟨reads, refs⟩ := areRead
  obtain ⟨results, seenRefs⟩ := result
  change List.Forall₂ _ domains results at reads
  change seenRefs = _ at refs
  have filled : results.isEmpty = false := by
    cases reads with
    | nil => exact some
    | cons => rfl
  have named : (jsonHashes (domains.map fun domain => (domain.id.val, hexDigest (hash domain)))).map Prod.fst =
      results.map (·.id) := by
    clear read compiles written distinct some isDomains refs filled
    induction reads with
    | nil => rfl
    | cons here _ ih =>
      rw [List.map_cons, List.map_cons, ← ih, here.id]
      rfl
  have known : (results.any fun domain => domain.metrics.any fun metric =>
      metric.contexts.any fun context => context.refs.any fun ref => !seenRefs.contains ref) = false := by
    simp only [List.any_eq_false, Bool.not_eq_true, Bool.not_eq_false', List.contains_iff_mem]
    intro read isRead metric isMetric context isContext ref isRef
    obtain ⟨domain, isDomain, readAs⟩ := Fallible.forall₂_mem_left reads.flip read isRead
    rw [readAs.metrics] at isMetric
    obtain ⟨authored, isAuthored, rfl⟩ := List.mem_map.mp isMetric
    rw [CanonicalMetric.read, canonical_id] at isContext
    obtain ⟨own, isOwn, rfl⟩ := List.mem_map.mp isContext
    obtain ⟨_, _, _, _, _, compiled, _, rfl, isFrom⟩ := compiles.own isAuthored isOwn
    rw [refs, List.append_nil, List.mem_reverse]
    exact isFrom.known ref isRef
  simp only [filled, Option.any_some, named, sameNames_self, Bool.not_true, Bool.or_self, known, refuseIf,
    Bool.false_eq_true, if_false, ok_bind]
  apply Yields.ok
  refine ⟨_, isDomains, ?_⟩
  rw [List.forall₂_map_left_iff]
  clear read compiles distinct some isDomains refs filled named known
  induction reads with
  | nil => exact .nil
  | cons here _ ih =>
    rw [List.forall_mem_cons] at written
    exact .cons (describes_domain written.1 here) (ih written.2)

/-- A manifest that compiles is accepted by the reader exactly when the resolved binders of
each context are distinct, and then the snapshot is the manifest's. -/
theorem compiled_accepted_iff (sha256 : JsonValue → Digest) (config : ConfigDir) (compiled : CompiledManifest)
    (isCompiled : compileManifest sha256 config = .ok compiled) (version : String) :
    (∃ snapshot, Cds.compileManifest version compiled.content (some (jsonHashes compiled.domainHashes)) = .ok snapshot ∧
        Describes compiled.content snapshot) ↔ config.BindersDistinct := by
  obtain ⟨⟨prompt, domains⟩, loaded, isCompiled⟩ := Fallible.bind_ok_iff.mp isCompiled
  obtain ⟨bindings, areBindings, isCompiled⟩ := Fallible.bind_ok_iff.mp isCompiled
  obtain ⟨-, -, isCompiled⟩ := Fallible.bind_ok_iff.mp isCompiled
  obtain rfl := Except.ok.inj isCompiled
  obtain ⟨files, isFiles, areRead, some⟩ := loadConfig_ok loaded
  obtain ⟨pairs, distinct, -⟩ := readDomains_ok areRead
  have written : ∀ domain ∈ domains, ∀ metric ∈ domain.metrics, metric.Written := by
    intro domain isDomain
    obtain ⟨file, -, valid⟩ := Fallible.forall₂_mem_left pairs.flip domain isDomain
    exact (validateDomain_written valid).2
  have same : config.BindersDistinct ↔ ∀ domain ∈ domains, domain.BindersDistinct := by
    rw [ConfigDir.BindersDistinct, isFiles, Option.getD_some]
    constructor
    · intro each domain isDomain
      obtain ⟨file, isFile, valid⟩ := Fallible.forall₂_mem_left pairs.flip domain isDomain
      exact each file isFile domain valid
    · intro each file isFile domain valid
      obtain ⟨other, isOther, otherValid⟩ := Fallible.forall₂_mem_left pairs file isFile
      obtain rfl := Option.some.inj (valid.symm.trans otherValid)
      exact each domain isOther
  have read := compileManifest_yields (compileContexts_compiles areBindings) written distinct some
    (fun domain => sha256 (semanticDomain (canonicalDomain domain) bindings prompt)) version prompt config.root
  have hashes : (canonicalizeDomains domains).map (fun domain =>
      (domain.authored.id.val, hexDigest (sha256 (semanticDomain domain bindings prompt)))) =
      domains.map fun domain => (domain.id.val,
        hexDigest (sha256 (semanticDomain (canonicalDomain domain) bindings prompt))) := by
    rw [canonicalizeDomains, List.map_map]
    rfl
  rw [same]
  simp only [hashes]
  constructor
  · rintro ⟨snapshot, isRead, -⟩
    exact read.needs snapshot isRead
  · intro each
    obtain ⟨snapshot, isRead⟩ := read.succeeds each
    exact ⟨snapshot, isRead, read.returns snapshot isRead⟩

def authoredMetric (id : String) : JsonValue :=
  .dict [("id", .str id), ("description", .str "A count."), ("type", .str "integer"), ("unit", .str "count"),
    ("population", .str "all_students"), ("denominator", .str "none"), ("definition_variant", .str "reported"),
    ("period_kind", .str "academic_year"), ("source_hints", texts ["A1"]), ("instructions", .str "Read it.")]

/-- A domain with two metrics, the second in a context of the binders. -/
def sampleConfig (binders : List String) : ConfigDir where
  root := [("version", .str "1"), ("description", .str "Metrics."),
    ("extraction_groups", .list [texts ["general"]]), ("page_routing_enabled", .bool false)]
  prompt := some "Extract."
  domains := some [("general", [("id", .str "general"), ("title", .str "General"),
    ("metrics", .list [authoredMetric "total", authoredMetric "share"]),
    ("context_bindings", .list [.dict [("id", .str "whole"), ("label", .str "The whole"), ("binders", texts binders),
      ("targets", .dict [("metric_ids", texts ["share"])])]])])]

def zeroDigest : Digest := ⟨List.replicate 32 0, List.length_replicate⟩

theorem compiled_accepted_iff_sample : ∃ compiled,
    compileManifest (fun _ => zeroDigest) (sampleConfig ["total"]) = .ok compiled ∧
      ((∃ snapshot, Cds.compileManifest "1" compiled.content (some (jsonHashes compiled.domainHashes)) = .ok snapshot ∧
        Describes compiled.content snapshot) ↔ (sampleConfig ["total"]).BindersDistinct) := by
  obtain ⟨compiled, isCompiled⟩ := @exists_of_isOk _ _ (compileManifest (fun _ => zeroDigest) (sampleConfig ["total"]))
    (by decide +kernel)
  exact ⟨compiled, isCompiled, compiled_accepted_iff _ _ compiled isCompiled "1"⟩

def readBack (config : ConfigDir) : Option ManifestError :=
  match compileManifest (fun _ => zeroDigest) config with
  | .error _ => none
  | .ok compiled =>
    match Cds.compileManifest "1" compiled.content (some (jsonHashes compiled.domainHashes)) with
    | .error error => some error
    | .ok _ => none

/-- A binder written with its domain beside the same one written without it is compiled,
and the reader refuses the manifest. -/
theorem repeated_binder_refused : ¬ ∀ (sha256 : JsonValue → Digest) (config : ConfigDir) (compiled : CompiledManifest),
    compileManifest sha256 config = .ok compiled → ∀ version, ∃ snapshot,
      Cds.compileManifest version compiled.content (some (jsonHashes compiled.domainHashes)) = .ok snapshot ∧
        Describes compiled.content snapshot := by
  intro accepted
  have refused : readBack (sampleConfig ["total", "general.total"]) = some (.service emptyContext) := by
    decide +kernel
  unfold readBack at refused
  split at refused
  case h_1 => cases refused
  case h_2 compiled isCompiled =>
    obtain ⟨snapshot, isRead, -⟩ := accepted _ _ compiled isCompiled "1"
    rw [isRead] at refused
    cases refused

end Counselle.Cds.Authoring
