import Counselle.Cds.ManifestCompile
import Counselle.Cds.Storable

/-! What the reader makes of a compiled metric: it takes every field that the compiler
wrote, and asks of the contexts that no reference comes twice in one. -/
namespace Counselle.Cds.Authoring
open PyJson (JsonValue)
open PyJson.JsonValue (get)
open Fallible (Yields)

theorem not_dot_of_isIdText {text : List Char} (stable : isIdText text = true) : ∀ c ∈ text, c ≠ '.' := by
  cases text with
  | nil => nofun
  | cons first rest =>
    rw [isIdText, Bool.and_eq_true, List.all_eq_true] at stable
    have letter : isLetter '.' = false := by decide
    intro c isIn same
    subst same
    rcases List.mem_cons.mp isIn with same | isIn
    · rw [← same, letter] at stable
      cases stable.1
    · have bad := stable.2 '.' isIn
      rw [letter] at bad
      exact absurd bad (by decide)

theorem toList_local (domainId id : String) : (local_ domainId id).toList = domainId.toList ++ '.' :: id.toList := by
  simp [local_]

theorem takeWhile_local {domainId : String} (stable : isId domainId = true) (id : String) :
    (local_ domainId id).toList.takeWhile (· ≠ '.') = domainId.toList := by
  rw [toList_local, List.takeWhile_append_of_pos, List.takeWhile_cons_of_neg (by decide), List.append_nil]
  intro c isIn
  simpa using not_dot_of_isIdText stable c isIn

theorem local_inj {domainId other : String} (stable : isId domainId = true) (otherStable : isId other = true)
    {id otherId : String} (same : local_ domainId id = local_ other otherId) : domainId = other ∧ id = otherId := by
  have domains := takeWhile_local stable id
  rw [same, takeWhile_local otherStable] at domains
  have domains := String.toList_inj.mp domains
  subst domains
  have texts := congrArg String.toList same
  rw [toList_local, toList_local] at texts
  exact ⟨rfl, String.toList_inj.mp (List.cons.inj (List.append_cancel_left texts)).2⟩

theorem isRefOf_local {domainId id : String} (stable : isId domainId = true) (idStable : isId id = true) :
    isRefOf domainId (local_ domainId id) = true := by
  have none : ∀ {text : String}, isId text = true → text.toList.count '.' = 0 := fun stable =>
    List.count_eq_zero.mpr fun isIn => not_dot_of_isIdText stable '.' isIn rfl
  rw [isRefOf, Bool.and_eq_true, List.isPrefixOf_iff_prefix, decide_eq_true_eq]
  constructor
  · rw [toList_local]
    exact ⟨id.toList, by simp⟩
  · rw [toList_local, List.count_append, List.count_cons_self, none stable, none idStable]

theorem isSpace_of_isLetter {c : Char} (letter : isLetter c = true) : PyText.isSpace c = false := by
  rw [isLetter, Bool.and_eq_true, decide_eq_true_eq, decide_eq_true_eq] at letter
  have low : 97 ≤ c.toNat := letter.1
  have high : c.toNat ≤ 122 := letter.2
  simp only [PyText.isSpace, Bool.or_eq_false_iff, Bool.and_eq_false_iff, decide_eq_false_iff_not, beq_eq_false_iff_ne]
  omega

theorem isBlank_of_isId {text : String} (stable : isId text = true) : isBlank text = false := by
  rw [isId] at stable
  rw [isBlank, decide_eq_false_iff_not]
  cases chars : text.toList with
  | nil =>
    rw [chars] at stable
    cases stable
  | cons first rest =>
    rw [chars, isIdText, Bool.and_eq_true] at stable
    exact PyText.strip_ne_nil List.mem_cons_self (isSpace_of_isLetter stable.1)

theorem isBlank_local (domainId id : String) : isBlank (local_ domainId id) = false := by
  rw [isBlank, decide_eq_false_iff_not, toList_local]
  exact PyText.strip_ne_nil (c := '.') (by simp) (by decide)

theorem get_map_of_ne {members : List (String × JsonValue)} {key other : String} {value : JsonValue}
    (apart : other ≠ key) :
    get (members.map fun member => if member.1 = key then (key, value) else member) other = get members other := by
  induction members with
  | nil => rfl
  | cons member rest ih =>
    simp only [JsonValue.get] at ih ⊢
    rw [List.map_cons, List.lookup_cons, List.lookup_cons, ← ih]
    split_ifs with here
    · rw [here, beq_false_of_ne apart]
    · rfl

theorem get_map_self {members : List (String × JsonValue)} {key : String} {value : JsonValue}
    (found : members.any (·.1 = key) = true) :
    get (members.map fun member => if member.1 = key then (key, value) else member) key = some value := by
  induction members with
  | nil => cases found
  | cons member rest ih =>
    simp only [JsonValue.get] at ih ⊢
    rw [List.map_cons, List.lookup_cons]
    split_ifs with here
    · rw [beq_self_eq_true]
    · rw [beq_false_of_ne (Ne.symm here)]
      apply ih
      simpa [here] using found

theorem get_append {members : List (String × JsonValue)} {key other : String} {value : JsonValue} :
    get (members ++ [(key, value)]) other = (get members other).or (if other = key then some value else none) := by
  simp only [JsonValue.get]
  rw [List.lookup_append]
  by_cases same : other = key
  · simp [same]
  · rw [if_neg same, List.lookup_cons, beq_false_of_ne same, List.lookup_nil]

theorem any_key_iff {members : List (String × JsonValue)} {key : String} :
    members.any (·.1 = key) = true ↔ get members key ≠ none := by
  simp only [JsonValue.get]
  rw [ne_eq, List.lookup_eq_none_iff, List.any_eq_true]
  simp only [decide_eq_true_eq, bne_iff_ne, ne_eq, not_forall, not_not, exists_prop]
  constructor
  · rintro ⟨member, isIn, same⟩
    exact ⟨member, isIn, same.symm⟩
  · rintro ⟨member, isIn, same⟩
    exact ⟨member, isIn, same.symm⟩

theorem get_setItem (members : List (String × JsonValue)) (key other : String) (value : JsonValue) :
    get (setItem members key value) other = if other = key then some value else get members other := by
  unfold setItem
  by_cases found : members.any (·.1 = key) = true
  · rw [if_pos found]
    split_ifs with same
    · rw [same, get_map_self found]
    · exact get_map_of_ne same
  · rw [if_neg found, get_append]
    rw [any_key_iff, ne_eq, not_not] at found
    split_ifs with same
    · rw [same, found, Option.none_or]
    · rw [Option.or_none]

theorem field_some {A : Type} {members : List (String × JsonValue)} {key : String} {read : JsonValue → Option A}
    {a : A} (is : field members key read = some a) : ∃ value, get members key = some value ∧ read value = some a :=
  Option.bind_eq_some_iff.mp is

theorem asId_some {value : JsonValue} {id : StableId} (is : asId value = some id) : value = .str id.val := by
  unfold asId at is
  split at is
  case h_2 => cases is
  case h_1 =>
    split at is
    · exact Option.some.inj is ▸ rfl
    · cases is

theorem asSolid_some {value : JsonValue} {text : SolidText} (is : asSolid value = some text) :
    value = .str text.val := by
  unfold asSolid at is
  split at is
  case h_2 => cases is
  case h_1 =>
    split at is
    · exact Option.some.inj is ▸ rfl
    · cases is

theorem asWord_some {vocabulary : List String} {value : JsonValue} {word : Word vocabulary}
    (is : asWord vocabulary value = some word) : value = .str word.val := by
  unfold asWord at is
  split at is
  case h_2 => cases is
  case h_1 =>
    split at is
    · exact Option.some.inj is ▸ rfl
    · cases is

theorem asType_some {value : JsonValue} {type : ValueType} (is : asType value = some type) :
    value = .str type.name := by
  unfold asType at is
  split at is
  case h_2 => cases is
  case h_1 text =>
    have same := List.find?_some is
    rw [← of_decide_eq_true same]

theorem asItems_some {A : Type} {read : JsonValue → Option A} {back : A → JsonValue}
    (reads : ∀ {value a}, read value = some a → value = back a) {value : JsonValue} {items : List A}
    (is : asItems read value = some items) : value = .list (items.map back) := by
  obtain ⟨values, isList, areItems⟩ := Option.bind_eq_some_iff.mp is
  have isValue : value = .list values := by
    cases value with
    | list items => rw [Option.some.inj isList]
    | _ => cases isList
  rw [isValue]
  apply congrArg
  clear is isValue isList
  induction values generalizing items with
  | nil =>
    obtain rfl := Option.some.inj areItems
    rfl
  | cons value rest ih =>
    rw [List.mapM_cons] at areItems
    obtain ⟨item, isItem, areItems⟩ := Option.bind_eq_some_iff.mp areItems
    obtain ⟨others, areOthers, areItems⟩ := Option.bind_eq_some_iff.mp areItems
    obtain rfl := Option.some.inj areItems
    rw [List.map_cons, ← reads isItem, ← ih areOthers]

structure Metric.Written (metric : Metric) : Prop where
  id : get metric.members "id" = some (.str metric.id.val)
  description : get metric.members "description" = some (.str metric.description.val)
  type : get metric.members "type" = some (.str metric.type.name)
  unit : get metric.members "unit" = some (.str metric.unit.val)
  population : get metric.members "population" = some (.str metric.population.val)
  denominator : get metric.members "denominator" = some (.str metric.denominator.val)
  definitionVariant : get metric.members "definition_variant" = some (.str metric.definitionVariant.val)
  periodKind : get metric.members "period_kind" = some (.str metric.periodKind.val)
  sourceHints : get metric.members "source_hints" = some (texts (metric.sourceHints.map Subtype.val))
  uncontexted : get metric.members "contexts" = none

theorem get_none_of_knows {keys : List String} {members : List (String × JsonValue)} {key : String}
    (known : knows keys members = true) (unknown : key ∉ keys) : get members key = none := by
  by_contra found
  rw [← ne_eq, ← any_key_iff, List.any_eq_true] at found
  obtain ⟨member, isIn, same⟩ := found
  have isKnown := List.all_eq_true.mp known member isIn
  rw [of_decide_eq_true same, List.contains_iff_mem] at isKnown
  exact unknown isKnown

theorem validateMetric_written {value : JsonValue} {metric : Metric} (valid : validateMetric value = some metric) :
    metric.Written := by
  unfold validateMetric at valid
  obtain ⟨members, -, valid⟩ := Option.bind_eq_some_iff.mp valid
  split at valid
  case isTrue => cases valid
  case isFalse known =>
    obtain ⟨id, isId, valid⟩ := Option.bind_eq_some_iff.mp valid
    obtain ⟨title, -, valid⟩ := Option.bind_eq_some_iff.mp valid
    obtain ⟨description, isDescription, valid⟩ := Option.bind_eq_some_iff.mp valid
    obtain ⟨type, isType, valid⟩ := Option.bind_eq_some_iff.mp valid
    obtain ⟨unit, isUnit, valid⟩ := Option.bind_eq_some_iff.mp valid
    obtain ⟨population, isPopulation, valid⟩ := Option.bind_eq_some_iff.mp valid
    obtain ⟨denominator, isDenominator, valid⟩ := Option.bind_eq_some_iff.mp valid
    obtain ⟨definitionVariant, isVariant, valid⟩ := Option.bind_eq_some_iff.mp valid
    obtain ⟨periodKind, isPeriod, valid⟩ := Option.bind_eq_some_iff.mp valid
    obtain ⟨sourceHints, areHints, valid⟩ := Option.bind_eq_some_iff.mp valid
    obtain ⟨instructions, -, valid⟩ := Option.bind_eq_some_iff.mp valid
    obtain ⟨enums, -, valid⟩ := Option.bind_eq_some_iff.mp valid
    obtain ⟨formula, -, valid⟩ := Option.bind_eq_some_iff.mp valid
    split at valid
    case isTrue => cases valid
    case isFalse =>
      obtain rfl := Option.some.inj valid
      have text {A : Type} {key : String} {read : JsonValue → Option A} {a : A} {back : A → JsonValue}
          (reads : ∀ {value a}, read value = some a → value = back a)
          (is : field members key read = some a) : get members key = some (back a) := by
        obtain ⟨value, found, isRead⟩ := field_some is
        rw [found, reads isRead]
      have word {vocabulary : List String} {key : String} {named : Word vocabulary}
          (is : field members key (asWord vocabulary) = some named) : get members key = some (.str named.val) := by
        obtain ⟨value, found, isRead⟩ := field_some is
        rw [found, asWord_some isRead]
      exact {
        id := (text asId_some isId :)
        description := (text asSolid_some isDescription :)
        type := (text asType_some isType :)
        unit := word isUnit
        population := word isPopulation
        denominator := word isDenominator
        definitionVariant := word isVariant
        periodKind := word isPeriod
        sourceHints := by
          rw [text (asItems_some asSolid_some) areHints, texts, List.map_map]
          rfl
        uncontexted := by
          apply get_none_of_knows (by simpa using known)
          decide }

def Context.read (context : Context) : ManifestContext := ⟨context.id, context.label, context.refs⟩

def ownContexts (bindings : List CompiledBinding) (id : String) : List Context :=
  (bindings.filter fun binding => binding.targets.contains id).map (·.context)

def CanonicalMetric.read (bindings : List CompiledBinding) (metric : CanonicalMetric) : ManifestMetric where
  ref := metric.id
  description := metric.authored.description
  type := metric.authored.type
  unit := some metric.authored.unit
  population := some metric.authored.population
  denominator := some metric.authored.denominator
  definitionVariant := some metric.authored.definitionVariant
  periodKind := some metric.authored.periodKind
  sourceHints := metric.authored.sourceHints.map Subtype.val
  contexts := (ownContexts bindings metric.id).map Context.read

theorem get_canonical {domainId : String} {authored : Metric} {key : String} (notId : key ≠ "id")
    (notFormula : key ≠ "formula") :
    get (canonicalMetric domainId authored).members key = get authored.members key := by
  unfold canonicalMetric
  cases authored.formula with
  | none => exact (get_setItem _ _ _ _).trans (if_neg notId)
  | some formula =>
    exact (get_setItem _ _ _ _).trans ((if_neg notFormula).trans ((get_setItem _ _ _ _).trans (if_neg notId)))

theorem get_canonical_id (domainId : String) (authored : Metric) :
    get (canonicalMetric domainId authored).members "id" = some (.str (local_ domainId authored.id)) := by
  unfold canonicalMetric
  cases authored.formula with
  | none => exact (get_setItem _ _ _ _).trans (if_pos rfl)
  | some formula =>
    exact (get_setItem _ _ _ _).trans ((if_neg (by decide)).trans ((get_setItem _ _ _ _).trans (if_pos rfl)))

theorem canonical_id (domainId : String) (authored : Metric) :
    (canonicalMetric domainId authored).id = local_ domainId authored.id := by
  unfold canonicalMetric
  cases authored.formula <;> rfl

theorem canonical_authored (domainId : String) (authored : Metric) :
    (canonicalMetric domainId authored).authored = authored := by
  unfold canonicalMetric
  cases authored.formula <;> rfl

theorem get_attach {bindings : List CompiledBinding} {metric : CanonicalMetric} {key : String}
    (notContexts : key ≠ "contexts") : get (attach bindings metric) key = get metric.members key := by
  unfold attach
  split
  · rfl
  · rw [get_append, if_neg notContexts, Option.or_none]

theorem get_attach_contexts {bindings : List CompiledBinding} {metric : CanonicalMetric}
    (uncontexted : get metric.members "contexts" = none) :
    (get (attach bindings metric) "contexts").getD (.list []) =
      .list ((ownContexts bindings metric.id).map Context.json) := by
  unfold attach ownContexts
  split
  next none =>
    rw [none, uncontexted]
    rfl
  next =>
    rw [get_append, uncontexted, if_pos rfl, List.map_map]
    rfl

theorem mapM_asText (items : List String) : (items.map JsonValue.str).mapM asText = some items := by
  induction items with
  | nil => rfl
  | cons item rest ih =>
    rw [List.map_cons, List.mapM_cons, ih]
    rfl

theorem validateContext_json (context : Context) : validateContext context.json = some context.read := by
  have refs := mapM_asText context.refs
  simp [validateContext, Context.json, Context.read, asDict, asText, asList, texts, JsonValue.get, List.lookup_cons,
    refs]

theorem mapM_validateContext (contexts : List Context) :
    (contexts.map Context.json).mapM validateContext = some (contexts.map Context.read) := by
  induction contexts with
  | nil => rfl
  | cons context rest ih =>
    rw [List.map_cons, List.mapM_cons, ih, validateContext_json]
    rfl

/-- What holds of the contexts of a metric, however their binders are written. -/
structure Context.Formed (domainId : String) (context : Context) : Prop where
  isRef : isRefOf domainId context.id = true
  solid : isBlank context.label = false
  bound : context.refs ≠ []

theorem length_dedup_iff {items : List String} : items.dedup.length = items.length ↔ items.Nodup := by
  rw [← List.dedup_eq_self]
  exact ⟨(List.dedup_sublist items).eq_of_length, congrArg List.length⟩

theorem contextIsEmpty_iff {domainId : String} {context : Context} (formed : context.Formed domainId) :
    contextIsEmpty domainId context.read = false ↔ context.refs.Nodup := by
  rw [← length_dedup_iff]
  have bound : context.refs.isEmpty = false := by simpa using formed.bound
  rw [contextIsEmpty, Context.read, formed.isRef, formed.solid, bound]
  simp only [Bool.not_true, Bool.false_or]
  rw [decide_eq_false_iff_not, ne_eq, not_not]

theorem buildMetric_attach {bindings : List CompiledBinding} {domainId : String} {authored : Metric}
    (written : authored.Written) :
    buildMetric (local_ domainId authored.id) (attach bindings (canonicalMetric domainId authored))
        (authored.sourceHints.map fun hint => .str hint.val)
        ((ownContexts bindings (local_ domainId authored.id)).map Context.read) =
      some ((canonicalMetric domainId authored).read bindings) := by
  have found (key : String) (apart : key ≠ "contexts" ∧ key ≠ "id" ∧ key ≠ "formula") :
      get (attach bindings (canonicalMetric domainId authored)) key = get authored.members key :=
    (get_attach apart.1).trans (get_canonical apart.2.1 apart.2.2)
  have typed : asType (.str authored.type.name) = some authored.type := by
    cases authored.type <;> decide
  have hints := mapM_asText (authored.sourceHints.map Subtype.val)
  rw [List.map_map] at hints
  have hints : (authored.sourceHints.map fun hint => JsonValue.str hint.val).mapM asText =
    some (authored.sourceHints.map Subtype.val) := hints
  simp only [buildMetric, optionalText, found "description" (by decide), written.description,
    found "type" (by decide), written.type, found "unit" (by decide), written.unit,
    found "population" (by decide), written.population, found "denominator" (by decide),
    written.denominator, found "definition_variant" (by decide), written.definitionVariant,
    found "period_kind" (by decide), written.periodKind, Option.bind_some, typed, hints,
    CanonicalMetric.read, canonical_id, canonical_authored]
  rfl

theorem ok_bind {E A B : Type} (a : A) (f : A → Except E B) : (Except.ok a >>= f) = f a := rfl

theorem solidText_of_solid {text : String} (solid : isBlank text = false) : solidText (.str text) = some text := by
  rw [solidText, solid]
  rfl

/-- The contexts that a metric of the domain is a target of. -/
structure Attachable (bindings : List CompiledBinding) (domainId : String) (metric : CanonicalMetric) : Prop where
  formed : ∀ context ∈ ownContexts bindings metric.id, context.Formed domainId
  distinct : ((ownContexts bindings metric.id).map (·.id)).Nodup

def emptyContext : String := "Manifest contains an empty compiled context."

theorem compileMetric_attach {bindings : List CompiledBinding} {domainId : String} {authored : Metric}
    {seenRefs : List String} (stable : isId domainId = true) (written : authored.Written)
    (attachable : Attachable bindings domainId (canonicalMetric domainId authored))
    (unseen : (canonicalMetric domainId authored).id ∉ seenRefs) :
    compileMetric domainId seenRefs (.dict (attach bindings (canonicalMetric domainId authored))) =
      (refuseIf ((ownContexts bindings (local_ domainId authored.id)).any fun context =>
        contextIsEmpty domainId context.read) emptyContext).map fun _ =>
          (canonicalMetric domainId authored).read bindings := by
  obtain ⟨formed, distinct⟩ := attachable
  rw [canonical_id] at formed distinct unseen
  have isSeen : seenRefs.contains (local_ domainId authored.id) = false := by simpa using unseen
  have uncontexted : get (canonicalMetric domainId authored).members "contexts" = none :=
    (get_canonical (by decide) (by decide)).trans written.uncontexted
  have contexts := @get_attach_contexts bindings _ uncontexted
  rw [canonical_id] at contexts
  have found (key : String) (apart : key ≠ "contexts" ∧ key ≠ "id" ∧ key ≠ "formula") :
      get (attach bindings (canonicalMetric domainId authored)) key = get authored.members key :=
    (get_attach apart.1).trans (get_canonical apart.2.1 apart.2.2)
  have named : get (attach bindings (canonicalMetric domainId authored)) "id" =
      some (.str (local_ domainId authored.id)) :=
    (get_attach (by decide)).trans (get_canonical_id domainId authored)
  have hints : (authored.sourceHints.map Subtype.val).map JsonValue.str =
      authored.sourceHints.map fun hint => .str hint.val := List.map_map
  have solid : (isBlank ((canonicalMetric domainId authored).read bindings).description ||
      ((canonicalMetric domainId authored).read bindings).sourceHints.any isBlank) = false := by
    simp only [CanonicalMetric.read, canonical_authored]
    rw [authored.description.property, Bool.false_or, List.any_map, List.any_eq_false]
    intro hint _
    simp [hint.property]
  have repeated : decide (((((ownContexts bindings (local_ domainId authored.id)).map Context.read).map (·.id)).dedup.length ≠
      ((ownContexts bindings (local_ domainId authored.id)).map Context.read).length)) = false := by
    rw [decide_eq_false_iff_not, ne_eq, not_not, ← List.length_map ManifestContext.id, length_dedup_iff, List.map_map]
    exact distinct
  unfold compileMetric
  simp only [asDict, require, refuseIf, ok_bind, named, Option.bind_some,
    solidText_of_solid (isBlank_local domainId authored.id), isSeen, isRefOf_local stable authored.id.property,
    Bool.not_true, Bool.or_self, contexts, iterate, mapM_validateContext, repeated, List.any_map,
    found "description" (by decide), written.description, found "type" (by decide), written.type,
    found "source_hints" (by decide), written.sourceHints]
  have same : (ownContexts bindings (local_ domainId authored.id)).any (contextIsEmpty domainId ∘ Context.read) =
    (ownContexts bindings (local_ domainId authored.id)).any fun context => contextIsEmpty domainId context.read := rfl
  rw [same]
  cases (ownContexts bindings (local_ domainId authored.id)).any fun context => contextIsEmpty domainId context.read with
  | true => rfl
  | false =>
    simp only [Bool.false_eq_true, if_false, ok_bind, Option.isNone_some, Bool.or_self, texts, Option.getD_some, hints,
      buildMetric_attach written, solid]
    rfl

theorem refuseIf_yields (condition : Bool) (message : String) :
    Yields (refuseIf condition message) (condition = false) fun _ => True where
  succeeds := by
    rintro rfl
    exact ⟨(), rfl⟩
  needs a isOk := by
    cases condition with
    | false => rfl
    | true => cases isOk
  returns a _ := trivial

def RefsDistinct (bindings : List CompiledBinding) (domainId : String) (authored : Metric) : Prop :=
  ∀ context ∈ ownContexts bindings (local_ domainId authored.id), context.refs.Nodup

theorem compileMetric_yields {bindings : List CompiledBinding} {domainId : String} {authored : Metric}
    {seenRefs : List String} (stable : isId domainId = true) (written : authored.Written)
    (attachable : Attachable bindings domainId (canonicalMetric domainId authored))
    (unseen : local_ domainId authored.id ∉ seenRefs) :
    Yields (compileMetric domainId seenRefs (.dict (attach bindings (canonicalMetric domainId authored))))
      (RefsDistinct bindings domainId authored) (· = (canonicalMetric domainId authored).read bindings) := by
  rw [compileMetric_attach stable written attachable (by rwa [canonical_id])]
  have each : ((ownContexts bindings (local_ domainId authored.id)).any fun context =>
      contextIsEmpty domainId context.read) = false ↔ RefsDistinct bindings domainId authored := by
    rw [List.any_eq_false]
    apply forall₂_congr
    intro context isIn
    rw [Bool.not_eq_true, contextIsEmpty_iff]
    exact attachable.formed context (by rwa [canonical_id])
  refine Yields.congr ?_ each
  apply (refuseIf_yields _ _).map
  exact fun _ _ => rfl

def Domain.refs (domain : Domain) : List String := domain.metrics.map fun metric => local_ domain.id metric.id

theorem compileMetrics_yields {bindings : List CompiledBinding} {domainId : String} (stable : isId domainId = true)
    {authored : List Metric} {seenRefs : List String} (written : ∀ metric ∈ authored, metric.Written)
    (attachable : ∀ metric ∈ authored, Attachable bindings domainId (canonicalMetric domainId metric))
    (unseen : ∀ metric ∈ authored, local_ domainId metric.id ∉ seenRefs)
    (distinct : (authored.map fun metric => local_ domainId metric.id).Nodup) :
    Yields (compileMetrics domainId
        (authored.map fun metric => .dict (attach bindings (canonicalMetric domainId metric))) seenRefs)
      (∀ metric ∈ authored, RefsDistinct bindings domainId metric)
      (· = (authored.map fun metric => (canonicalMetric domainId metric).read bindings,
        (authored.map fun metric => local_ domainId metric.id).reverse ++ seenRefs)) := by
  induction authored generalizing seenRefs with
  | nil =>
    refine Yields.congr (Yields.ok ?_) (by simp)
    simp
  | cons metric rest ih =>
    rw [List.forall_mem_cons] at written attachable unseen
    rw [List.map_cons, List.nodup_cons] at distinct
    have first := compileMetric_yields stable written.1 attachable.1 unseen.1
    have unseenLater : ∀ other ∈ rest, local_ domainId other.id ∉ local_ domainId metric.id :: seenRefs := by
      intro other isIn
      rw [List.mem_cons, not_or]
      refine ⟨fun same => distinct.1 ?_, unseen.2 other isIn⟩
      rw [← same]
      exact List.mem_map_of_mem isIn
    have later := ih written.2 attachable.2 unseenLater distinct.2
    rw [List.map_cons, compileMetrics]
    refine (first.bind (fun read isRead => ?_)).congr List.forall_mem_cons.symm
    subst isRead
    have isRef : ((canonicalMetric domainId metric).read bindings).ref = local_ domainId metric.id :=
      canonical_id domainId metric
    rw [isRef]
    refine (later.bind fun others areOthers => ?_).congr (iff_of_eq (and_true _))
    subst areOthers
    apply Yields.ok
    simp

end Counselle.Cds.Authoring
