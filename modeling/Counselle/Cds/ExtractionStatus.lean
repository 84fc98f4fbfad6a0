import Counselle.Cds.Extraction

/-! What the terminal status of an extraction says of the packets that were stored, over
every order of its worker's steps, renewals, sweeps and crashes. -/
namespace Counselle.Cds.Extraction
open Transition
open PyJson (JsonValue)

def Stored (packets : List PacketRecord) (domainId : String) : Prop := ∃ packet ∈ packets, packet.domainId = domainId

/-- The status says how many of the requested domains have a packet. -/
structure Tells (status : ExtractionStatus) (requested : List String) (packets : List PacketRecord) : Prop where
  succeeded : status = .succeeded ↔ ∀ domainId ∈ requested, Stored packets domainId
  partly : status = .partial_ ↔
    (∃ domainId ∈ requested, Stored packets domainId) ∧ ∃ domainId ∈ requested, ¬ Stored packets domainId
  failed : status = .failed ↔ ∀ domainId ∈ requested, ¬ Stored packets domainId

def Fenced (state : RunState) (began : Nat) : Prop := ∃ lease, state.leaseExpiresAt = some lease ∧ began < lease

/-- What a closing left, and what holds of the extraction ever after. -/
structure Closed (env : RunEnv) (state : RunState) (closing : Closing) : Prop where
  status : state.status = closing.status
  terminal : closing.status ≠ .queued ∧ closing.status ≠ .running
  completed : closing.closer = .completed → state.unanswered = [] →
    Tells state.status env.requestedDomains state.packets
  refused : closing.closer = .failed .refused → state.status = .failed ∧ state.packets = []
  raised : closing.closer = .failed .retryRaised → state.status = .failed
  swept : closing.closer = .swept →
    state.status = .failed ∧ ∃ lease, state.leaseExpiresAt = some lease ∧ lease < closing.closedAt

structure Told (env : RunEnv) (state : RunState) : Prop where
  once : state.closings.length ≤ 1
  unclosed : state.closings = [] → state.status = .queued ∨ state.status = .running
  closed : ∀ closing ∈ state.closings, Closed env state closing
  fenced : ∀ packet ∈ state.packets, Fenced state packet.createdAt

theorem checkGroup_nodup {domainIds group seen after : List String}
    (checked : Authoring.checkGroup domainIds group seen = .ok after) :
    group.Nodup ∧ ∀ domainId ∈ group, domainId ∉ seen := by
  induction group generalizing seen with
  | nil => exact ⟨List.nodup_nil, fun _ bad => absurd bad List.not_mem_nil⟩
  | cons first rest ih =>
    rw [Authoring.checkGroup] at checked
    obtain ⟨-, checked⟩ := Fallible.guard_ok_iff.mp checked
    obtain ⟨isNew, checked⟩ := Fallible.guard_ok_iff.mp checked
    obtain ⟨distinct, others⟩ := ih checked
    refine ⟨List.nodup_cons.mpr ⟨fun bad => others first bad List.mem_cons_self, distinct⟩, ?_⟩
    rw [List.forall_mem_cons]
    exact ⟨by simpa using isNew, fun domainId isIn bad => others domainId isIn (List.mem_cons_of_mem _ bad)⟩

theorem EngineManifest.nodup_groups (manifest : EngineManifest) : manifest.extractionGroups.flatten.Nodup := by
  obtain ⟨seen, checked, -⟩ := Fallible.bind_ok_iff.mp manifest.partition
  exact (checkGroup_nodup checked).1

theorem flatten_selected (groups : List (List String)) (wanted : String → Bool) :
    ((groups.map fun group => group.filter wanted).filter (!·.isEmpty)).flatten = groups.flatten.filter wanted := by
  induction groups with
  | nil => rfl
  | cons first rest ih =>
    rw [List.flatten_cons, List.filter_append, ← ih, List.map_cons, List.filter_cons]
    split
    case isTrue _ => rw [List.flatten_cons]
    case isFalse none =>
      have empty : first.filter wanted = [] := by simpa using none
      rw [empty, List.nil_append]

theorem RunEnv.domains_some {env : RunEnv} {domains : List String} (isRun : env.domains = some domains) :
    domains.Nodup ∧ ∀ domainId, domainId ∈ domains ↔ domainId ∈ env.requestedDomains := by
  obtain ⟨calls, areCalls, rfl⟩ := Option.map_eq_some_iff.mp isRun
  simp only [callsForDomains] at areCalls
  split at areCalls
  case isFalse _ => cases areCalls
  case isTrue covered =>
    obtain rfl := Option.some.inj areCalls
    rw [flatten_selected] at covered ⊢
    refine ⟨env.manifest.nodup_groups.filter _, fun domainId => ⟨fun isIn => ?_, fun isIn => ?_⟩⟩
    · simpa using (List.mem_filter.mp isIn).2
    · exact List.contains_iff_mem.mp (List.all_eq_true.mp covered domainId isIn)

/-- The outcomes of the domains that are done, and the packets that were stored for them. -/
structure Agrees (state : RunState) (outcomes : List (String × Option PacketStatus)) (done : List String) : Prop where
  keys : (outcomes.map Prod.fst).Nodup
  domains : ∀ domainId, domainId ∈ outcomes.map Prod.fst ↔ domainId ∈ done
  packets : ∀ packet ∈ state.packets, packet.domainId ∈ done
  tells : state.unanswered = [] → ∀ outcome ∈ outcomes, outcome.2.isSome = true ↔ Stored state.packets outcome.1

section Outcomes
variable {env : RunEnv} {state : RunState} {outcomes : List (String × Option PacketStatus)} {done : List String}
  {domainId : String}

theorem Agrees.unstored (agrees : Agrees state outcomes done) (isNew : domainId ∉ done) :
    Agrees state (Upsert.insertKey Prod.fst outcomes (domainId, none)) (done ++ [domainId]) where
  keys := Upsert.nodup_insertKey agrees.keys _
  domains other := by rw [Upsert.mem_map_insertKey, agrees.domains, List.mem_append, List.mem_singleton, or_comm]
  packets packet isIn := List.mem_append_left _ (agrees.packets packet isIn)
  tells answered outcome isIn := by
    obtain rfl | ⟨wasIn, -⟩ := (Upsert.mem_insertKey agrees.keys).mp isIn
    · refine ⟨fun bad => absurd bad (by simp), ?_⟩
      rintro ⟨packet, isPacket, rfl⟩
      exact absurd (agrees.packets packet isPacket) isNew
    · exact agrees.tells answered outcome wasIn

theorem stored_addPacket {store : Store} {began : Nat} :
    Stored (state.addPacket store began).packets domainId ↔
      Stored state.packets domainId ∨ domainId = store.args.domainId := by
  simp [Stored, RunState.addPacket, or_and_right, exists_or, eq_comm]

theorem Agrees.stored (agrees : Agrees state outcomes done) (store : Store) (began : Nat) (status : PacketStatus)
    {after : List String} (members : ∀ other, other ∈ after ↔ other = store.args.domainId ∨ other ∈ done) :
    Agrees (state.addPacket store began) (Upsert.insertKey Prod.fst outcomes (store.args.domainId, some status))
      after where
  keys := Upsert.nodup_insertKey agrees.keys _
  domains other := by rw [Upsert.mem_map_insertKey, agrees.domains, members]
  packets packet isIn := by
    rw [members]
    obtain wasIn | isNew := List.mem_append.mp isIn
    · exact Or.inr (agrees.packets packet wasIn)
    · rw [List.mem_singleton.mp isNew]
      exact Or.inl rfl
  tells answered outcome isIn := by
    rw [stored_addPacket]
    obtain rfl | ⟨wasIn, apart⟩ := (Upsert.mem_insertKey agrees.keys).mp isIn
    · exact ⟨fun _ => Or.inr rfl, fun _ => rfl⟩
    · rw [agrees.tells answered outcome wasIn]
      exact ⟨Or.inl, fun isStored => isStored.resolve_right apart⟩

theorem Agrees.unanswered (agrees : Agrees state outcomes done) (store : Store) (began : Nat) :
    Agrees { state.addPacket store began with unanswered := store.args.domainId :: state.unanswered }
      (Upsert.insertKey Prod.fst outcomes (store.args.domainId, none)) (done ++ [store.args.domainId]) where
  keys := Upsert.nodup_insertKey agrees.keys _
  domains other := by rw [Upsert.mem_map_insertKey, agrees.domains, List.mem_append, List.mem_singleton, or_comm]
  packets packet isIn := by
    obtain wasIn | isNew := List.mem_append.mp isIn
    · exact List.mem_append_left _ (agrees.packets packet wasIn)
    · rw [List.mem_singleton.mp isNew]
      exact List.mem_append_right _ List.mem_cons_self
  tells bad := absurd bad (List.cons_ne_nil _ _)

theorem overallStatus_tells (agrees : Agrees state outcomes done)
    (requested : ∀ domainId, domainId ∈ done ↔ domainId ∈ env.requestedDomains) (answered : state.unanswered = []) :
    Tells (overallStatus outcomes) env.requestedDomains state.packets := by
  have each {P : Prop → Prop} : (∀ outcome ∈ outcomes, P (outcome.2.isSome = true)) ↔
      ∀ domainId ∈ env.requestedDomains, P (Stored state.packets domainId) := by
    constructor
    · intro all domainId isIn
      obtain ⟨outcome, isOutcome, rfl⟩ := List.mem_map.mp ((agrees.domains domainId).mpr ((requested domainId).mpr isIn))
      rw [← propext (agrees.tells answered outcome isOutcome)]
      exact all outcome isOutcome
    · intro all outcome isOutcome
      rw [propext (agrees.tells answered outcome isOutcome)]
      exact all _ ((requested _).mp ((agrees.domains _).mp (List.mem_map_of_mem isOutcome)))
  have none : outcomes.countP (·.2.isSome) = 0 ↔ ∀ domainId ∈ env.requestedDomains, ¬ Stored state.packets domainId :=
    List.countP_eq_zero.trans (each (P := Not))
  have all : outcomes.countP (·.2.isSome) = outcomes.length ↔ ∀ domainId ∈ env.requestedDomains, Stored state.packets domainId :=
    List.countP_eq_length.trans (each (P := id))
  obtain ⟨asked, isAsked⟩ := List.exists_mem_of_ne_nil _ env.isAsked
  rw [overallStatus]
  split
  case isTrue isZero =>
    have unstored := none.mp isZero
    exact ⟨⟨nofun, fun bad => absurd (bad asked isAsked) (unstored asked isAsked)⟩,
      ⟨nofun, fun ⟨⟨domainId, isIn, isStored⟩, _⟩ => absurd isStored (unstored domainId isIn)⟩, iff_of_true rfl unstored⟩
  case isFalse notZero =>
    have some := mt none.mpr notZero
    split
    case isTrue full =>
      have stored := all.mp full
      exact ⟨iff_of_true rfl stored, ⟨nofun, fun ⟨_, domainId, isIn, bad⟩ => absurd (stored domainId isIn) bad⟩,
        ⟨nofun, fun bad => absurd bad some⟩⟩
    case isFalse notFull =>
      have notAll := mt all.mpr notFull
      push Not at some notAll
      exact ⟨⟨nofun, fun bad => absurd bad (by simpa using notAll)⟩, iff_of_true rfl ⟨some, notAll⟩,
        ⟨nofun, fun bad => absurd bad (by simpa using some)⟩⟩

end Outcomes

def Progress (env : RunEnv) (state : RunState) (outcomes : List (String × Option PacketStatus))
    (remaining : List String) : Prop :=
  ∃ done, env.domains = some (done ++ remaining) ∧ Agrees state outcomes done

/-- A retry stores a domain that is done, the main pass the next one. -/
inductive Storing (env : RunEnv) (state : RunState) (outcomes : List (String × Option PacketStatus)) (store : Store) :
    Prop where
  | main : store.isRetry = false → Progress env state outcomes (store.args.domainId :: store.remaining) →
      Storing env state outcomes store
  | retry : store.isRetry = true → Progress env state outcomes [] →
      (∀ domainId ∈ store.args.domainId :: store.remaining, domainId ∈ outcomes.map Prod.fst) →
      Storing env state outcomes store

inductive Phase.Valid (env : RunEnv) (state : RunState) (outcomes : List (String × Option PacketStatus)) :
    Phase → Prop where
  | claimed : outcomes = [] → state.packets = [] → Valid env state outcomes .claimed
  | checked : outcomes = [] → state.packets = [] → Valid env state outcomes .checked
  | calling {domains : List String} : outcomes = [] → state.packets = [] → env.domains = some domains →
      Valid env state outcomes (.calling domains)
  | storing {remaining : List String} : Progress env state outcomes remaining → Valid env state outcomes (.storing remaining)
  | retrying {candidates : List String} : Progress env state outcomes [] →
      (∀ domainId ∈ candidates, domainId ∈ outcomes.map Prod.fst) → Valid env state outcomes (.retrying candidates)
  | inserting {store : Store} (began : Nat) : Storing env state outcomes store →
      Valid env state outcomes (.inserting store began)
  | committing {store : Store} {began : Nat} : Storing env state outcomes store → Fenced state began →
      Valid env state outcomes (.committing store began)
  | refused : state.packets = [] → Valid env state outcomes (.failing .refused)
  | retryRaised : Valid env state outcomes (.failing .retryRaised)

def Worker.Valid (env : RunEnv) (state : RunState) (worker : Worker) : Prop :=
  worker.phase.Valid env state worker.outcomes

section Work
variable {env : RunEnv} {state after : RunState} {worker : Worker} {outcomes : List (String × Option PacketStatus)}
  {store : Store} {began : Nat}

theorem Progress.unstored {domainId : String} {remaining : List String}
    (progress : Progress env state outcomes (domainId :: remaining)) :
    Progress env state (Upsert.insertKey Prod.fst outcomes (domainId, none)) remaining := by
  obtain ⟨done, isRun, agrees⟩ := progress
  have distinct := (RunEnv.domains_some isRun).1
  have isNew : domainId ∉ done := fun bad =>
    (List.nodup_append.mp distinct).2.2 domainId bad domainId List.mem_cons_self rfl
  exact ⟨done ++ [domainId], by rw [isRun, List.append_assoc, List.singleton_append], agrees.unstored isNew⟩

theorem Storing.unstored (storing : Storing env state worker.outcomes store) :
    (worker.unstored store).Valid env state := by
  obtain ⟨isMain, progress⟩ | ⟨isRetry, progress, known⟩ := storing
  · simp only [Worker.Valid, Worker.unstored, Worker.next, Worker.record, isMain]
    exact .storing progress.unstored
  · simp only [Worker.Valid, Worker.unstored, Worker.next, isRetry]
    exact .retrying progress fun domainId isIn => known domainId (List.mem_cons_of_mem _ isIn)

theorem Storing.raised (storing : Storing env state worker.outcomes store) : (worker.raised store).Valid env state := by
  rw [Worker.raised]
  split
  case isTrue _ => exact .retryRaised
  case isFalse _ => exact storing.unstored

theorem Storing.stored (storing : Storing env state worker.outcomes store) (began : Nat) :
    (worker.stored store).Valid env (state.addPacket store began) := by
  obtain ⟨isMain, done, isRun, agrees⟩ | ⟨isRetry, ⟨done, isRun, agrees⟩, known⟩ := storing
  · simp only [Worker.Valid, Worker.stored, Worker.next, Worker.record, isMain]
    refine .storing ⟨done ++ [store.args.domainId], by rw [isRun, List.append_assoc, List.singleton_append], ?_⟩
    exact agrees.stored store began _ fun other => by rw [List.mem_append, List.mem_singleton, or_comm]
  · simp only [Worker.Valid, Worker.stored, Worker.next, Worker.record, isRetry]
    have isDone := (agrees.domains _).mp (known _ List.mem_cons_self)
    refine .retrying ⟨done, isRun, agrees.stored store began _ fun other => ?_⟩ fun domainId isIn => ?_
    · exact ⟨Or.inr, fun either => either.elim (fun same => same ▸ isDone) id⟩
    · exact (Upsert.mem_map_insertKey _ _).mpr (Or.inr (known domainId (List.mem_cons_of_mem _ isIn)))

theorem Storing.unanswered (storing : Storing env state worker.outcomes store) (began : Nat) :
    (worker.raised store).Valid env
      { state.addPacket store began with unanswered := store.args.domainId :: state.unanswered } := by
  obtain ⟨isMain, done, isRun, agrees⟩ | ⟨isRetry, -, -⟩ := storing
  · simp only [Worker.Valid, Worker.raised, Worker.unstored, Worker.next, Worker.record, isMain]
    exact .storing ⟨_, by rw [isRun, List.append_assoc, List.singleton_append], agrees.unanswered store began⟩
  · simp only [Worker.Valid, Worker.raised, isRetry]
    exact .retryRaised

inductive Effect (env : RunEnv) (state : RunState) : RunState → Prop where
  | moved {worker : Worker} : worker.Valid env state → Effect env state (state.set worker)
  | stopped : Effect env state state.stop
  | renewed : state.status = .running →
      Effect env state { state with leaseExpiresAt := some (state.clock + env.leaseSeconds) }
  | committed {store : Store} {began : Nat} {worker : Worker} : Fenced state began →
      worker.Valid env (state.addPacket store began) → Effect env state ((state.addPacket store began).set worker)
  | unanswered {store : Store} {began : Nat} {worker : Worker} : Fenced state began →
      worker.Valid env { state.addPacket store began with unanswered := store.args.domainId :: state.unanswered } →
      Effect env state
        { (state.addPacket store began).set worker with unanswered := store.args.domainId :: state.unanswered }
  | completed {outcomes : List (String × Option PacketStatus)} : Progress env state outcomes [] →
      Effect env state (state.completeExtraction (overallStatus outcomes) .completed).stop
  | failed {why : Failure} : (why = .refused → state.packets = []) →
      Effect env state (state.completeExtraction .failed (.failed why)).stop

theorem buildNext_effect (valid : worker.Valid env state) (worked : buildNext env state worker = some after) :
    Effect env state after := by
  unfold buildNext at worked
  split at worked
  case h_2 => cases worked
  case h_1 domainId remaining isPhase =>
    rw [Worker.Valid, isPhase] at valid
    cases valid with
    | storing progress =>
      simp only at worked
      split at worked
      · cases worked
        exact .moved (.storing progress.unstored)
      · cases worked
        exact .moved (.inserting _ (.main rfl progress))

theorem starvedRetry_effect {answer : Option (List Finding × String)} (valid : worker.Valid env state)
    (worked : starvedRetry env state worker answer = some after) : Effect env state after := by
  unfold starvedRetry at worked
  split at worked
  case h_2 => cases worked
  case h_1 domainId remaining isPhase =>
    rw [Worker.Valid, isPhase] at valid
    cases valid with
    | retrying progress known =>
      have skipped : Effect env state (state.set { worker with phase := .retrying remaining }) :=
        .moved (.retrying progress fun domainId isIn => known domainId (List.mem_cons_of_mem _ isIn))
      split at worked
      · cases worked
        exact .moved (.retrying progress fun _ bad => absurd bad List.not_mem_nil)
      · split at worked
        · cases worked
          exact skipped
        · cases worked
          exact skipped
        · simp only at worked
          split at worked
          · cases worked
            exact skipped
          · cases worked
            exact .moved .retryRaised
          · cases worked
            exact .moved (.inserting _ (.retry rfl progress known))

theorem raise_effect (valid : worker.Valid env state) (raised : raise state worker = some after) :
    Effect env state after := by
  unfold raise at raised
  rw [Worker.Valid] at valid
  split at raised
  case h_1 isPhase =>
    rw [isPhase] at valid
    cases valid with
    | checked _ none =>
      cases raised
      exact .moved (.refused none)
  case h_2 isPhase =>
    rw [isPhase] at valid
    cases valid with
    | calling _ none _ =>
      cases raised
      exact .moved (.refused none)
  case h_3 isPhase =>
    rw [isPhase] at valid
    cases valid with
    | storing progress =>
      cases raised
      exact .moved (.storing progress.unstored)
  case h_4 =>
    cases raised
    exact .moved .retryRaised
  case h_5 isPhase =>
    rw [isPhase] at valid
    cases valid with
    | inserting _ storing =>
      cases raised
      exact .moved storing.raised
  case h_6 isPhase =>
    rw [isPhase] at valid
    cases valid with
    | committing storing _ =>
      cases raised
      exact .moved storing.raised
  case h_7 => cases raised

theorem insertPacket_ok (inserted : insertPacket env state store began = .ok ())
    (leased : state.leaseExpiresAt.isSome = true) : Fenced state began := by
  obtain ⟨-, -, fence⟩ := Fallible.bind_ok_iff.mp inserted
  obtain ⟨open_, -⟩ := Fallible.guard_ok_iff.mp fence
  obtain ⟨lease, isLease⟩ := Option.isSome_iff_exists.mp leased
  exact ⟨lease, isLease, by simpa [isLease] using open_⟩

theorem work_effect {act : Action} (valid : worker.Valid env state) (leased : state.leaseExpiresAt.isSome = true)
    (worked : work env state worker act = some after) : Effect env state after := by
  rw [Worker.Valid] at valid
  cases act with
  | tick | claim | sweep | crash => cases worked
  | renew =>
    simp only [work] at worked
    split at worked
    case isTrue running =>
      cases worked
      exact .renewed running
    case isFalse _ =>
      cases worked
      exact .moved valid
  | checkManifest =>
    simp only [work] at worked
    split at worked
    case h_2 => cases worked
    case h_1 isPhase =>
      rw [isPhase] at valid
      cases valid with
      | claimed noOutcomes none =>
        cases worked
        refine .moved ?_
        rw [Worker.Valid]
        split
        · exact .checked noOutcomes none
        · exact .refused none
  | prepare =>
    simp only [work] at worked
    split at worked
    case h_2 => cases worked
    case h_1 isPhase =>
      rw [isPhase] at valid
      cases valid with
      | checked noOutcomes none =>
        cases worked
        refine .moved ?_
        rw [Worker.Valid]
        split
        case h_1 domains isRun => exact .calling noOutcomes none isRun
        case h_2 => exact .refused none
  | finishCalls results modelId =>
    simp only [work] at worked
    split at worked
    case h_2 => cases worked
    case h_1 domains isPhase =>
      rw [isPhase] at valid
      cases valid with
      | calling noOutcomes none isRun =>
        split at worked
        · cases worked
        · split at worked
          · cases worked
            exact .stopped
          · cases worked
            have agrees : Agrees state worker.outcomes [] := by
              rw [noOutcomes]
              exact ⟨List.nodup_nil, fun _ => Iff.rfl, fun packet isIn => absurd (none ▸ isIn) List.not_mem_nil,
                fun _ _ bad => absurd bad List.not_mem_nil⟩
            exact .moved (.storing ⟨[], isRun, agrees⟩)
  | build => exact buildNext_effect valid worked
  | beginRetries =>
    simp only [work] at worked
    split at worked
    case h_2 => cases worked
    case h_1 isPhase =>
      rw [isPhase] at valid
      cases valid with
      | storing progress =>
        cases worked
        exact .moved (.retrying progress fun _ isIn => (List.filter_sublist.map _).subset isIn)
  | retryCall answer => exact starvedRetry_effect valid worked
  | insert =>
    simp only [work] at worked
    split at worked
    case h_2 => cases worked
    case h_1 store began isPhase =>
      rw [isPhase] at valid
      cases valid with
      | inserting _ storing =>
        split at worked
        · cases worked
          exact .moved storing.unstored
        · cases worked
          exact .stopped
        · cases worked
          exact .moved storing.raised
        · rename_i inserted
          cases worked
          exact .moved (.committing storing (insertPacket_ok inserted leased))
  | commit =>
    simp only [work] at worked
    split at worked
    case h_2 => cases worked
    case h_1 store began isPhase =>
      rw [isPhase] at valid
      cases valid with
      | committing storing fenced =>
        cases worked
        exact .committed fenced (storing.stored began)
  | commitUnanswered =>
    simp only [work] at worked
    split at worked
    case h_2 => cases worked
    case h_1 store began isPhase =>
      rw [isPhase] at valid
      cases valid with
      | committing storing fenced =>
        cases worked
        exact .unanswered fenced (storing.unanswered began)
  | raises => exact raise_effect valid worked
  | complete =>
    simp only [work] at worked
    split at worked
    case h_2 => cases worked
    case h_1 isPhase =>
      rw [isPhase] at valid
      cases valid with
      | retrying progress _ =>
        split at worked
        · cases worked
          exact .stopped
        · cases worked
          exact .completed progress
  | finishFailed =>
    simp only [work] at worked
    split at worked
    case h_2 => cases worked
    case h_1 why isPhase =>
      rw [isPhase] at valid
      cases worked
      refine .failed ?_
      rintro rfl
      cases valid with
      | refused none => exact none

end Work

structure Inv (env : RunEnv) (state : RunState) : Prop where
  queued : state.status = .queued → state.packets = [] ∧ state.worker = none
  unclosed : state.closings = [] → state.status = .queued ∨ state.status = .running
  once : state.closings.length ≤ 1
  closed : ∀ closing ∈ state.closings, Closed env state closing
  ended : ∀ closing ∈ state.closings, state.worker ≠ none → closing.closer = .swept
  fenced : ∀ packet ∈ state.packets, Fenced state packet.createdAt
  renewable : ∀ lease, state.leaseExpiresAt = some lease → lease ≤ state.clock + env.leaseSeconds
  leased : state.worker ≠ none → state.leaseExpiresAt.isSome = true
  working : ∀ worker, state.worker = some worker → worker.Valid env state

theorem Inv.told {env : RunEnv} {state : RunState} (inv : Inv env state) : Told env state :=
  ⟨inv.once, inv.unclosed, inv.closed, inv.fenced⟩

theorem Inv.initial (env : RunEnv) : Inv env .initial where
  queued _ := ⟨rfl, rfl⟩
  unclosed _ := Or.inl rfl
  once := Nat.zero_le 1
  closed _ bad := absurd bad List.not_mem_nil
  ended _ bad := absurd bad List.not_mem_nil
  fenced _ bad := absurd bad List.not_mem_nil
  renewable _ bad := nomatch bad
  leased bad := absurd rfl bad
  working _ bad := nomatch bad

section Steps
variable {env : RunEnv} {state after : RunState}

theorem Inv.open_ (inv : Inv env state) (isOpen : state.status = .queued ∨ state.status = .running) :
    state.closings = [] := by
  rw [List.eq_nil_iff_forall_not_mem]
  intro closing isIn
  have closed := inv.closed closing isIn
  have terminal := closed.terminal
  rw [← closed.status] at terminal
  exact isOpen.elim terminal.1 terminal.2

structure Frame (state after : RunState) : Prop where
  clock : state.clock ≤ after.clock
  status : after.status = state.status
  lease : after.leaseExpiresAt = state.leaseExpiresAt
  packets : after.packets = state.packets
  unanswered : after.unanswered = state.unanswered
  closings : after.closings = state.closings
  worker : after.worker ≠ none → state.worker ≠ none

theorem Closed.frame {closing : Closing} (closed : Closed env state closing) (frame : Frame state after) :
    Closed env after closing where
  status := frame.status.trans closed.status
  terminal := closed.terminal
  completed := by
    rw [frame.status, frame.packets, frame.unanswered]
    exact closed.completed
  refused := by
    rw [frame.status, frame.packets]
    exact closed.refused
  raised := by
    rw [frame.status]
    exact closed.raised
  swept := by
    rw [frame.status, frame.lease]
    exact closed.swept

theorem Inv.frame (inv : Inv env state) (frame : Frame state after)
    (working : ∀ worker, after.worker = some worker → worker.Valid env after) : Inv env after where
  queued isQueued := by
    rw [frame.status] at isQueued
    obtain ⟨none, idle⟩ := inv.queued isQueued
    exact ⟨frame.packets.trans none, not_not.mp (mt frame.worker (not_not.mpr idle))⟩
  unclosed := by
    rw [frame.closings, frame.status]
    exact inv.unclosed
  once := by
    rw [frame.closings]
    exact inv.once
  closed := by
    rw [frame.closings]
    exact fun closing isIn => (inv.closed closing isIn).frame frame
  ended := by
    rw [frame.closings]
    exact fun closing isIn works => inv.ended closing isIn (frame.worker works)
  fenced := by
    rw [frame.packets]
    simp only [Fenced, frame.lease]
    exact inv.fenced
  renewable := by
    rw [frame.lease]
    exact fun lease isLease => (inv.renewable lease isLease).trans (Nat.add_le_add_right frame.clock _)
  leased works := by
    rw [frame.lease]
    exact inv.leased (frame.worker works)
  working := working

theorem Inv.stop (inv : Inv env state) : Inv env state.stop :=
  inv.frame ⟨le_rfl, rfl, rfl, rfl, rfl, rfl, fun bad => absurd rfl bad⟩ fun _ bad => nomatch bad

theorem Worker.Valid.keeps {worker : Worker} (valid : worker.Valid env state) (packets : after.packets = state.packets)
    (unanswered : after.unanswered = state.unanswered) (later : ∀ began, Fenced state began → Fenced after began) :
    worker.Valid env after := by
  have agrees {outcomes : List (String × Option PacketStatus)} {done : List String} (agrees : Agrees state outcomes done) :
      Agrees after outcomes done := by
    refine ⟨agrees.keys, agrees.domains, ?_, ?_⟩
    · rw [packets]
      exact agrees.packets
    · rw [packets, unanswered]
      exact agrees.tells
  have progress {outcomes : List (String × Option PacketStatus)} {remaining : List String}
      (progress : Progress env state outcomes remaining) : Progress env after outcomes remaining := by
    obtain ⟨done, isRun, same⟩ := progress
    exact ⟨done, isRun, agrees same⟩
  have storing {outcomes : List (String × Option PacketStatus)} {store : Store}
      (storing : Storing env state outcomes store) : Storing env after outcomes store := by
    obtain ⟨isMain, main⟩ | ⟨isRetry, retry, known⟩ := storing
    · exact .main isMain (progress main)
    · exact .retry isRetry (progress retry) known
  rw [Worker.Valid] at valid ⊢
  generalize worker.phase = phase at valid ⊢
  cases valid with
  | claimed noOutcomes none => exact .claimed noOutcomes (packets.trans none)
  | checked noOutcomes none => exact .checked noOutcomes (packets.trans none)
  | calling noOutcomes none isRun => exact .calling noOutcomes (packets.trans none) isRun
  | storing main => exact .storing (progress main)
  | retrying retry known => exact .retrying (progress retry) known
  | inserting began store => exact .inserting began (storing store)
  | committing store fenced => exact .committing (storing store) (later _ fenced)
  | refused none => exact .refused (packets.trans none)
  | retryRaised => exact .retryRaised

theorem Inv.tick (inv : Inv env state) : Inv env { state with clock := state.clock + 1 } :=
  inv.frame ⟨Nat.le_succ _, rfl, rfl, rfl, rfl, rfl, id⟩ fun worker isWorker =>
    (inv.working worker isWorker).keeps rfl rfl fun _ => id

theorem Inv.claim (inv : Inv env state) (isQueued : state.status = .queued) :
    Inv env { state with
      status := .running
      leaseExpiresAt := some (state.clock + env.leaseSeconds)
      worker := some ⟨false, [], "", [], .claimed⟩ } := by
  obtain ⟨none, -⟩ := inv.queued isQueued
  have isOpen := inv.open_ (Or.inl isQueued)
  constructor
  · exact fun bad => nomatch bad
  · exact fun _ => Or.inr rfl
  · exact inv.once
  · exact fun closing isIn => absurd (isOpen ▸ isIn) List.not_mem_nil
  · exact fun closing isIn => absurd (isOpen ▸ isIn) List.not_mem_nil
  · exact fun packet isIn => absurd (none ▸ isIn) List.not_mem_nil
  · rintro lease ⟨⟩
    exact le_rfl
  · exact fun _ => rfl
  · intro worker isWorker
    obtain rfl := Option.some.inj isWorker
    exact Phase.Valid.claimed rfl none

theorem Inv.renewed (inv : Inv env state) (running : state.status = .running) :
    Inv env { state with leaseExpiresAt := some (state.clock + env.leaseSeconds) } := by
  have isOpen := inv.open_ (Or.inr running)
  have later (began : Nat) (fenced : Fenced state began) :
      Fenced { state with leaseExpiresAt := some (state.clock + env.leaseSeconds) } began := by
    obtain ⟨lease, isLease, before⟩ := fenced
    exact ⟨_, rfl, before.trans_le (inv.renewable lease isLease)⟩
  constructor
  · exact inv.queued
  · exact inv.unclosed
  · exact inv.once
  · exact fun closing isIn => absurd (isOpen ▸ isIn) List.not_mem_nil
  · exact inv.ended
  · exact fun packet isIn => later _ (inv.fenced packet isIn)
  · rintro lease ⟨⟩
    exact le_rfl
  · exact fun _ => rfl
  · exact fun worker isWorker => (inv.working worker isWorker).keeps rfl rfl later

theorem Inv.add {worker : Worker} {store : Store} {began : Nat} {unanswered : List String} (inv : Inv env state)
    (works : state.worker ≠ none) (fenced : Fenced state began)
    (valid : worker.Valid env { state.addPacket store began with unanswered := unanswered }) :
    Inv env { (state.addPacket store began).set worker with unanswered := unanswered } := by
  constructor
  · exact fun isQueued => absurd (inv.queued isQueued).2 works
  · exact inv.unclosed
  · exact inv.once
  · intro closing isIn
    have swept := inv.ended closing isIn works
    have closed := inv.closed closing isIn
    exact ⟨closed.status, closed.terminal, fun other => (nomatch swept.symm.trans other),
      fun other => (nomatch swept.symm.trans other), fun other => (nomatch swept.symm.trans other), closed.swept⟩
  · exact fun closing isIn _ => inv.ended closing isIn works
  · intro packet isIn
    obtain wasIn | isNew := List.mem_append.mp isIn
    · exact inv.fenced packet wasIn
    · rw [List.mem_singleton.mp isNew]
      exact fenced
  · exact inv.renewable
  · exact fun _ => inv.leased works
  · rintro _ ⟨⟩
    exact valid.keeps rfl rfl fun _ => id

theorem Inv.close {closing : Closing} (inv : Inv env state) (running : state.status = .running)
    (closed : Closed env { state with status := closing.status, closings := [closing] } closing)
    (ended : state.worker ≠ none → closing.closer = .swept) :
    Inv env { state with status := closing.status, closings := closing :: state.closings } := by
  have first := inv.open_ (Or.inr running)
  have only {other : Closing} (isIn : other ∈ closing :: state.closings) : other = closing := by
    rw [first] at isIn
    exact List.mem_singleton.mp isIn
  constructor
  · exact fun bad => absurd bad closed.terminal.1
  · exact fun bad => absurd bad (List.cons_ne_nil _ _)
  · rw [first]
    exact le_rfl
  · intro other isIn
    rw [only isIn, first]
    exact closed
  · intro other isIn works
    rw [only isIn]
    exact ended works
  · exact inv.fenced
  · exact inv.renewable
  · exact inv.leased
  · exact fun worker isWorker => (inv.working worker isWorker).keeps rfl rfl fun _ => id

theorem Inv.sweepLease (inv : Inv env state) : Inv env state.sweepLease := by
  rw [RunState.sweepLease]
  split
  case isFalse _ => exact inv
  case isTrue expired =>
    obtain ⟨running, isExpired⟩ := expired
    obtain ⟨lease, isLease, before⟩ := (Option.any_eq_true _ _).mp isExpired
    refine @Inv.close env state ⟨.swept, .failed, state.clock⟩ inv running ?_ fun _ => rfl
    exact ⟨rfl, ⟨nofun, nofun⟩, nofun, nofun, nofun, fun _ => ⟨rfl, lease, isLease, of_decide_eq_true before⟩⟩

theorem Inv.completed {outcomes : List (String × Option PacketStatus)} (inv : Inv env state)
    (progress : Progress env state outcomes []) :
    Inv env (state.completeExtraction (overallStatus outcomes) .completed).stop := by
  obtain ⟨done, isRun, agrees⟩ := progress
  rw [List.append_nil] at isRun
  rw [RunState.completeExtraction]
  split
  case isFalse _ => exact inv.stop
  case isTrue held =>
    refine @Inv.close env state.stop ⟨.completed, overallStatus outcomes, state.clock⟩ inv.stop held.1 ?_
      fun bad => absurd rfl bad
    have terminal : overallStatus outcomes ≠ .queued ∧ overallStatus outcomes ≠ .running := by
      rw [overallStatus]
      split <;> [skip; split] <;> exact ⟨nofun, nofun⟩
    exact ⟨rfl, terminal, fun _ => overallStatus_tells ⟨agrees.keys, agrees.domains, agrees.packets, agrees.tells⟩
      (RunEnv.domains_some isRun).2, nofun, nofun, nofun⟩

theorem Inv.failed {why : Failure} (inv : Inv env state) (none : why = .refused → state.packets = []) :
    Inv env (state.completeExtraction .failed (.failed why)).stop := by
  rw [RunState.completeExtraction]
  split
  case isFalse _ => exact inv.stop
  case isTrue held =>
    refine @Inv.close env state.stop ⟨.failed why, .failed, state.clock⟩ inv.stop held.1 ?_ fun bad => absurd rfl bad
    refine ⟨rfl, ⟨nofun, nofun⟩, nofun, ?_, fun _ => rfl, nofun⟩
    rintro ⟨⟩
    exact ⟨rfl, none rfl⟩

theorem Inv.effect (inv : Inv env state) (works : state.worker ≠ none) (effect : Effect env state after) :
    Inv env after := by
  cases effect with
  | moved valid =>
    refine inv.frame ⟨le_rfl, rfl, rfl, rfl, rfl, rfl, fun _ => works⟩ ?_
    rintro _ ⟨⟩
    exact valid.keeps rfl rfl fun _ => id
  | stopped => exact inv.stop
  | renewed running => exact inv.renewed running
  | committed fenced valid => exact inv.add works fenced valid
  | unanswered fenced valid => exact inv.add works fenced valid
  | completed progress => exact inv.completed progress
  | failed none => exact inv.failed none

theorem step_inv {act : Action} (inv : Inv env state) (stepped : step env state act = some after) : Inv env after := by
  have worked (isWork : (state.worker.bind fun worker => work env state worker act) = some after) : Inv env after := by
    obtain ⟨worker, isWorker, worked⟩ := Option.bind_eq_some_iff.mp isWork
    have works : state.worker ≠ none := by simp [isWorker]
    exact inv.effect works (work_effect (inv.working worker isWorker) (inv.leased works) worked)
  cases act with
  | tick =>
    cases stepped
    exact inv.tick
  | claim =>
    rw [step] at stepped
    split at stepped
    case isTrue isQueued =>
      cases stepped
      exact inv.claim isQueued
    case isFalse _ => cases stepped
  | sweep =>
    cases stepped
    exact inv.sweepLease
  | crash =>
    cases stepped
    exact inv.stop
  | renew | checkManifest | prepare | finishCalls | build | beginRetries | retryCall | insert | commit |
    commitUnanswered | raises | complete | finishFailed => exact worked stepped

end Steps

/-- **The status of an extraction.** In every run a terminal status is written once. Where the
run itself completed the extraction, and no store raised that had been committed, the status
says which of the requested domains have a packet; where it was refused, the status is
`failed` and no packet is stored; where it was swept, it is `failed`. A packet comes from a
transaction that began before the lease expired, and so before the sweep. -/
theorem run_told (env : RunEnv) {actions : List Action} {state : RunState}
    (path : run (step env) .initial actions = some state) : Told env state :=
  (invariant step_inv (Inv.initial env) path).told

def twoDomains : JsonValue :=
  .dict [("domains", .list [
    .dict [("id", .str "aid"), ("metrics", .list [metricJson "aid.average" "number"])],
    .dict [("id", .str "cost"), ("metrics", .list [metricJson "cost.total" "number"])]])]

def twoHashes : List (String × String) := [("aid", sampleHash), ("cost", sampleHash)]

def sampleRun (requested : List String) (isAsked : requested ≠ []) : RunEnv where
  manifest := ⟨"v1", twoDomains, sampleHash, twoHashes, [["aid", "cost"]], by decide +kernel⟩
  manifests := [⟨"v1", twoDomains, sampleHash, jsonHashes twoHashes⟩]
  supportedExtractors := ["counselle-cds-v1"]
  extractionId := "1"
  manifestVersion := "v1"
  extractorVersion := "counselle-cds-v1"
  requestedDomains := requested
  isAsked := isAsked
  pageCount := 2
  documentSha256 := sampleHash
  academicYear := 2024
  runContract := []
  isRouted := fun _ => true
  leaseSeconds := 1

def aidRun : RunEnv := sampleRun ["aid"] (by decide)

def aidCalls : List Action :=
  [.claim, .checkManifest, .prepare, .finishCalls [⟨"aid", .ok ([averageOf 90], none)⟩] "m", .build]

theorem run_told_completed :
    ∃ state, run (step aidRun) .initial (aidCalls ++ [.insert, .commit, .beginRetries, .complete]) = some state ∧
      state.status = .succeeded ∧ Told aidRun state := by
  have ends : (run (step aidRun) .initial (aidCalls ++ [.insert, .commit, .beginRetries, .complete])).any
      (fun state => decide (state.status = .succeeded)) = true := by decide +kernel
  obtain ⟨state, path, succeeded⟩ := (Option.any_eq_true _ _).mp ends
  exact ⟨state, path, of_decide_eq_true succeeded, run_told aidRun path⟩

def failsWith (domainId : String) (state : RunState) : Bool :=
  state.status = .failed && state.packets.any (·.domainId = domainId)

theorem failsWith_run {env : RunEnv} {actions : List Action} {domainId : String}
    (ends : (run (step env) .initial actions).any (failsWith domainId) = true) :
    ∃ state, run (step env) .initial actions = some state ∧ state.status = .failed ∧ Stored state.packets domainId := by
  obtain ⟨state, path, fails⟩ := (Option.any_eq_true _ _).mp ends
  simp only [failsWith, Bool.and_eq_true, decide_eq_true_eq, List.any_eq_true] at fails
  exact ⟨state, path, fails⟩

/-- The only domain is stored and the worker dies; its transaction ends after the sweep; its
answer is lost; the retry of another domain raises. -/
theorem failed_although_stored :
    (∃ state, run (step aidRun) .initial (aidCalls ++ [.insert, .commit, .crash, .tick, .tick, .sweep]) = some state ∧
      state.status = .failed ∧ Stored state.packets "aid") ∧
    (∃ state, run (step aidRun) .initial (aidCalls ++ [.tick, .tick, .sweep, .insert, .commit]) = some state ∧
      state.status = .failed ∧ Stored state.packets "aid") ∧
    (∃ state, run (step aidRun) .initial (aidCalls ++
        [.insert, .commitUnanswered, .beginRetries, .retryCall none, .complete]) = some state ∧
      state.status = .failed ∧ Stored state.packets "aid") ∧
    ∃ state, run (step (sampleRun ["aid", "cost"] (by decide))) .initial (aidCalls ++ [.insert, .commit, .build, .beginRetries,
        .retryCall (some ([finding "cost.total" .reported (.int 5) none], "m")), .raises, .finishFailed]) = some state ∧
      state.status = .failed ∧ Stored state.packets "aid" := by
  refine ⟨failsWith_run ?_, failsWith_run ?_, failsWith_run ?_, failsWith_run ?_⟩ <;> decide +kernel

end Counselle.Cds.Extraction
