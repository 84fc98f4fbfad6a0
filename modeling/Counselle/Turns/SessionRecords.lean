import Counselle.Turns.Session

/-! One record per assistant message over every interleaving on one session. -/
namespace Counselle.Turns
open Records Transition

/-- No turn may start over a pending v2 question; what a turn takes its list from must
still hold the legacy question it resumes, or not hold its record at all; and a turn
that has not read the records must not find another's question pending. -/
def Run.Window (run : Run) (records : List TurnRecord) : Prop :=
  match run.prior with
  | some prior => isParked prior → run.messageId ∈ messageIds records → isParked records
  | none => ∀ tail ∈ parkedRecord records, tail.messageId = run.messageId

def Session.Safe (session : Session) : SessionLabel → Prop
  | .prefetch readable _ => readable = true → pendingV2Tail session.records = false
  | .load | .failRead => ∀ run ∈ session.run, run.Window session.records
  | .stopRead => ∀ run ∈ session.run, run.prior = none → run.Window session.records
  | _ => True

instance (run : Run) (records : List TurnRecord) : Decidable (run.Window records) :=
  match h : run.prior with
  | some prior => decidable_of_iff
      (isParked prior → run.messageId ∈ messageIds records → isParked records)
      (by simp [Run.Window, h])
  | none => decidable_of_iff (∀ tail ∈ parkedRecord records, tail.messageId = run.messageId)
      (by simp [Run.Window, h])

instance (session : Session) : DecidablePred session.Safe
  | .prefetch _ _ => inferInstanceAs (Decidable (_ → _))
  | .load | .failRead => inferInstanceAs (Decidable (∀ _ ∈ _, _))
  | .stopRead => inferInstanceAs (Decidable (∀ _ ∈ _, _ → _))
  | .classify _ | .start _ _ | .failStart | .rewriteRead | .rewriteWrite | .spawn | .claimAnswer _
  | .readAnswer _ | .writeAnswer _ | .refuseAnswer | .startContinuation | .beginContinuation
  | .commit _ | .park _ | .failWrite _ | .quit | .stop | .stopWrite _ | .finalize | .unparkRead
  | .unparkWrite _ => isTrue trivial

structure Known (written : List String) (base : List TurnRecord) : Prop where
  one : OneRecord base
  known : ∀ id ∈ messageIds base, id ∈ written

variable {written : List String} {base records : List TurnRecord} {id : String}

theorem Known.mono {more : List String} (known : Known written base)
    (grows : ∀ id ∈ written, id ∈ more) : Known more base :=
  ⟨known.one, fun id isIn => grows id (known.known id isIn)⟩

theorem Known.commit {record : TurnRecord} (known : Known written base)
    (fits : Fits record.messageId base) :
    Known (record.messageId :: written) (appendOrReplace base record) := by
  refine ⟨known.one.commit fits, fun id isIn => ?_⟩
  obtain rfl | before := messageIds_commit base record id isIn
  · exact List.mem_cons_self
  · exact List.mem_cons_of_mem _ (known.known id before)

theorem Known.settle {record last : TurnRecord} (known : Known written base)
    (isLast : base.getLast? = some last) (same : record.messageId = last.messageId) :
    Known written (base.dropLast ++ [record]) := by
  refine ⟨known.one.replace isLast same, fun id isIn => known.known id ?_⟩
  rw [messageIds, List.map_append, List.mem_append] at isIn
  obtain before | here := isIn
  · exact List.map_subset _ (List.dropLast_subset base) before
  · rw [List.map_singleton, List.mem_singleton] at here
    rw [here, same]
    exact List.mem_map_of_mem (List.mem_of_getLast? isLast)

theorem Known.take (known : Known written base) (count : Nat) : Known written (base.take count) :=
  ⟨known.one.take count,
    fun id isIn => known.known id (List.map_subset _ (List.take_subset _ _) isIn)⟩

/-- What the prefetch settled: the id is the parked legacy record's, and then whatever is
parked now is that record; or nothing was parked and the id is new. -/
structure Run.Anchored (run : Run) (session : Session) (prior : List TurnRecord) : Prop where
  known : Known session.written prior
  fits : Fits run.messageId prior
  fresh : isParked prior = false → run.messageId ∉ session.written
  tail : isParked session.records → session.records.getLast? = prior.getLast?

def AnswerPhase.continuationId : AnswerPhase → Option String
  | .claimed => none
  | .read _ _ continuationId | .written continuationId => some continuationId

def Session.continuationId (session : Session) : Option String :=
  session.answer.bind (·.continuationId)

/-- Past the meta event and before the run's own record is written. -/
structure Run.Unwritten (run : Run) (session : Session) : Prop where
  minted : run.messageId ∈ session.minted
  apart : session.continuationId ≠ some run.messageId
  anchored : ∀ prior, run.prior = some prior → run.Anchored session prior
  fresh : run.prior = none → run.messageId ∉ session.written

structure Run.Written (run : Run) (session : Session) : Prop where
  minted : run.messageId ∈ session.minted
  apart : session.continuationId ≠ some run.messageId
  own : run.prior ≠ none →
    ∀ tail ∈ parkedRecord session.records, tail.messageId = run.messageId

def Run.Ok (run : Run) (session : Session) : Prop :=
  match run.phase with
  | .silent => True
  | .preparing _ => run.continuation = false
  | .rewriting base _ => run.continuation = false ∧ Known session.written base
  | .spawned => run.continuation → run.Unwritten session
  | .running => run.Unwritten session
  | .loaded base | .failing base =>
    run.Unwritten session ∧ Known session.written base ∧ Fits run.messageId base
  | .ended | .stopping => run.Written session
  | .persisting base =>
    run.Written session ∧ Known session.written base ∧ Fits run.messageId base

structure Session.Ok (session : Session) : Prop where
  records : Known session.written session.records
  drawn : ∀ id ∈ session.written, id ∈ session.minted
  unparks : ∀ base ∈ session.unparks, Known session.written base
  read : ∀ base latest continuationId, session.answer = some (.read base latest continuationId) →
    Known session.written base ∧ base.getLast? = some latest
  pending : ∀ continuationId ∈ session.continuationId,
    continuationId ∈ session.minted ∧ continuationId ∉ session.written
  run : ∀ run ∈ session.run, run.Ok session

variable {session next : Session} {run : Run}

theorem parkedRecord_none (idle : isParked records = false) : parkedRecord records = none := by
  cases parked : parkedRecord records with
  | none => rfl
  | some tail =>
    have isIn := parkedRecord_eq_some.mp parked
    rw [isParked_iff.mpr ⟨tail, isIn⟩] at idle
    cases idle

theorem Run.Unwritten.phase (unwritten : run.Unwritten session) (phase : RunPhase) :
    ({ run with phase := phase } : Run).Unwritten session := by
  refine ⟨unwritten.minted, unwritten.apart, fun prior isPrior => ?_, unwritten.fresh⟩
  have anchored := unwritten.anchored prior isPrior
  exact ⟨anchored.known, anchored.fits, anchored.fresh, anchored.tail⟩

theorem Run.Written.phase (written : run.Written session) (phase : RunPhase) :
    ({ run with phase := phase } : Run).Written session :=
  ⟨written.minted, written.apart, written.own⟩

structure Session.Beside (session next : Session) : Prop where
  written : next.written = session.written
  minted : ∀ id ∈ session.minted, id ∈ next.minted
  records : next.records = session.records ∨ isParked next.records = false
  continuation : ∀ id ∈ next.continuationId, id ∈ session.continuationId ∨ id ∉ session.minted

theorem Run.Anchored.beside {prior : List TurnRecord} (anchored : run.Anchored session prior)
    (beside : session.Beside next) : run.Anchored next prior := by
  refine ⟨beside.written ▸ anchored.known, anchored.fits, beside.written ▸ anchored.fresh, ?_⟩
  intro parked
  obtain same | idle := beside.records
  · rw [same] at parked ⊢
    exact anchored.tail parked
  · rw [idle] at parked
    cases parked

theorem Session.Beside.apart (beside : session.Beside next)
    (minted : run.messageId ∈ session.minted)
    (apart : session.continuationId ≠ some run.messageId) :
    next.continuationId ≠ some run.messageId := by
  intro same
  obtain before | drawn := beside.continuation _ same
  · exact apart before
  · exact drawn minted

theorem Run.Unwritten.beside (unwritten : run.Unwritten session) (beside : session.Beside next) :
    run.Unwritten next :=
  ⟨beside.minted _ unwritten.minted, beside.apart unwritten.minted unwritten.apart,
    fun prior isPrior => (unwritten.anchored prior isPrior).beside beside,
    beside.written ▸ unwritten.fresh⟩

theorem Run.Written.beside (written : run.Written session) (beside : session.Beside next) :
    run.Written next := by
  refine ⟨beside.minted _ written.minted, beside.apart written.minted written.apart, ?_⟩
  intro read tail isTail
  obtain same | idle := beside.records
  · rw [same] at isTail
    exact written.own read tail isTail
  · rw [parkedRecord_none idle] at isTail
    cases isTail

theorem Run.Ok.beside (ok : run.Ok session) (beside : session.Beside next) : run.Ok next := by
  unfold Run.Ok at ok ⊢
  rw [beside.written]
  generalize run.phase = phase at ok ⊢
  cases phase with
  | preparing replaceMessageId => exact ok
  | silent => trivial
  | rewriting base index => exact ok
  | spawned => exact fun isContinuation => (ok isContinuation).beside beside
  | running => exact ok.beside beside
  | loaded base => exact ⟨ok.1.beside beside, ok.2⟩
  | failing base => exact ⟨ok.1.beside beside, ok.2⟩
  | ended => exact ok.beside beside
  | stopping => exact ok.beside beside
  | persisting base => exact ⟨ok.1.beside beside, ok.2⟩

theorem Session.Ok.beside (ok : session.Ok) (beside : session.Beside next)
    (known : Known session.written next.records) (run : next.run = session.run)
    (unparks : ∀ base ∈ next.unparks, Known session.written base)
    (read : ∀ base latest continuationId, next.answer = some (.read base latest continuationId) →
      Known session.written base ∧ base.getLast? = some latest)
    (pending : ∀ continuationId ∈ next.continuationId, continuationId ∉ session.minted →
      continuationId ∈ next.minted) : next.Ok := by
  refine ⟨beside.written ▸ known, ?_, beside.written ▸ unparks, beside.written ▸ read, ?_, ?_⟩
  · rw [beside.written]
    exact fun id isWritten => beside.minted id (ok.drawn id isWritten)
  · intro continuationId isPending
    rw [beside.written]
    obtain before | drawn := beside.continuation _ isPending
    · obtain ⟨minted, fresh⟩ := ok.pending continuationId before
      exact ⟨beside.minted _ minted, fresh⟩
    · exact ⟨pending continuationId isPending drawn,
        fun isWritten => drawn (ok.drawn continuationId isWritten)⟩
  · rw [run]
    exact fun run isRun => (ok.run run isRun).beside beside

theorem Session.Ok.readAnswer (ok : session.Ok) {continuationId : String}
    (step : sessionStep session (.readAnswer continuationId) = some next) : next.Ok := by
  simp only [sessionStep] at step
  split at step
  case h_1 latest _ parked =>
    split at step
    case isTrue fresh =>
      cases step
      apply ok.beside
      · refine ⟨rfl, fun id isIn => List.mem_cons_of_mem _ isIn, Or.inl rfl, ?_⟩
        intro id isPending
        cases isPending
        exact Or.inr fresh.2
      · exact ok.records
      · rfl
      · exact ok.unparks
      · intro base last other isRead
        cases isRead
        exact ⟨ok.records, (parkedRecord_eq_some.mp parked).1⟩
      · intro id isPending _
        cases isPending
        exact List.mem_cons_self
    case isFalse => cases step
  case h_2 => cases step

theorem Session.Ok.writeAnswer (ok : session.Ok) {answered : TurnRecord}
    (step : sessionStep session (.writeAnswer answered) = some next) : next.Ok := by
  simp only [sessionStep] at step
  split at step
  case h_1 base latest continuationId isRead =>
    split at step
    case isTrue answers =>
      obtain ⟨records, replaced, rfl⟩ := Option.map_eq_some_iff.mp step
      obtain ⟨known, isLast⟩ := ok.read base latest continuationId isRead
      have settled : records = base.dropLast ++ [answered] := by
        simp only [replaceLatestPendingV2, isLast] at replaced
        split at replaced
        · cases replaced
        · exact (Option.some.inj replaced).symm
      subst settled
      apply ok.beside
      · refine ⟨rfl, fun id isIn => isIn, Or.inr ?_, ?_⟩
        · exact not_parked_snoc answered (by rw [answers.2]; decide)
        · intro id isPending
          left
          rw [Session.continuationId, isRead]
          exact isPending
      · exact known.settle isLast answers.1
      · rfl
      · exact ok.unparks
      · intro _ _ _ isRead'
        cases isRead'
      · intro id isPending fresh
        cases isPending
        have drawn := (ok.pending continuationId (by rw [Session.continuationId, isRead]; rfl)).1
        exact drawn
    case isFalse => cases step
  case h_2 => cases step

theorem Session.Ok.unparkWrite (ok : session.Ok) {request : Nat}
    (step : sessionStep session (.unparkWrite request) = some next) : next.Ok := by
  simp only [sessionStep] at step
  split at step
  case h_1 base isRead =>
    obtain ⟨parked, isParked, rfl⟩ := Option.map_eq_some_iff.mp step
    have known := ok.unparks base (List.mem_of_getElem? isRead)
    apply ok.beside
    · refine ⟨rfl, fun id isIn => isIn, Or.inr ?_, fun id isPending => Or.inl isPending⟩
      exact not_parked_snoc _ nofun
    · exact known.settle (parkedRecord_eq_some.mp isParked).1 rfl
    · rfl
    · exact fun other isIn => ok.unparks other (List.mem_of_mem_eraseIdx isIn)
    · exact ok.read
    · exact fun id isPending _ => (ok.pending id isPending).1
  case h_2 => cases step

theorem Session.Ok.withRun (ok : session.Ok) (turn : Option Run)
    (kept : ∀ run ∈ turn, run.Ok session) : Session.Ok { session with run := turn } := by
  refine ⟨ok.records, ok.drawn, ok.unparks, ok.read, ok.pending, fun run isRun => ?_⟩
  exact (kept run isRun).beside ⟨rfl, fun _ isIn => isIn, Or.inl rfl, fun _ isIn => Or.inl isIn⟩

theorem Session.Ok.setPhase (ok : session.Ok) (run : Run) (phase : RunPhase)
    (kept : ({ run with phase := phase } : Run).Ok session) : (session.setPhase run phase).Ok := by
  apply ok.withRun
  intro other isOther
  cases isOther
  exact kept

theorem Session.Ok.write (ok : session.Ok) {record : TurnRecord}
    (minted : run.messageId ∈ session.minted)
    (apart : session.continuationId ≠ some run.messageId) (known : Known session.written base)
    (fits : Fits run.messageId base) (same : record.messageId = run.messageId) :
    (session.write run base record).Ok := by
  have more : ∀ id ∈ session.written, id ∈ run.messageId :: session.written :=
    fun id isWritten => List.mem_cons_of_mem _ isWritten
  refine ⟨?_, ?_, fun other isIn => (ok.unparks other isIn).mono more, ?_, ?_, ?_⟩
  · have committed := known.commit (same ▸ fits)
    rw [same] at committed
    exact committed
  · intro id isWritten
    obtain rfl | before := List.mem_cons.mp isWritten
    · exact minted
    · exact ok.drawn id before
  · intro other latest continuationId isRead
    obtain ⟨known, isLast⟩ := ok.read other latest continuationId isRead
    exact ⟨known.mono more, isLast⟩
  · intro continuationId isPending
    obtain ⟨drawn, fresh⟩ := ok.pending continuationId isPending
    refine ⟨drawn, fun isWritten => ?_⟩
    obtain rfl | before := List.mem_cons.mp isWritten
    · exact apart isPending
    · exact fresh before
  · intro other isOther
    cases isOther
    refine ⟨minted, apart, fun _ tail isTail => ?_⟩
    have isLast := (parkedRecord_eq_some.mp isTail).1
    cases (getLast?_commit base record).symm.trans isLast
    exact same

theorem Run.Anchored.own {prior : List TurnRecord} (anchored : run.Anchored session prior)
    {tail : TurnRecord} (isTail : parkedRecord session.records = some tail) :
    tail.messageId = run.messageId ∧ tail.isV2Clarify = false := by
  have parked := isParked_iff.mpr ⟨tail, parkedRecord_eq_some.mp isTail⟩
  have same := anchored.tail parked
  obtain ⟨isLast, awaits⟩ := parkedRecord_eq_some.mp isTail
  obtain ⟨last, isResumed, _, own, legacy⟩ | ⟨idle, _⟩ := anchored.fits
  · cases (isLast.symm.trans same).trans isResumed
    exact ⟨own, legacy⟩
  · rw [isParked_iff.mpr ⟨tail, same ▸ isLast, awaits⟩] at idle
    cases idle

theorem Run.Unwritten.toWritten (unwritten : run.Unwritten session) : run.Written session := by
  refine ⟨unwritten.minted, unwritten.apart, fun read tail isTail => ?_⟩
  obtain ⟨prior, isPrior⟩ := Option.ne_none_iff_exists'.mp read
  exact ((unwritten.anchored prior isPrior).own isTail).1

theorem not_parked_of_new (own : ∀ tail ∈ parkedRecord records, tail.messageId = id)
    (new : id ∉ messageIds records) : isParked records = false := by
  cases parked : isParked records with
  | false => rfl
  | true =>
    obtain ⟨tail, isLast, awaits⟩ := isParked_iff.mp parked
    have isTail := parkedRecord_eq_some.mpr ⟨isLast, awaits⟩
    refine absurd ?_ new
    rw [← own tail isTail]
    exact List.mem_map_of_mem (List.mem_of_getLast? isLast)

theorem Run.Unwritten.fits (unwritten : run.Unwritten session)
    (known : Known session.written session.records) (window : run.Window session.records) :
    Fits run.messageId session.records := by
  cases isPrior : run.prior with
  | none =>
    simp only [Run.Window, isPrior] at window
    have new : run.messageId ∉ messageIds session.records :=
      fun isIn => unwritten.fresh isPrior (known.known _ isIn)
    exact Or.inr ⟨not_parked_of_new window new, new⟩
  | some prior =>
    simp only [Run.Window, isPrior] at window
    have anchored := unwritten.anchored prior isPrior
    by_cases isIn : run.messageId ∈ messageIds session.records
    · have parked : isParked prior = true := by
        by_contra idle
        exact anchored.fresh (by simpa using idle) (known.known _ isIn)
      obtain ⟨tail, isLast, awaits⟩ := isParked_iff.mp (window parked isIn)
      have isTail := parkedRecord_eq_some.mpr ⟨isLast, awaits⟩
      obtain ⟨own, legacy⟩ := anchored.own isTail
      exact Or.inl ⟨tail, isLast, awaits, own, legacy⟩
    · exact Or.inr ⟨not_parked_of_new (fun tail isTail => (anchored.own isTail).1) isIn, isIn⟩

theorem fits_of_persists (own : ∀ tail ∈ parkedRecord records, tail.messageId = id)
    (persists : ¬ (id ∈ messageIds records ∧ ((parkedRecord records).any fun tail =>
      tail.messageId = id ∧ tail.isV2Clarify = false) = false)) : Fits id records := by
  by_cases isIn : id ∈ messageIds records
  · have resumes := mt (And.intro isIn) persists
    rw [Bool.not_eq_false, Option.any_eq_true] at resumes
    obtain ⟨tail, isTail, same⟩ := resumes
    obtain ⟨isLast, awaits⟩ := parkedRecord_eq_some.mp isTail
    have both := of_decide_eq_true same
    exact Or.inl ⟨tail, isLast, awaits, both⟩
  · exact Or.inr ⟨not_parked_of_new own isIn, isIn⟩

attribute [local simp] Turns.runStep

theorem Session.Ok.prefetch (ok : session.Ok) {readable : Bool}
    {messageId : String} (safe : session.Safe (.prefetch readable messageId))
    (step : runStep session run (.prefetch readable messageId) = some next) : next.Ok := by
  simp only [Turns.runStep] at step
  split at step
  · cases step
  case isFalse due =>
    push Not at due
    obtain ⟨_, _, new⟩ := due
    have unwrittenId : messageId ∉ session.written := fun isIn => new (ok.drawn _ isIn)
    have drawn : Session.Ok { session with minted := messageId :: session.minted, run := none } := by
      refine ⟨ok.records, fun id isIn => List.mem_cons_of_mem _ (ok.drawn id isIn), ok.unparks,
        ok.read, fun id isPending => ?_, nofun⟩
      obtain ⟨minted, fresh⟩ := ok.pending id isPending
      exact ⟨List.mem_cons_of_mem _ minted, fresh⟩
    have apartNew : session.continuationId ≠ some messageId :=
      fun same => new (ok.pending messageId same).1
    split at step
    case isTrue isReadable =>
      cases step
      apply drawn.withRun
      intro other isOther
      cases isOther
      cases parked : parkedRecord session.records with
      | none =>
        have idle : isParked session.records = false := by
          cases isParked' : isParked session.records with
          | false => rfl
          | true =>
            obtain ⟨tail, isTail⟩ := isParked_iff.mp isParked'
            cases parked.symm.trans (parkedRecord_eq_some.mpr isTail)
        refine ⟨List.mem_cons_self, apartNew, fun prior isPrior => ?_, nofun⟩
        cases isPrior
        have newId : messageId ∉ messageIds session.records :=
          fun isIn => unwrittenId (ok.records.known _ isIn)
        exact ⟨ok.records, Or.inr ⟨idle, newId⟩, fun _ => unwrittenId, fun _ => rfl⟩
      | some tail =>
        obtain ⟨isLast, awaits⟩ := parkedRecord_eq_some.mp parked
        have isKnown : tail.messageId ∈ session.written :=
          ok.records.known _ (List.mem_map_of_mem (List.mem_of_getLast? isLast))
        have legacy : tail.isV2Clarify = false := by
          simpa [pendingV2Tail, parked] using safe isReadable
        refine ⟨List.mem_cons_of_mem _ (ok.drawn _ isKnown), ?_, fun prior isPrior => ?_, nofun⟩
        · exact fun same => (ok.pending _ same).2 isKnown
        · cases isPrior
          refine ⟨ok.records, Or.inl ⟨tail, isLast, awaits, rfl, legacy⟩, fun idle => ?_,
            fun _ => rfl⟩
          rw [isParked_iff.mpr ⟨tail, isLast, awaits⟩] at idle
          cases idle
    case isFalse unreadable =>
      cases step
      apply drawn.withRun
      intro other isOther
      cases isOther
      exact ⟨List.mem_cons_self, apartNew, nofun, fun _ => unwrittenId⟩

theorem Session.Ok.runStep {label : SessionLabel} (ok : session.Ok)
    (isRun : session.run = some run) (safe : session.Safe label)
    (step : runStep session run label = some next) : next.Ok := by
  have runOk := ok.run run isRun
  cases label with
  | failStart =>
    simp only [Turns.runStep] at step
    split at step
    · cases step
      exact ok.withRun none nofun
    · cases step
      exact ok.withRun none nofun
    · cases step
  | rewriteRead =>
    simp only [Turns.runStep] at step
    split at step
    case h_1 replaceMessageId phase =>
      obtain ⟨index, _, rfl⟩ := Option.map_eq_some_iff.mp step
      simp only [Run.Ok, phase] at runOk
      exact ok.setPhase run _ ⟨runOk, ok.records⟩
    case h_2 => cases step
  | rewriteWrite =>
    simp only [Turns.runStep] at step
    split at step
    case h_1 base index phase =>
      cases step
      simp only [Run.Ok, phase] at runOk
      refine ⟨runOk.2.take index, ok.drawn, ok.unparks, ok.read, ok.pending, ?_⟩
      intro other isOther
      cases isOther
      exact runOk.1
    case h_2 => cases step
  | spawn =>
    simp only [Turns.runStep] at step
    split at step
    case h_1 phase =>
      cases step
      simp only [Run.Ok, phase] at runOk
      apply ok.setPhase
      intro isContinuation
      cases runOk.symm.trans isContinuation
    case h_2 => cases step
  | prefetch readable messageId => exact ok.prefetch safe step
  | beginContinuation =>
    simp only [Turns.runStep] at step
    split at step
    case isTrue due =>
      cases step
      simp only [Run.Ok, due.1] at runOk
      exact ok.setPhase run _ ((runOk due.2).phase _)
    case isFalse => cases step
  | load =>
    simp only [Turns.runStep] at step
    split at step
    case isTrue due =>
      cases step
      simp only [Run.Ok, due.1] at runOk
      apply ok.setPhase
      exact ⟨runOk.phase _, ok.records, runOk.fits ok.records (safe run isRun)⟩
    case isFalse => cases step
  | commit record =>
    simp only [Turns.runStep] at step
    split at step
    case h_1 base phase =>
      split at step
      case isTrue may =>
        cases step
        simp only [Run.Ok, phase] at runOk
        obtain ⟨unwritten, known, fits⟩ := runOk
        have own := of_decide_eq_true may.1
        exact ok.write unwritten.minted unwritten.apart known fits own.1
      case isFalse => cases step
    case h_2 => cases step
  | park record =>
    simp only [Turns.runStep] at step
    split at step
    case h_1 base prior phase isPrior =>
      split at step
      case isTrue may =>
        cases step
        simp only [Run.Ok, phase] at runOk
        have anchored := runOk.1.anchored prior isPrior
        have own := of_decide_eq_true may.1
        exact ok.write runOk.1.minted runOk.1.apart anchored.known anchored.fits own.1
      case isFalse => cases step
    case h_2 => cases step
  | failRead =>
    simp only [Turns.runStep] at step
    split at step
    case h_1 phase =>
      cases step
      simp only [Run.Ok, phase] at runOk
      apply ok.setPhase
      exact ⟨runOk.phase _, ok.records, runOk.fits ok.records (safe run isRun)⟩
    case h_2 base phase =>
      cases step
      simp only [Run.Ok, phase] at runOk
      apply ok.setPhase
      exact ⟨runOk.1.phase _, ok.records, runOk.1.fits ok.records (safe run isRun)⟩
    case h_3 => cases step
  | failWrite record =>
    simp only [Turns.runStep] at step
    split at step
    case h_1 base phase =>
      split at step
      case isTrue may =>
        cases step
        simp only [Run.Ok, phase] at runOk
        obtain ⟨unwritten, known, fits⟩ := runOk
        exact ok.write unwritten.minted unwritten.apart known fits (of_decide_eq_true may).1
      case isFalse => cases step
    case h_2 => cases step
  | quit =>
    simp only [Turns.runStep] at step
    split at step
    case h_1 phase =>
      cases step
      exact ok.setPhase run _ trivial
    case h_2 phase =>
      cases step
      simp only [Run.Ok, phase] at runOk
      exact ok.setPhase run _ (runOk.toWritten.phase _)
    case h_3 base phase =>
      cases step
      simp only [Run.Ok, phase] at runOk
      exact ok.setPhase run _ (runOk.1.toWritten.phase _)
    case h_4 base phase =>
      cases step
      simp only [Run.Ok, phase] at runOk
      exact ok.setPhase run _ (runOk.1.toWritten.phase _)
    case h_5 => cases step
  | stop =>
    simp only [Turns.runStep] at step
    cases phase : run.phase with
    | preparing replaceMessageId =>
      rw [phase] at step
      cases step
    | rewriting base index =>
      rw [phase] at step
      cases step
    | silent =>
      rw [phase] at step
      cases step
    | spawned =>
      rw [phase] at step
      cases step
      exact ok.setPhase run _ trivial
    | running =>
      rw [phase] at step
      cases step
      simp only [Run.Ok, phase] at runOk
      exact ok.setPhase run _ (runOk.toWritten.phase _)
    | loaded base =>
      rw [phase] at step
      cases step
      simp only [Run.Ok, phase] at runOk
      exact ok.setPhase run _ (runOk.1.toWritten.phase _)
    | failing base =>
      rw [phase] at step
      cases step
      simp only [Run.Ok, phase] at runOk
      exact ok.setPhase run _ (runOk.1.toWritten.phase _)
    | ended =>
      rw [phase] at step
      cases step
      simp only [Run.Ok, phase] at runOk
      exact ok.setPhase run _ (runOk.phase _)
    | stopping =>
      rw [phase] at step
      cases step
      simp only [Run.Ok, phase] at runOk
      exact ok.setPhase run _ (runOk.phase _)
    | persisting base =>
      rw [phase] at step
      cases step
      simp only [Run.Ok, phase] at runOk
      exact ok.setPhase run _ (runOk.1.phase _)
  | stopRead =>
    simp only [Turns.runStep] at step
    split at step
    case h_1 phase =>
      simp only [Run.Ok, phase] at runOk
      split at step
      case isTrue =>
        cases step
        exact ok.setPhase run _ (runOk.phase _)
      case isFalse persists =>
        cases step
        have own : ∀ tail ∈ parkedRecord session.records, tail.messageId = run.messageId := by
          cases isPrior : run.prior with
          | none => simpa [Run.Window, isPrior] using safe run isRun isPrior
          | some prior => exact runOk.own (by simp [isPrior])
        exact ok.setPhase run _ ⟨runOk.phase _, ok.records, fits_of_persists own persists⟩
    case h_2 => cases step
  | stopWrite record =>
    simp only [Turns.runStep] at step
    split at step
    case h_1 base phase =>
      split at step
      case isTrue may =>
        cases step
        simp only [Run.Ok, phase] at runOk
        obtain ⟨written, known, fits⟩ := runOk
        exact ok.write written.minted written.apart known fits (of_decide_eq_true may).1
      case isFalse => cases step
    case h_2 => cases step
  | finalize =>
    simp only [Turns.runStep] at step
    split at step
    case h_5 => cases step
    all_goals
      cases step
      exact ok.withRun none nofun
  | classify _ | start _ _ | claimAnswer _ | readAnswer _ | writeAnswer _ | refuseAnswer
  | startContinuation | unparkRead | unparkWrite _ => cases step

theorem Session.Ok.withAnswer (ok : session.Ok) (posts : List Bool) (answer : Option AnswerPhase)
    (read : ∀ base latest continuationId, answer = some (.read base latest continuationId) →
      Known session.written base ∧ base.getLast? = some latest)
    (pending : ∀ id ∈ answer.bind (·.continuationId), id ∈ session.continuationId) :
    Session.Ok { session with posts := posts, answer := answer } := by
  refine ⟨ok.records, ok.drawn, ok.unparks, read, fun id isPending => ?_, fun run isRun => ?_⟩
  · exact ok.pending id (pending id isPending)
  · exact (ok.run run isRun).beside
      ⟨rfl, fun _ isIn => isIn, Or.inl rfl, fun id isPending => Or.inl (pending id isPending)⟩

theorem Session.Ok.step {label : SessionLabel} (ok : session.Ok) (safe : session.Safe label)
    (step : sessionStep session label = some next) : next.Ok := by
  cases label with
  | classify readable =>
    cases step
    exact ⟨ok.records, ok.drawn, ok.unparks, ok.read, ok.pending, fun run isRun =>
      (ok.run run isRun).beside ⟨rfl, fun _ isIn => isIn, Or.inl rfl, fun _ isIn => Or.inl isIn⟩⟩
  | start post replaceMessageId =>
    simp only [sessionStep] at step
    split at step
    case isTrue =>
      cases step
      refine ⟨ok.records, ok.drawn, ok.unparks, ok.read, ok.pending, fun run isRun => ?_⟩
      cases isRun
      rfl
    case isFalse => cases step
  | claimAnswer post =>
    simp only [sessionStep] at step
    split at step
    case isTrue due =>
      cases step
      apply ok.withAnswer
      · intro base latest continuationId isRead
        cases isRead
      · intro id isPending
        cases isPending
    case isFalse => cases step
  | readAnswer continuationId => exact ok.readAnswer step
  | writeAnswer answered => exact ok.writeAnswer step
  | refuseAnswer =>
    obtain ⟨_, _, rfl⟩ := Option.map_eq_some_iff.mp step
    apply ok.withAnswer
    · intro base latest continuationId isRead
      cases isRead
    · intro id isPending
      cases isPending
  | startContinuation =>
    simp only [sessionStep] at step
    split at step
    case h_1 continuationId isWritten =>
      split at step
      case isTrue =>
        cases step
        have isPending : continuationId ∈ session.continuationId := by
          rw [Session.continuationId, isWritten]
          rfl
        obtain ⟨minted, fresh⟩ := ok.pending continuationId isPending
        refine ⟨ok.records, ok.drawn, ok.unparks, ?_, ?_, fun run isRun => ?_⟩
        · intro base latest continuationId isRead
          cases isRead
        · intro id isPending
          cases isPending
        · cases isRun
          exact fun _ => ⟨minted, nofun, nofun, fun _ => fresh⟩
      case isFalse => cases step
    case h_2 => cases step
  | unparkRead =>
    simp only [sessionStep] at step
    split at step
    case isTrue =>
      cases step
      refine ⟨ok.records, ok.drawn, fun base isIn => ?_, ok.read, ok.pending, fun run isRun =>
        (ok.run run isRun).beside ⟨rfl, fun _ isIn => isIn, Or.inl rfl, fun _ isIn => Or.inl isIn⟩⟩
      obtain rfl | before := List.mem_cons.mp isIn
      · exact ok.records
      · exact ok.unparks base before
    case isFalse => cases step
  | unparkWrite request => exact ok.unparkWrite step
  | failStart | rewriteRead | rewriteWrite | spawn | prefetch _ _ | beginContinuation | load
  | commit _ | park _ | failRead | failWrite _ | quit | stop | stopRead | stopWrite _ | finalize =>
    obtain ⟨run, isRun, ran⟩ := Option.bind_eq_some_iff.mp step
    exact ok.runStep isRun safe ran

def Session.stored (records : List TurnRecord) : Session where
  records := records
  minted := messageIds records
  written := messageIds records

theorem Session.Ok.stored (one : OneRecord records) : (Session.stored records).Ok where
  records := ⟨one, fun _ isIn => isIn⟩
  drawn := fun _ isIn => isIn
  unparks := fun base isIn => by cases isIn
  read := fun base latest continuationId isRead => by cases isRead
  pending := fun continuationId isPending => by cases isPending
  run := fun run isRun => by cases isRun

/-- Whatever requests, turns, answers and cancels interleave on a session: while every
step stays in its window, each message id has at most one record, and only the last
record waits for the student. -/
theorem one_record_per_message (records : List TurnRecord) (labels : List SessionLabel)
    (session : Session) (one : OneRecord records)
    (path : Transition.run sessionStep (Session.stored records) labels = some session)
    (safe : Meets sessionStep Session.Safe (Session.stored records) labels) :
    OneRecord session.records :=
  (invariant_of_meets (fun ok safe step => Session.Ok.step ok safe step) (.stored one) path
    safe).records.one

section Example

def recordOf (messageId : String) (status : TurnStatus) (clarify : Option Clarification) :
    TurnRecord :=
  buildTurnRecord (fun _ => "") []
    { ids := { messageId := messageId, userMessageId := "u1" }
      status := status
      clarify := clarify
      messagesOffset := 0 }

def asking : List SessionLabel :=
  [.start 0 none, .spawn, .prefetch true "a1", .load,
    .commit (recordOf "a1" .awaitingInput (some ⟨"spec", true, none, none⟩)), .finalize]

/-- The question is answered and its continuation replies. -/
def answering : List SessionLabel :=
  .classify true :: asking ++
    [.classify true, .claimAnswer (some 0), .readAnswer "a2",
      .writeAnswer (recordOf "a1" .complete (some ⟨"spec", true, some "north", none⟩)),
      .startContinuation, .beginContinuation, .load, .commit (recordOf "a2" .complete none),
      .finalize]

/-- The next message is classified before the question is there and starts after it. -/
def overtaken : List SessionLabel :=
  .classify true :: .classify true :: asking ++
    [.start 0 none, .spawn, .prefetch true "a2", .load, .commit (recordOf "a1" .complete none)]

end Example

theorem one_record_per_message_answered :
    ∃ session, Transition.run sessionStep (Session.stored []) answering = some session ∧
      OneRecord session.records := by
  have ends : (Transition.run sessionStep (Session.stored []) answering).isSome := by
    decide +kernel
  obtain ⟨session, path⟩ := Option.isSome_iff_exists.mp ends
  have safe : Meets sessionStep Session.Safe (Session.stored []) answering := by decide +kernel
  exact ⟨session, path, one_record_per_message [] answering session OneRecord.nil path safe⟩

theorem second_turn_takes_question_id :
    ∃ session, Transition.run sessionStep (Session.stored []) overtaken = some session ∧
      messageIds session.records = ["a1", "a1"] ∧
      session.records.map (·.status) = [.awaitingInput, .complete] ∧
      ¬ OneRecord session.records := by
  have ends : (Transition.run sessionStep (Session.stored []) overtaken).any fun session =>
      messageIds session.records = ["a1", "a1"] ∧
      session.records.map (·.status) = [.awaitingInput, .complete] := by
    decide +kernel
  obtain ⟨session, path, twice⟩ := (Option.any_eq_true _ _).mp ends
  obtain ⟨ids, statuses⟩ := of_decide_eq_true twice
  refine ⟨session, path, ids, statuses, fun one => ?_⟩
  have distinct := one.ids
  rw [ids] at distinct
  cases distinct with
  | cons apart _ => exact apart "a1" List.mem_cons_self rfl

end Counselle.Turns
