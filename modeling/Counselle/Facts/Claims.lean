import Counselle.Facts.Passes

/-! Who settles a job and closes its run. A claim is told apart from every other claim of
its job by the time it was made, since a lease outlasts the moment it is given. -/
namespace Counselle.Facts.Passes

/-- The claims of the workers against the rows of the queue. -/
structure ClaimsOk (now : Nat) (jobs : List FactsJob) (workers : Nat → Option Worker) : Prop where
  past : ∀ w k, workers w = some k → k.claim.startedAt ≤ now
  known : ∀ w k, workers w = some k → k.claim.job < jobs.length
  running : ∀ id job, jobs[id]? = some job → job.status = .running →
    ∃ started lease, job.startedAt = some started ∧ job.leaseExpiresAt = some lease ∧
      started < lease ∧ started ≤ now ∧
      ∀ w k, workers w = some k → k.claim.job = id → k.claim.startedAt ≤ started
  queued : ∀ id job, jobs[id]? = some job → job.status = .queued →
    ∀ w k, workers w = some k → k.claim.job = id → k.claim.startedAt < now
  apart : ∀ w k v l, workers w = some k → workers v = some l → k.claim.job = l.claim.job →
    k.claim.startedAt = l.claim.startedAt → w = v

section Rules
variable {now : Nat} {jobs : List FactsJob} {workers : Nat → Option Worker}

theorem update_cases {w v : Nat} {next : Option Worker} {l : Worker}
    (there : Function.update workers w next v = some l) :
    v = w ∧ next = some l ∨ v ≠ w ∧ workers v = some l := by
  by_cases own : v = w
  · subst own
    rw [Function.update_self] at there
    exact Or.inl ⟨rfl, there⟩
  · rw [Function.update_of_ne own] at there
    exact Or.inr ⟨own, there⟩

theorem ClaimsOk.start : ClaimsOk now [] fun _ => none where
  past _ _ none := nomatch none
  known _ _ none := nomatch none
  running _ _ none := nomatch none
  queued _ _ none := nomatch none
  apart _ _ _ _ none := nomatch none

theorem ClaimsOk.tick (ok : ClaimsOk now jobs workers) (elapsed : Nat) :
    ClaimsOk (now + elapsed) jobs workers where
  past w k here := Nat.le_add_right_of_le (ok.past w k here)
  known := ok.known
  running id job here running := by
    obtain ⟨started, lease, same, leased, before, passed, latest⟩ := ok.running id job here running
    exact ⟨started, lease, same, leased, before, Nat.le_add_right_of_le passed, latest⟩
  queued id job here queued w k working claimed :=
    Nat.lt_add_right elapsed (ok.queued id job here queued w k working claimed)
  apart := ok.apart

theorem ClaimsOk.moved {after : Nat → Option Worker} (ok : ClaimsOk now jobs workers)
    (same : ∀ w k, after w = some k → ∃ l, workers w = some l ∧ k.claim = l.claim) :
    ClaimsOk now jobs after where
  past w k here := by
    obtain ⟨l, before, claim⟩ := same w k here
    exact claim ▸ ok.past w l before
  known w k here := by
    obtain ⟨l, before, claim⟩ := same w k here
    exact claim ▸ ok.known w l before
  running id job here running := by
    obtain ⟨started, lease, began, leased, before, passed, latest⟩ := ok.running id job here running
    refine ⟨started, lease, began, leased, before, passed, fun w k working claimed => ?_⟩
    obtain ⟨l, was, claim⟩ := same w k working
    rw [claim] at claimed ⊢
    exact latest w l was claimed
  queued id job here queued w k working claimed := by
    obtain ⟨l, was, claim⟩ := same w k working
    rw [claim] at claimed ⊢
    exact ok.queued id job here queued w l was claimed
  apart w k v l working other sameJob sameTime := by
    obtain ⟨k', was, claim⟩ := same w k working
    obtain ⟨l', otherWas, otherClaim⟩ := same v l other
    rw [claim, otherClaim] at sameJob sameTime
    exact ok.apart w k' v l' was otherWas sameJob sameTime

theorem ClaimsOk.set {w : Nat} {k : Worker} {next : Option Worker} (ok : ClaimsOk now jobs workers)
    (working : workers w = some k) (same : ∀ l, next = some l → l.claim = k.claim) :
    ClaimsOk now jobs (Function.update workers w next) := by
  refine ok.moved fun v l here => ?_
  obtain ⟨rfl, own⟩ | ⟨_, was⟩ := update_cases here
  · exact ⟨k, working, same l own⟩
  · exact ⟨l, was, rfl⟩

theorem ClaimsOk.retired {after : List FactsJob} (ok : ClaimsOk now jobs workers)
    (longer : jobs.length ≤ after.length)
    (same : ∀ (id : Nat) job, after[id]? = some job → jobs[id]? = some job ∨ job.status.isTerminal = true) :
    ClaimsOk now after workers where
  past := ok.past
  known w k here := Nat.lt_of_lt_of_le (ok.known w k here) longer
  running id job here running := by
    obtain before | terminal := same id job here
    · exact ok.running id job before running
    · rw [running] at terminal
      contradiction
  queued id job here queued := by
    obtain before | terminal := same id job here
    · exact ok.queued id job before queued
    · rw [queued] at terminal
      contradiction
  apart := ok.apart

theorem ClaimsOk.complete (ok : ClaimsOk now jobs workers) (id claimed : Nat) (outcome : Outcome) :
    ClaimsOk now (completeJob now id claimed outcome jobs) workers := by
  refine ok.retired (by simp [completeJob]) fun i job here => ?_
  obtain same | ⟨_, before, _, _, rfl⟩ := getElem?_completeJob here
  · exact Or.inl same
  · exact Or.inr (completed_terminal outcome before)

theorem ClaimsOk.enqueueNow (ok : ClaimsOk now jobs workers) (kind : JobKind) :
    ClaimsOk now (enqueueNow now kind jobs) workers := by
  obtain same | added := enqueueNow_cases kind
  · rwa [same]
  rw [added]
  have old : ∀ id job, (jobs ++ [⟨kind, .queued, now, none, none, none, none, none⟩])[id]? = some job →
      jobs[id]? = some job ∨ id = jobs.length ∧ job.status = .queued := by
    intro id job here
    rw [List.getElem?_append] at here
    split at here
    · exact Or.inl here
    · obtain ⟨at_, rfl⟩ := List.getElem?_eq_some_iff.mp here
      simp only [List.length_cons, List.length_nil] at at_
      exact Or.inr ⟨by omega, by simp⟩
  constructor
  case past => exact ok.past
  case known =>
    intro w k here
    have := ok.known w k here
    simp only [List.length_append, List.length_cons, List.length_nil]
    omega
  case running =>
    intro id job here running
    obtain before | ⟨_, queued⟩ := old id job here
    · exact ok.running id job before running
    · rw [running] at queued
      contradiction
  case queued =>
    intro id job here queued w k working claimed
    obtain before | ⟨new, _⟩ := old id job here
    · exact ok.queued id job before queued w k working claimed
    · have := ok.known w k working
      omega
  case apart => exact ok.apart

theorem ClaimsOk.sweep (ok : ClaimsOk now jobs workers) :
    ClaimsOk now (sweepExpiredLeases now jobs) workers := by
  have old : ∀ (id : Nat) job, (sweepExpiredLeases now jobs)[id]? = some job →
      jobs[id]? = some job ∨ job.status = .queued ∧ ∃ before, jobs[id]? = some before ∧
        before.isExpired now = true := by
    intro id job here
    rw [sweepExpiredLeases, List.getElem?_map] at here
    obtain ⟨before, was, rfl⟩ := Option.map_eq_some_iff.mp here
    by_cases expired : before.isExpired now = true
    · rw [if_pos expired]
      exact Or.inr ⟨rfl, before, was, expired⟩
    · rw [if_neg expired]
      exact Or.inl was
  constructor
  case past => exact ok.past
  case known =>
    intro w k here
    rw [sweepExpiredLeases, List.length_map]
    exact ok.known w k here
  case running =>
    intro id job here running
    obtain before | ⟨queued, _⟩ := old id job here
    · exact ok.running id job before running
    · rw [running] at queued
      contradiction
  case queued =>
    intro id job here queued w k working claimed
    obtain before | ⟨_, before, was, expired⟩ := old id job here
    · exact ok.queued id job before queued w k working claimed
    · -- the lease had run out, and every claim of the row was made before it did
      simp only [FactsJob.isExpired, Bool.and_eq_true, decide_eq_true_eq] at expired
      obtain ⟨started, lease, _, leased, first, _, latest⟩ := ok.running id before was expired.1
      have over_ : lease < now := by simpa [leased] using expired.2
      have := latest w k working claimed
      omega
  case apart => exact ok.apart

theorem ClaimsOk.renew {leaseSeconds id : Nat} {after : List FactsJob} (ok : ClaimsOk now jobs workers)
    (positive : 0 < leaseSeconds) (renewed : renewJobLease now leaseSeconds id jobs = some after) :
    ClaimsOk now after workers := by
  have later : now < now + leaseSeconds * second :=
    Nat.lt_add_of_pos_right (Nat.mul_pos positive (by decide))
  simp only [renewJobLease, Option.ite_none_right_eq_some, Option.some.injEq] at renewed
  obtain ⟨_, rfl⟩ := renewed
  constructor
  case past => exact ok.past
  case known =>
    intro w k here
    rw [List.length_modify]
    exact ok.known w k here
  case running =>
    intro i job here running
    obtain ⟨before, was, rfl⟩ := getElem?_modify_some here
    by_cases own : id = i
    · simp only [own, if_true] at running ⊢
      obtain ⟨started, lease, began, _, _, passed, latest⟩ := ok.running i before was running
      exact ⟨started, _, began, rfl, Nat.lt_of_le_of_lt passed later, passed, latest⟩
    · simp only [own, if_false] at running ⊢
      exact ok.running i before was running
  case queued =>
    intro i job here queued
    obtain ⟨before, was, rfl⟩ := getElem?_modify_some here
    refine ok.queued i before was ?_
    split at queued <;> exact queued
  case apart => exact ok.apart

theorem ClaimsOk.claim {leaseSeconds id w : Nat} {skipped : List Nat} {after : List FactsJob}
    {k : Worker} (ok : ClaimsOk now jobs workers) (positive : 0 < leaseSeconds)
    (claimed : claimNextJob now leaseSeconds skipped id jobs = some after)
    (own : k.claim.job = id) (at_ : k.claim.startedAt = now) :
    ClaimsOk now after (Function.update workers w (some k)) := by
  simp only [claimNextJob, Option.ite_none_right_eq_some, Option.some.injEq] at claimed
  obtain ⟨can, rfl⟩ := claimed
  obtain ⟨job, here, queued⟩ := claimable_queued can
  have earlier := ok.queued id job here queued
  have cases_ : ∀ v l, Function.update workers w (some k) v = some l →
      (v = w ∧ l = k) ∨ (v ≠ w ∧ workers v = some l) := by
    intro v l working
    obtain ⟨rfl, mine⟩ | was := update_cases working
    · exact Or.inl ⟨rfl, (Option.some.inj mine).symm⟩
    · exact Or.inr was
  constructor
  case past =>
    intro v l working
    obtain ⟨_, rfl⟩ | ⟨_, was⟩ := cases_ v l working
    · exact at_.le
    · exact ok.past v l was
  case known =>
    intro v l working
    rw [List.length_modify]
    obtain ⟨_, rfl⟩ | ⟨_, was⟩ := cases_ v l working
    · exact own ▸ (List.getElem?_eq_some_iff.mp here).1
    · exact ok.known v l was
  case running =>
    intro i job' found running
    obtain ⟨before, was, rfl⟩ := getElem?_modify_some found
    by_cases same : id = i
    · subst same
      rw [if_pos rfl]
      refine ⟨now, _, rfl, rfl, Nat.lt_add_of_pos_right (Nat.mul_pos positive (by decide)), le_rfl, ?_⟩
      intro v l working mine
      obtain ⟨_, rfl⟩ | ⟨_, was'⟩ := cases_ v l working
      · exact at_.le
      · exact (earlier v l was' mine).le
    · simp only [same, if_false] at running ⊢
      obtain ⟨started, lease, began, leased, first, passed, latest⟩ := ok.running i before was running
      refine ⟨started, lease, began, leased, first, passed, fun v l working mine => ?_⟩
      obtain ⟨_, rfl⟩ | ⟨_, was'⟩ := cases_ v l working
      · exact absurd (own.symm.trans mine) same
      · exact latest v l was' mine
  case queued =>
    intro i job' found stays v l working mine
    obtain ⟨before, was, rfl⟩ := getElem?_modify_some found
    by_cases same : id = i
    · simp only [same, if_true, FactsJob.claimed] at stays
      contradiction
    · simp only [same, if_false] at stays
      obtain ⟨_, rfl⟩ | ⟨_, was'⟩ := cases_ v l working
      · exact absurd (own.symm.trans mine) same
      · exact ok.queued i before was stays v l was' mine
  case apart =>
    intro v l u m first second sameJob sameTime
    obtain ⟨rfl, rfl⟩ | ⟨_, was⟩ := cases_ v l first
    · obtain ⟨rfl, _⟩ | ⟨_, was'⟩ := cases_ u m second
      · rfl
      · have := earlier u m was' (sameJob.symm.trans own)
        omega
    · obtain ⟨rfl, rfl⟩ | ⟨_, was'⟩ := cases_ u m second
      · have := earlier v l was (sameJob.trans own)
        omega
      · exact ok.apart v l u m was was' sameJob sameTime

end Rules

def Worker.run (k : Worker) : Option Nat :=
  match k.phase with
  | .opened run | .passing run _ => some run
  | _ => none

/-- The job runs under the claim that the worker made of it. -/
def World.IsCurrent (s : World) (w id : Nat) : Prop :=
  ∃ k job, s.workers w = some k ∧ k.claim.job = id ∧ s.jobs[id]? = some job ∧
    job.isHeld k.claim.startedAt = true

section Act
variable {settings : PassSettings} {s t : World} {w : Nat} {k : Worker}

/-- How a worker goes on from `k`: under the same claim, with a run of its job, and past
the lock only if it holds it. -/
structure Follows (s t : World) (w : Nat) (k l : Worker) : Prop where
  claim : l.claim = k.claim
  run : ∀ i, l.run = some i → k.run = some i ∨ ∃ row, t.runs[i]? = some row ∧ row.jobId = k.claim.job
  lock : ∀ i stage, l.phase = .passing i stage →
    t.lock = some w ∨ (∃ earlier, k.phase = .passing i earlier) ∧ t.lock = s.lock

theorem Follows.idle {l : Worker} (claim : l.claim = k.claim) (none : l.run = none) :
    Follows s t w k l where
  claim := claim
  run i ran := by simp [none] at ran
  lock _ _ passing := by simp [Worker.run, passing] at none

theorem Follows.same {l : Worker} (claim : l.claim = k.claim) (phase : l.phase = k.phase)
    (lock : t.lock = s.lock) : Follows s t w k l where
  claim := claim
  run _ ran := Or.inl (by simpa [Worker.run, phase] using ran)
  lock _ stage passing := Or.inr ⟨⟨stage, phase ▸ passing⟩, lock⟩

theorem Follows.advanced {run : Nat} {earlier stage : Stage} (passing : k.phase = .passing run earlier)
    (lock : t.lock = s.lock) : Follows s t w k { k with phase := .passing run stage } where
  claim := rfl
  run i ran := Or.inl (by simpa [Worker.run, passing] using ran)
  lock _ _ same := by
    cases same
    exact Or.inr ⟨⟨earlier, passing⟩, lock⟩

theorem World.Acts.worker (acts : s.Acts settings w k t) (working : s.workers w = some k) :
    t.now = s.now ∧ ∃ next, t.workers = Function.update s.workers w next ∧
      ∀ l, next = some l → Follows s t w k l := by
  cases acts with
  | renewed =>
    exact ⟨rfl, some k, by rw [← working, Function.update_eq_self], fun l same => by
      cases same
      exact .same rfl rfl rfl⟩
  | lost =>
    exact ⟨rfl, _, rfl, fun l same => by
      cases same
      exact .same rfl rfl rfl⟩
  | @resumed run _ found =>
    refine ⟨rfl, _, rfl, fun l same => ?_⟩
    cases same
    obtain ⟨row, here, isOpen⟩ := (Option.any_eq_true _ _).mp found
    simp only [CrawlRun.isOpen, Bool.and_eq_true, decide_eq_true_eq] at isOpen
    refine ⟨rfl, fun i ran => ?_, nofun⟩
    cases ran
    exact Or.inr ⟨row, here, isOpen.1⟩
  | opened =>
    refine ⟨rfl, _, rfl, fun l same => ?_⟩
    cases same
    refine ⟨rfl, fun i ran => ?_, nofun⟩
    cases ran
    exact Or.inr ⟨openedRun s.now k.claim.job, by simp, rfl⟩
  | locked opened =>
    refine ⟨rfl, _, rfl, fun l same => ?_⟩
    cases same
    exact ⟨rfl, fun i ran => Or.inl (by simpa [Worker.run, opened] using ran), fun _ _ _ => Or.inl rfl⟩
  | looked slugs entered =>
    exact ⟨rfl, _, rfl, fun l same => by
      cases same
      exact .advanced entered rfl⟩
  | touched looked =>
    exact ⟨rfl, _, rfl, fun l same => by
      cases same
      exact .advanced looked rfl⟩
  | inserted touched =>
    exact ⟨rfl, _, rfl, fun l same => by
      cases same
      exact .advanced touched rfl⟩
  | cleaned => exact ⟨rfl, none, rfl, nofun⟩
  | left => exact ⟨rfl, none, rfl, nofun⟩
  | _ =>
    exact ⟨rfl, _, rfl, fun l same => by
      cases same
      exact .idle rfl rfl⟩

theorem World.Acts.jobs (acts : s.Acts settings w k t) : t.jobs = s.jobs ∨
    renewJobLease s.now settings.leaseSeconds k.claim.job s.jobs = some t.jobs ∨
    ∃ outcome, t.jobs = completeJob s.now k.claim.job k.claim.startedAt outcome s.jobs := by
  cases acts with
  | renewed renewed => exact Or.inr (Or.inl renewed)
  | contended => exact Or.inr (Or.inr ⟨_, rfl⟩)
  | finished => exact Or.inr (Or.inr ⟨_, rfl⟩)
  | aborted => exact Or.inr (Or.inr ⟨_, rfl⟩)
  | remapped => exact Or.inr (Or.inr ⟨_, rfl⟩)
  | cleaned found => exact Or.inr (Or.inr ⟨_, markJobCrashed_jobs ..⟩)
  | _ => exact Or.inl rfl

theorem World.Acts.runs (acts : s.Acts settings w k t) : t.runs = s.runs ∨
    t.runs = s.runs ++ [openedRun s.now k.claim.job] ∨
    ∃ run status sitemapSlugs code message,
      t.runs = closeRun s.now run status sitemapSlugs code message s.runs ∧
      (k.phase = .opened run ∧ k.claim.pass = .remap ∨ (∃ stage, k.phase = .passing run stage) ∨
        s.runs[run]?.any (CrawlRun.isOpen k.claim.job) = true ∧
        s.jobs[k.claim.job]?.any (FactsJob.isHeld k.claim.startedAt) = true ∧
        ∃ code message, t.jobs =
          completeJob s.now k.claim.job k.claim.startedAt (.error code message) s.jobs) := by
  cases acts with
  | opened => exact Or.inr (Or.inl rfl)
  | finished failures discovered =>
    exact Or.inr (Or.inr ⟨_, _, _, _, _, rfl, Or.inr (Or.inl ⟨_, discovered⟩)⟩)
  | aborted fatal message passing =>
    exact Or.inr (Or.inr ⟨_, _, _, _, _, rfl, Or.inr (Or.inl ⟨_, passing⟩)⟩)
  | remapped opened remap => exact Or.inr (Or.inr ⟨_, _, _, _, _, rfl, Or.inl ⟨opened, remap⟩⟩)
  | @cleaned message found crashed selected =>
    have jobs := @markJobCrashed_jobs s.now k.claim.job s.jobs k.claim.startedAt found
      "worker_crashed" (some message) s.runs
    simp only [World.setWorker_runs, World.setWorker_jobs]
    by_cases held : s.jobs[k.claim.job]?.any (FactsJob.isHeld k.claim.startedAt) = true
    · cases found with
      | none => exact Or.inl (by simp only [markJobCrashed, held, if_true])
      | some run =>
        refine Or.inr (Or.inr ⟨run, .failed, none, some "worker_crashed", some message, ?_,
          Or.inr (Or.inr ⟨selected, held, _, _, jobs⟩)⟩)
        simp only [markJobCrashed, held, if_true]
    · exact Or.inl (by simp only [markJobCrashed, held]; rfl)
  | _ => exact Or.inl rfl

end Act

/-- A row of a run stays what it was, but for the close of an open one. -/
structure RunsKept (before after : List CrawlRun) : Prop where
  row : ∀ (i : Nat) run, before[i]? = some run → ∃ run', after[i]? = some run' ∧ run'.jobId = run.jobId
  closed : ∀ (i : Nat) run, before[i]? = some run → run.status ≠ .running → after[i]? = some run

theorem RunsKept.refl (runs : List CrawlRun) : RunsKept runs runs where
  row _ run here := ⟨run, here, rfl⟩
  closed _ _ here _ := here

theorem RunsKept.append (runs added : List CrawlRun) : RunsKept runs (runs ++ added) where
  row i run here := by
    obtain ⟨inside, _⟩ := List.getElem?_eq_some_iff.mp here
    exact ⟨run, by rw [List.getElem?_append_left inside, here], rfl⟩
  closed i run here _ := by
    obtain ⟨inside, _⟩ := List.getElem?_eq_some_iff.mp here
    rw [List.getElem?_append_left inside, here]

theorem RunsKept.close (now run : Nat) (status : RunStatus) (sitemapSlugs : Option Nat)
    (code message : Option String) (runs : List CrawlRun) :
    RunsKept runs (closeRun now run status sitemapSlugs code message runs) where
  row i row here := by
    refine ⟨_, by rw [closeRun, List.getElem?_modify, here]; rfl, ?_⟩
    by_cases own : run = i
    · simp only [own, if_true]
      split <;> rfl
    · simp only [own, if_false]
  closed i row here closed := by
    rw [closeRun, List.getElem?_modify, here]
    simp [closed]

/-- What holds of the workers and the rows in every reachable state. -/
structure World.Ok (s : World) : Prop where
  claims : ClaimsOk s.now s.jobs s.workers
  run : ∀ w k i, s.workers w = some k → k.run = some i →
    ∃ row, s.runs[i]? = some row ∧ row.jobId = k.claim.job
  lock : ∀ w k i stage, s.workers w = some k → k.phase = .passing i stage → s.lock = some w

section Steps
variable {settings : PassSettings} {s t : World} {w : Nat} {k : Worker}

theorem World.Acts.runsKept (acts : s.Acts settings w k t) : RunsKept s.runs t.runs := by
  obtain same | opened | ⟨run, status, sitemapSlugs, code, message, closed, _⟩ := acts.runs
  · exact same ▸ .refl _
  · exact opened ▸ .append _ _
  · exact closed ▸ .close ..

theorem step_runsKept {a : Action} (stepped : step settings s a = some t) : RunsKept s.runs t.runs := by
  cases a with
  | act w move =>
    obtain ⟨k, _, acted⟩ := Option.bind_eq_some_iff.mp stepped
    exact (World.acts acted).runsKept
  | syncCrosswalk slugs =>
    obtain ⟨schools, _, rfl⟩ := Option.map_eq_some_iff.mp stepped
    exact .refl _
  | claim w skipped id asked =>
    simp only [step, World.claim] at stepped
    split at stepped
    · obtain ⟨jobs, _, rfl⟩ := Option.map_eq_some_iff.mp stepped
      exact .refl _
    · contradiction
  | _ =>
    cases stepped
    exact .refl _

theorem World.Ok.start (schools : List ListedSchool) : (start schools).Ok where
  claims := .start
  run _ _ _ none := nomatch none
  lock _ _ _ _ none := nomatch none

theorem World.Acts.lock_other (acts : s.Acts settings w k t) {v : Nat} (other : v ≠ w)
    (held : s.lock = some v) : t.lock = some v := by
  have kept : (s.unlock w).lock = some v := by simp [World.unlock, held, other]
  cases acts with
  | locked _ _ free => simp [free] at held
  | crashed => exact kept
  | left => exact kept
  | _ => exact held

theorem World.Ok.acts (ok : s.Ok) (working : s.workers w = some k) (acts : s.Acts settings w k t) :
    t.Ok := by
  obtain ⟨now, next, workers, follows⟩ := acts.worker working
  have cases_ : ∀ v l, t.workers v = some l →
      v = w ∧ Follows s t w k l ∨ v ≠ w ∧ s.workers v = some l := by
    intro v l there
    rw [workers] at there
    obtain ⟨rfl, own⟩ | was := update_cases there
    · exact Or.inl ⟨rfl, follows l own⟩
    · exact Or.inr was
  have rows : ∀ (i job : Nat), (∃ row, s.runs[i]? = some row ∧ row.jobId = job) →
      ∃ row, t.runs[i]? = some row ∧ row.jobId = job := by
    rintro i job ⟨row, here, rfl⟩
    exact acts.runsKept.row i row here
  constructor
  case claims =>
    rw [now, workers]
    refine ClaimsOk.set ?_ working fun l same => (follows l same).claim
    obtain same | renewed | ⟨outcome, completed⟩ := acts.jobs
    · exact same ▸ ok.claims
    · exact ok.claims.renew settings.leaseSeconds_pos renewed
    · exact completed ▸ ok.claims.complete ..
  case run =>
    intro v l i there ran
    obtain ⟨rfl, follows⟩ | ⟨_, was⟩ := cases_ v l there
    · rw [follows.claim]
      obtain before | after := follows.run i ran
      · exact rows i _ (ok.run v k i working before)
      · exact after
    · exact rows i _ (ok.run v l i was ran)
  case lock =>
    intro v l i stage there passing
    obtain ⟨rfl, follows⟩ | ⟨other, was⟩ := cases_ v l there
    · obtain taken | ⟨⟨earlier, before⟩, same⟩ := follows.lock i stage passing
      · exact taken
      · exact same.trans (ok.lock v k i earlier working before)
    · exact acts.lock_other other (ok.lock v l i stage was passing)

theorem World.Ok.step {a : Action} (ok : s.Ok) (stepped : step settings s a = some t) : t.Ok := by
  cases a with
  | tick elapsed =>
    cases stepped
    exact { ok with claims := ok.claims.tick elapsed }
  | enqueueNow kind =>
    cases stepped
    exact { ok with claims := ok.claims.enqueueNow kind }
  | enqueueDailyPass =>
    cases stepped
    refine { ok with claims := ?_ }
    change ClaimsOk s.now (enqueueDailyPass s.now settings.intervalHours s.runs s.jobs) s.workers
    obtain same | enqueued := @enqueueDailyPass_cases s.now s.jobs settings.intervalHours s.runs
    · rw [same]
      exact ok.claims
    · rw [enqueued]
      exact ok.claims.enqueueNow .crawlPass
  | sweep =>
    cases stepped
    exact { ok with claims := ok.claims.sweep }
  | syncCrosswalk slugs =>
    obtain ⟨schools, _, rfl⟩ := Option.map_eq_some_iff.mp stepped
    exact { ok with }
  | claim w skipped id asked =>
    simp only [Passes.step, World.claim] at stepped
    split at stepped
    next job idle here =>
      obtain ⟨jobs, claimed, rfl⟩ := Option.map_eq_some_iff.mp stepped
      constructor
      case claims => exact ok.claims.claim settings.leaseSeconds_pos claimed rfl rfl
      case run =>
        intro v l i there ran
        obtain ⟨_, own⟩ | ⟨_, was⟩ := update_cases there
        · cases own
          contradiction
        · exact ok.run v l i was ran
      case lock =>
        intro v l i stage there passing
        obtain ⟨_, own⟩ | ⟨_, was⟩ := update_cases there
        · cases own
          contradiction
        · exact ok.lock v l i stage was passing
    next => contradiction
  | act w move =>
    obtain ⟨k, working, acted⟩ := Option.bind_eq_some_iff.mp stepped
    exact ok.acts working (World.acts acted)

/-- What a step may do to a job: nothing, a change of its live row, or the completion of
the claim that the stepping worker holds. -/
inductive JobMoves (s : World) (a : Action) (id : Nat) (job : FactsJob) : FactsJob → Prop where
  | same : JobMoves s a id job job
  | live {after : FactsJob} (was : job.status.isTerminal = false)
      (still : after.status.isTerminal = false) : JobMoves s a id job after
  | completed {w : Nat} {k : Worker} {move : Move} (outcome : Outcome) (acting : a = .act w move)
      (working : s.workers w = some k) (own : k.claim.job = id)
      (held : job.isHeld k.claim.startedAt = true) :
    JobMoves s a id job (job.completed s.now outcome)

theorem step_job {a : Action} (stepped : step settings s a = some t) {id : Nat} {job : FactsJob}
    (here : s.jobs[id]? = some job) : ∃ after, t.jobs[id]? = some after ∧ JobMoves s a id job after := by
  have inside : id < s.jobs.length := (List.getElem?_eq_some_iff.mp here).1
  have enqueued : ∀ (kind : JobKind), (enqueueNow s.now kind s.jobs)[id]? = some job := by
    intro kind
    obtain same | added := @enqueueNow_cases s.now s.jobs kind
    · rw [same, here]
    · rw [added, List.getElem?_append_left inside, here]
  cases a with
  | tick =>
    cases stepped
    exact ⟨job, here, .same⟩
  | enqueueNow kind =>
    cases stepped
    exact ⟨job, enqueued kind, .same⟩
  | enqueueDailyPass =>
    cases stepped
    refine ⟨job, ?_, .same⟩
    change (enqueueDailyPass s.now settings.intervalHours s.runs s.jobs)[id]? = some job
    obtain same | added := @enqueueDailyPass_cases s.now s.jobs settings.intervalHours s.runs
    · rw [same, here]
    · rw [added, enqueued]
  | sweep =>
    cases stepped
    refine ⟨_, by simp only [sweepExpiredLeases, List.getElem?_map, here]; rfl, ?_⟩
    dsimp only
    split
    next expired =>
      simp only [FactsJob.isExpired, Bool.and_eq_true, decide_eq_true_eq] at expired
      exact .live (by rw [expired.1]; rfl) rfl
    next => exact .same
  | syncCrosswalk slugs =>
    obtain ⟨schools, _, rfl⟩ := Option.map_eq_some_iff.mp stepped
    exact ⟨job, here, .same⟩
  | claim w skipped i asked =>
    simp only [step, World.claim] at stepped
    split at stepped
    next row idle there =>
      obtain ⟨jobs, claimed, rfl⟩ := Option.map_eq_some_iff.mp stepped
      simp only [claimNextJob, Option.ite_none_right_eq_some, Option.some.injEq] at claimed
      obtain ⟨can, rfl⟩ := claimed
      obtain ⟨queued, found, waits⟩ := claimable_queued can
      refine ⟨_, by simp only [World.setWorker_jobs, List.getElem?_modify, here]; rfl, ?_⟩
      by_cases own : i = id
      · subst own
        cases found.symm.trans here
        simp only [if_true]
        exact .live (by rw [waits]; rfl) rfl
      · simp only [own, if_false]
        exact .same
    next => contradiction
  | act w move =>
    obtain ⟨k, working, acted⟩ := Option.bind_eq_some_iff.mp stepped
    obtain same | renewed | ⟨outcome, completed⟩ := (World.acts acted).jobs
    · exact ⟨job, same ▸ here, .same⟩
    · simp only [renewJobLease, Option.ite_none_right_eq_some, Option.some.injEq] at renewed
      obtain ⟨running, renewed⟩ := renewed
      obtain ⟨row, found, runs⟩ := (Option.any_eq_true _ _).mp running
      refine ⟨_, by rw [← renewed, List.getElem?_modify, here]; rfl, ?_⟩
      by_cases own : k.claim.job = id
      · subst own
        cases found.symm.trans here
        simp only [decide_eq_true_eq] at runs
        simp only [if_true]
        exact .live (by rw [runs]; rfl) (by simp [runs, JobStatus.isTerminal])
      · simp only [own, if_false]
        exact .same
    · refine ⟨_, by rw [completed, completeJob, List.getElem?_modify, here]; rfl, ?_⟩
      by_cases own : k.claim.job = id
      · simp only [own, if_true]
        split
        next held => exact .completed outcome rfl working own held
        next => exact .same
      · simp only [own, if_false]
        exact .same

theorem reachable_ok {schools : List ListedSchool}
    (reached : Transition.Reachable (step settings) (start schools) s) : s.Ok :=
  reached.invariant (fun ok stepped => ok.step stepped) (.start schools)

theorem World.Ok.current_unique (ok : s.Ok) {v id : Nat} (one : s.IsCurrent w id)
    (other : s.IsCurrent v id) : v = w := by
  obtain ⟨k, job, working, own, here, held⟩ := one
  obtain ⟨l, job', working', own', here', held'⟩ := other
  cases here.symm.trans here'
  obtain ⟨_, started⟩ := isHeld_iff.mp held
  obtain ⟨_, started'⟩ := isHeld_iff.mp held'
  exact ok.claims.apart v l w k working' working (own'.trans own.symm)
    (Option.some.inj (started'.symm.trans started))

theorem World.not_current {id : Nat} (idle : s.jobs[id]?.map FactsJob.status ≠ some .running) :
    ¬ s.IsCurrent w id := by
  rintro ⟨k, job, _, _, here, held⟩
  exact idle (by rw [here, Option.map_some, (isHeld_iff.mp held).1])

theorem step_closes {a : Action} (ok : s.Ok) (stepped : step settings s a = some t) {i : Nat}
    {run run' : CrawlRun} (here : s.runs[i]? = some run) (there : t.runs[i]? = some run')
    (running : run.status = .running) (closed : run'.status ≠ .running) :
    ∃ w k move, a = .act w move ∧ s.workers w = some k ∧ run.jobId = k.claim.job ∧
      (k.run = some i ∧ (k.claim.pass = .remap ∨ s.lock = some w) ∨
        s.IsCurrent w run.jobId ∧ ∃ job, t.jobs[run.jobId]? = some job ∧ job.status = .error) := by
  have unchanged : ¬ t.runs = s.runs := by
    intro same
    rw [same, here] at there
    cases there
    exact closed running
  cases a with
  | act w move =>
    obtain ⟨k, working, acted⟩ := Option.bind_eq_some_iff.mp stepped
    refine ⟨w, k, move, rfl, working, ?_⟩
    obtain same | opened | ⟨j, status, sitemapSlugs, code, message, rewritten, right⟩ :=
      (World.acts acted).runs
    · exact absurd same unchanged
    · rw [opened, List.getElem?_append_left (List.getElem?_eq_some_iff.mp here).1, here] at there
      cases there
      exact absurd running closed
    have own : i = j := by
      rw [rewritten] at there
      obtain was | ⟨own, _⟩ := getElem?_closeRun there
      · cases was.symm.trans here
        exact absurd running closed
      · exact own
    subst own
    have job : ∀ l : Worker, s.workers w = some l → l.run = some i → run.jobId = l.claim.job := by
      intro l there ran
      obtain ⟨row, found, mine⟩ := ok.run w l i there ran
      cases found.symm.trans here
      exact mine
    obtain ⟨opened, remap⟩ | ⟨stage, passing⟩ | ⟨selected, held, code, message, completed⟩ := right
    · have ran : k.run = some i := by simp [Worker.run, opened]
      exact ⟨job k working ran, Or.inl ⟨ran, Or.inl remap⟩⟩
    · have ran : k.run = some i := by simp [Worker.run, passing]
      exact ⟨job k working ran, Or.inl ⟨ran, Or.inr (ok.lock w k i stage working passing)⟩⟩
    · obtain ⟨row, found, isOpen⟩ := (Option.any_eq_true _ _).mp selected
      cases found.symm.trans here
      simp only [CrawlRun.isOpen, Bool.and_eq_true, decide_eq_true_eq] at isOpen
      obtain ⟨row, mine, held⟩ := (Option.any_eq_true _ _).mp held
      refine ⟨isOpen.1, Or.inr ⟨⟨k, row, working, isOpen.1.symm, isOpen.1 ▸ mine, held⟩, ?_⟩⟩
      refine ⟨row.completed s.now (.error code message), ?_, rfl⟩
      rw [completed, completeJob, isOpen.1, List.getElem?_modify, mine]
      simp [held]
  | syncCrosswalk slugs =>
    obtain ⟨schools, _, rfl⟩ := Option.map_eq_some_iff.mp stepped
    exact absurd rfl unchanged
  | claim w skipped id asked =>
    simp only [step, World.claim] at stepped
    split at stepped
    · obtain ⟨jobs, _, rfl⟩ := Option.map_eq_some_iff.mp stepped
      exact absurd rfl unchanged
    · contradiction
  | _ =>
    cases stepped
    exact absurd rfl unchanged

theorem World.Acts.contended_writes (acts : s.Acts settings w k t) (contended : k.phase = .contended) :
    t.runs = s.runs ∧ ∀ id, id ≠ k.claim.job → t.jobs[id]? = s.jobs[id]? := by
  constructor
  · cases acts with
    | opened unopened => simp [contended] at unopened
    | finished _ discovered => simp [contended] at discovered
    | aborted _ _ passing => simp [contended] at passing
    | remapped opened => simp [contended] at opened
    | cleaned _ crashed => simp [contended] at crashed
    | _ => rfl
  · intro id other
    obtain same | renewed | ⟨outcome, completed⟩ := acts.jobs
    · rw [same]
    · simp only [renewJobLease, Option.ite_none_right_eq_some, Option.some.injEq] at renewed
      rw [← renewed.2, List.getElem?_modify_ne _ _ (Ne.symm other)]
    · rw [completed, completeJob, List.getElem?_modify_ne _ _ (Ne.symm other)]

end Steps

/-- A job is settled by its current claim alone, and once; an open run is closed once, by a
worker whose pass goes with it or in the clean-up of the current claim; the worker that
misses the lock writes to no run and to no job but its own. -/
theorem settled_by_current_claim (settings : PassSettings) (schools : List ListedSchool)
    {s t : World} {a : Action} (reached : Transition.Reachable (step settings) (start schools) s)
    (stepped : step settings s a = some t) :
    (∀ (id : Nat) job, s.jobs[id]? = some job → ∃ after, t.jobs[id]? = some after ∧
      (job.status.isTerminal = true → after = job) ∧
      (job.status.isTerminal = false → after.status.isTerminal = true →
        ∃ w move, a = .act w move ∧ ∀ v, s.IsCurrent v id ↔ v = w)) ∧
    (∀ (i : Nat) run, s.runs[i]? = some run → run.status ≠ .running → t.runs[i]? = some run) ∧
    (∀ (i : Nat) run run', s.runs[i]? = some run → t.runs[i]? = some run' → run.status = .running →
      run'.status ≠ .running →
      ∃ w k move, a = .act w move ∧ s.workers w = some k ∧ run.jobId = k.claim.job ∧
        (k.run = some i ∧ (k.claim.pass = .remap ∨ s.lock = some w) ∨
          s.IsCurrent w run.jobId ∧ ∃ job, t.jobs[run.jobId]? = some job ∧ job.status = .error)) ∧
    (∀ w k move, a = .act w move → s.workers w = some k → k.phase = .contended →
      t.runs = s.runs ∧ ∀ id, id ≠ k.claim.job → t.jobs[id]? = s.jobs[id]?) := by
  have ok := reachable_ok reached
  refine ⟨?_, ?_, ?_, ?_⟩
  · intro id job here
    obtain ⟨after, there, moves⟩ := step_job stepped here
    refine ⟨after, there, fun terminal => ?_, fun live terminal => ?_⟩
    · cases moves with
      | same => rfl
      | live was => simp [terminal] at was
      | completed outcome _ _ _ held => simp [(isHeld_iff.mp held).1, JobStatus.isTerminal] at terminal
    · cases moves with
      | same => simp [live] at terminal
      | live _ still => simp [terminal] at still
      | @completed w k move outcome acting working own held =>
        have current : s.IsCurrent w id := ⟨k, job, working, own, here, held⟩
        refine ⟨w, move, acting, fun v => ⟨ok.current_unique current, ?_⟩⟩
        rintro rfl
        exact current
  · exact (step_runsKept stepped).closed
  · intro i run run' here there running closed
    exact step_closes ok stepped here there running closed
  · rintro w k move rfl working contended
    obtain ⟨k', working', acted⟩ := Option.bind_eq_some_iff.mp stepped
    cases working.symm.trans working'
    exact (World.acts acted).contended_writes contended

def nightly : PassSettings where
  leaseSeconds := 180
  leaseSeconds_pos := by decide
  intervalHours := 24
  limits := ⟨1 / 10, 50⟩
  lower := id

/-- The lease of the first worker runs out in its pass, and a second one takes the job. -/
def sweptPass : List Action :=
  [.enqueueNow .crawlPass, .claim 0 [] 0 none, .act 0 (.selectRun none), .act 0 .insertRun,
    .act 0 .tryLock, .act 0 (.look []), .act 0 .touch, .act 0 .insert, .tick (180 * second + 1),
    .sweep, .claim 1 [] 0 none, .act 1 (.selectRun (some 0)), .act 1 .tryLock]

theorem settled_by_current_claim_contended :
    ∃ s t, Transition.run (step nightly) (start []) sweptPass = some s ∧
      step nightly s (.act 1 .contend) = some t ∧
      (t.jobs.map FactsJob.status, t.runs.map CrawlRun.status) = ([.error], [.running]) ∧
      ∀ w k move, Action.act 1 .contend = .act w move → s.workers w = some k → k.phase = .contended →
        t.runs = s.runs ∧ ∀ id, id ≠ k.claim.job → t.jobs[id]? = s.jobs[id]? :=
  ⟨_, _, rfl, rfl, rfl,
    (settled_by_current_claim nightly [] ⟨sweptPass, rfl⟩ rfl).2.2.2⟩

/-- The first worker still completes the pass and closes the run, when its claim is current
no more, and the job is left the error that the second one gave it. -/
theorem completed_pass_left_error :
    ∃ s t, Transition.Reachable (step nightly) (start []) s ∧
      step nightly s (.act 0 (.finish false)) = some t ∧ ¬ s.IsCurrent 0 0 ∧
      (s.jobs.map FactsJob.status, s.runs.map CrawlRun.status) = ([.error], [.running]) ∧
      (t.jobs.map FactsJob.status, t.runs.map CrawlRun.status) = ([.error], [.succeeded]) := by
  refine ⟨_, _, ⟨sweptPass ++ [.act 1 .contend], rfl⟩, rfl, ?_, rfl, rfl⟩
  exact World.not_current (by decide +kernel)

end Counselle.Facts.Passes
