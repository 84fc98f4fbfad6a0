import Mathlib.Data.List.Basic

/-! The rows of `facts_jobs` and `crawl_runs` and the statements that write them. A row's
id is its position, and times count the microseconds of the database's clock. -/
namespace Counselle.Facts

inductive JobKind where
  | crawlPass
  | remap
  deriving DecidableEq

inductive JobStatus where
  | queued
  | running
  | done
  | error
  deriving DecidableEq

def JobStatus.isTerminal : JobStatus → Bool
  | .queued | .running => false
  | .done | .error => true

structure FactsJob where
  kind : JobKind
  status : JobStatus
  queuedAt : Nat
  startedAt : Option Nat
  finishedAt : Option Nat
  leaseExpiresAt : Option Nat
  errorCode : Option String
  errorMessage : Option String
  deriving DecidableEq

/-- `partly` is stored as `'partial'`. -/
inductive RunStatus where
  | running
  | succeeded
  | partly
  | failed
  | aborted
  deriving DecidableEq

structure CrawlRun where
  jobId : Nat
  status : RunStatus
  startedAt : Nat
  finishedAt : Option Nat
  sitemapSlugs : Option Nat
  errorCode : Option String
  errorMessage : Option String
  deriving DecidableEq

def second : Nat := 1000000

def hour : Nat := 3600 * second

section Statements
variable (now : Nat)

def FactsJob.isLive (kind : JobKind) (job : FactsJob) : Bool :=
  job.kind = kind && !job.status.isTerminal

def enqueueNow (kind : JobKind) (jobs : List FactsJob) : List FactsJob :=
  if jobs.any (FactsJob.isLive kind) then jobs
  else jobs ++ [⟨kind, .queued, now, none, none, none, none, none⟩]

def lastFinished (runs : List CrawlRun) : Nat := (runs.filterMap CrawlRun.finishedAt).foldl max 0

def enqueueDailyPass (intervalHours : Nat) (runs : List CrawlRun) (jobs : List FactsJob) :
    List FactsJob :=
  if lastFinished runs + intervalHours * hour < now then enqueueNow now .crawlPass jobs else jobs

/-- The rows that `ORDER BY queued_at FOR UPDATE SKIP LOCKED LIMIT 1` may pick, other
transactions holding the rows `skipped`. -/
def claimable (jobs : List FactsJob) (skipped : List Nat) (id : Nat) : Bool :=
  jobs[id]?.any fun job => job.status = .queued && !skipped.contains id &&
    jobs.zipIdx.all fun (other, i) =>
      other.status != .queued || skipped.contains i || job.queuedAt ≤ other.queuedAt

def FactsJob.claimed (leaseSeconds : Nat) (job : FactsJob) : FactsJob :=
  { job with
    status := .running
    startedAt := some now
    leaseExpiresAt := some (now + leaseSeconds * second) }

def claimNextJob (leaseSeconds : Nat) (skipped : List Nat) (id : Nat) (jobs : List FactsJob) :
    Option (List FactsJob) :=
  if claimable jobs skipped id then some (jobs.modify id (FactsJob.claimed now leaseSeconds)) else none

/-- `none` is the `LeaseLostError`. -/
def renewJobLease (leaseSeconds id : Nat) (jobs : List FactsJob) : Option (List FactsJob) :=
  if jobs[id]?.any fun job => job.status = .running then
    some (jobs.modify id fun job => { job with leaseExpiresAt := some (now + leaseSeconds * second) })
  else none

def FactsJob.isExpired (job : FactsJob) : Bool :=
  job.status = .running && job.leaseExpiresAt.any (· < now)

def sweepExpiredLeases (jobs : List FactsJob) : List FactsJob :=
  jobs.map fun job =>
    if job.isExpired now then { job with status := .queued, startedAt := none, leaseExpiresAt := none }
    else job

/-- The fence of `complete_job`: the row still runs under the claim made at `claimed`. -/
def FactsJob.isHeld (claimed : Nat) (job : FactsJob) : Bool :=
  job.status = .running && job.startedAt = some claimed

inductive Outcome where
  | done
  | error (code : String) (message : Option String)

def FactsJob.completed (outcome : Outcome) (job : FactsJob) : FactsJob :=
  match outcome with
  | .done => { job with
      status := .done, finishedAt := some now, errorCode := none, errorMessage := none }
  | .error code message => { job with
      status := .error, finishedAt := some now, errorCode := some code, errorMessage := message }

def completeJob (id claimed : Nat) (outcome : Outcome) (jobs : List FactsJob) : List FactsJob :=
  jobs.modify id fun job => if job.isHeld claimed then job.completed now outcome else job

def CrawlRun.isOpen (jobId : Nat) (run : CrawlRun) : Bool :=
  run.jobId = jobId && run.status = .running

/-- `found` is a row that a `fetchrow` of the job's running runs may return. -/
def selectsOpenRun (runs : List CrawlRun) (jobId : Nat) (found : Option Nat) : Bool :=
  match found with
  | some id => runs[id]?.any (CrawlRun.isOpen jobId)
  | none => !runs.any (CrawlRun.isOpen jobId)

def openedRun (jobId : Nat) : CrawlRun := ⟨jobId, .running, now, none, none, none, none⟩

def CrawlRun.closed (status : RunStatus) (sitemapSlugs : Option Nat)
    (errorCode errorMessage : Option String) (run : CrawlRun) : CrawlRun :=
  { run with status, finishedAt := some now, sitemapSlugs, errorCode, errorMessage }

def closeRun (id : Nat) (status : RunStatus) (sitemapSlugs : Option Nat)
    (errorCode errorMessage : Option String) (runs : List CrawlRun) : List CrawlRun :=
  runs.modify id fun run =>
    if run.status = .running then run.closed now status sitemapSlugs errorCode errorMessage else run

/-- The crash clean-up's transaction; `found` is the run that its select returned. -/
def markJobCrashed (id claimed : Nat) (found : Option Nat) (code : String) (message : Option String)
    (jobs : List FactsJob) (runs : List CrawlRun) : List FactsJob × List CrawlRun :=
  if jobs[id]?.any (FactsJob.isHeld claimed) then
    (completeJob now id claimed (.error code message) jobs,
      match found with
      | some run => closeRun now run .failed none (some code) message runs
      | none => runs)
  else (jobs, runs)

end Statements

section Rows
variable {now id i : Nat} {jobs : List FactsJob}

theorem getElem?_modify_some {α : Type} {rows : List α} {change : α → α} {after : α}
    (found : (rows.modify id change)[i]? = some after) :
    ∃ before, rows[i]? = some before ∧ after = if id = i then change before else before := by
  rw [List.getElem?_modify] at found
  obtain ⟨before, here, rfl⟩ := Option.map_eq_some_iff.mp found
  refine ⟨before, here, ?_⟩
  split <;> rfl

theorem enqueueNow_cases (kind : JobKind) : enqueueNow now kind jobs = jobs ∨
    enqueueNow now kind jobs = jobs ++ [⟨kind, .queued, now, none, none, none, none, none⟩] := by
  simp only [enqueueNow]
  split
  · exact Or.inl rfl
  · exact Or.inr rfl

theorem enqueueDailyPass_cases (intervalHours : Nat) (runs : List CrawlRun) :
    enqueueDailyPass now intervalHours runs jobs = jobs ∨
      enqueueDailyPass now intervalHours runs jobs = enqueueNow now .crawlPass jobs := by
  simp only [enqueueDailyPass]
  split
  · exact Or.inr rfl
  · exact Or.inl rfl

theorem claimable_queued {skipped : List Nat} (can : claimable jobs skipped id = true) :
    ∃ job, jobs[id]? = some job ∧ job.status = .queued := by
  obtain ⟨job, here, chosen⟩ := (Option.any_eq_true _ _).mp can
  simp only [Bool.and_eq_true, decide_eq_true_eq] at chosen
  exact ⟨job, here, chosen.1.1⟩

theorem isHeld_iff {claimed : Nat} {job : FactsJob} :
    job.isHeld claimed = true ↔ job.status = .running ∧ job.startedAt = some claimed := by
  simp [FactsJob.isHeld]

theorem completed_terminal (outcome : Outcome) (job : FactsJob) :
    (job.completed now outcome).status.isTerminal = true := by
  cases outcome with
  | done => rfl
  | error code message => rfl

theorem getElem?_completeJob {claimed : Nat} {outcome : Outcome} {after : FactsJob}
    (found : (completeJob now id claimed outcome jobs)[i]? = some after) :
    jobs[i]? = some after ∨ i = id ∧ ∃ job, jobs[id]? = some job ∧ job.isHeld claimed = true ∧
      after = job.completed now outcome := by
  obtain ⟨before, here, rfl⟩ := getElem?_modify_some found
  by_cases held : id = i ∧ before.isHeld claimed = true
  · obtain ⟨rfl, held⟩ := held
    rw [if_pos rfl, if_pos held]
    exact Or.inr ⟨rfl, before, here, held, rfl⟩
  · left
    rw [here]
    split <;> simp_all

theorem completeJob_of_not_held {claimed : Nat} (outcome : Outcome)
    (lost : ¬ jobs[id]?.any (FactsJob.isHeld claimed) = true) :
    completeJob now id claimed outcome jobs = jobs := by
  apply List.ext_getElem?
  intro i
  rw [completeJob, List.getElem?_modify]
  cases here : jobs[i]? with
  | none => rfl
  | some job =>
    by_cases own : id = i
    · subst own
      have free : ¬ job.isHeld claimed = true := by simpa [here] using lost
      simp [free]
    · simp [own]

theorem markJobCrashed_jobs (claimed : Nat) (found : Option Nat) (code : String)
    (message : Option String) (runs : List CrawlRun) :
    (markJobCrashed now id claimed found code message jobs runs).1 =
      completeJob now id claimed (.error code message) jobs := by
  unfold markJobCrashed
  split
  next => rfl
  next lost => exact (completeJob_of_not_held _ lost).symm

theorem getElem?_closeRun {run : Nat} {status : RunStatus} {sitemapSlugs : Option Nat}
    {code message : Option String} {runs : List CrawlRun} {after : CrawlRun}
    (found : (closeRun now run status sitemapSlugs code message runs)[i]? = some after) :
    runs[i]? = some after ∨ i = run ∧ ∃ row, runs[run]? = some row ∧ row.status = .running ∧
      after = row.closed now status sitemapSlugs code message := by
  obtain ⟨before, here, rfl⟩ := getElem?_modify_some found
  by_cases closes : run = i ∧ before.status = .running
  · obtain ⟨rfl, running⟩ := closes
    rw [if_pos rfl, if_pos running]
    exact Or.inr ⟨rfl, before, here, running, rfl⟩
  · left
    rw [here]
    split <;> simp_all

end Rows

end Counselle.Facts
