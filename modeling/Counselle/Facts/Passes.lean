import Counselle.Transition
import Counselle.Facts.Jobs
import Counselle.Facts.Sitemap

/-! The workers of the facts queue over one database: pollers and command-line runs that
claim a job, take its crawl or remap pass and settle it. Every statement, and every
transaction, is one step, and the steps of different workers come in any order. The
advisory lock belongs to a worker until it leaves its pass. -/
namespace Counselle.Facts.Passes

structure PassSettings where
  leaseSeconds : Nat
  leaseSeconds_pos : 0 < leaseSeconds
  intervalHours : Nat
  limits : RetirementLimits
  /-- The `lower` of the database. -/
  lower : String → String

/-- What a worker has of its claim. `pass` is the pass it takes: a command-line run takes
the one it was asked for, whichever job was the oldest. -/
structure Claim where
  job : Nat
  startedAt : Nat
  pass : JobKind
  poller : Bool

/-- How far a crawl pass that holds the lock is with the sitemap. -/
inductive Stage where
  | entered
  | looked (slugs : List String) (previous : Option Nat)
  | touched (slugs : List String) (previous : Option Nat)
  | discovered (slugs : List String) (previous : Option Nat)

inductive Phase where
  | claimed
  | unopened
  | opened (run : Nat)
  | contended
  | passing (run : Nat) (stage : Stage)
  | settled
  | crashed (message : String)

structure Worker where
  claim : Claim
  phase : Phase
  keeper : Bool

structure World where
  now : Nat
  jobs : List FactsJob
  runs : List CrawlRun
  schools : List ListedSchool
  lock : Option Nat
  workers : Nat → Option Worker
  /-- The sitemaps of the completed discovery passes, latest first; nothing reads them. -/
  passes : List (List String)

inductive PassFatal where
  | buildIdRotationLimit
  | blocked
  | robotsDisallowed
  | allowedPathViolation

def PassFatal.errorCode : PassFatal → String
  | .buildIdRotationLimit => "build_id_rotation_limit"
  | .blocked => "blocked"
  | .robotsDisallowed => "robots_disallowed"
  | .allowedPathViolation => "allowed_path_violation"

/-- The steps of one worker. `found` is what the select of the job's open run returns. -/
inductive Move where
  | renew
  | selectRun (found : Option Nat)
  | insertRun
  | tryLock
  | contend
  | look (slugs : List String)
  | touch
  | insert
  | finish (failures : Bool)
  | abort (fatal : PassFatal) (message : String)
  | finishRemap
  | crash (message : String)
  | cleanUp (found : Option Nat)
  | leave

inductive Action where
  | tick (elapsed : Nat)
  | enqueueNow (kind : JobKind)
  | enqueueDailyPass
  | sweep
  | syncCrosswalk (slugs : List String)
  | claim (worker : Nat) (skipped : List Nat) (id : Nat) (asked : Option JobKind)
  | act (worker : Nat) (move : Move)

namespace World
variable (settings : PassSettings) (s : World) (w : Nat)

def setWorker (worker : Option Worker) : World :=
  { s with workers := Function.update s.workers w worker }

/-- The session of the worker gives the lock back, if it has it. -/
def unlock : World := { s with lock := if s.lock = some w then none else s.lock }

@[simp] theorem setWorker_now (k) : (s.setWorker w k).now = s.now := rfl
@[simp] theorem setWorker_jobs (k) : (s.setWorker w k).jobs = s.jobs := rfl
@[simp] theorem setWorker_runs (k) : (s.setWorker w k).runs = s.runs := rfl
@[simp] theorem setWorker_schools (k) : (s.setWorker w k).schools = s.schools := rfl
@[simp] theorem setWorker_lock (k) : (s.setWorker w k).lock = s.lock := rfl
@[simp] theorem setWorker_passes (k) : (s.setWorker w k).passes = s.passes := rfl
@[simp] theorem setWorker_workers (k) :
    (s.setWorker w k).workers = Function.update s.workers w k := rfl

@[simp] theorem unlock_now : (s.unlock w).now = s.now := rfl
@[simp] theorem unlock_jobs : (s.unlock w).jobs = s.jobs := rfl
@[simp] theorem unlock_runs : (s.unlock w).runs = s.runs := rfl
@[simp] theorem unlock_schools : (s.unlock w).schools = s.schools := rfl
@[simp] theorem unlock_workers : (s.unlock w).workers = s.workers := rfl
@[simp] theorem unlock_passes : (s.unlock w).passes = s.passes := rfl

/-- Of the runs with a sitemap other than the worker's own, the latest start. -/
def previousRunStartedAt (run : Nat) : Option Nat :=
  (s.runs.zipIdx.filterMap fun (other, i) =>
    if i ≠ run ∧ other.sitemapSlugs.isSome then some other.startedAt else none).max?

def claim (skipped : List Nat) (id : Nat) (asked : Option JobKind) : Option World :=
  match s.workers w, s.jobs[id]? with
  | none, some job =>
    (claimNextJob s.now settings.leaseSeconds skipped id s.jobs).map fun jobs =>
      { s with jobs }.setWorker w (some
        ⟨⟨id, s.now, asked.getD job.kind, asked.isNone⟩, .claimed, asked.isNone⟩)
  | _, _ => none

/-- `complete_job` for the worker's own claim. -/
def complete (claim : Claim) (outcome : Outcome) : World :=
  { s with jobs := completeJob s.now claim.job claim.startedAt outcome s.jobs }

def renew (k : Worker) : Option World :=
  if k.keeper then
    match renewJobLease s.now settings.leaseSeconds k.claim.job s.jobs with
    | some jobs => some { s with jobs }
    | none => some (s.setWorker w (some { k with keeper := false }))
  else none

/-- The rows after the retirement of a pass, which wants a pass before it. -/
def retired (previous : Option Nat) : Option (List ListedSchool) :=
  match previous with
  | some previous => retireAbsentSlugs settings.limits s.now previous s.schools
  | none => some s.schools

/-- The end of a crawl pass; a refused retirement fails the transaction, which is a `crash`. -/
def finish (k : Worker) (run : Nat) (slugs : List String) (previous : Option Nat) (failures : Bool) :
    Option World :=
  (s.retired settings previous).map fun schools =>
    ({ s with
        schools
        runs := closeRun s.now run (if failures then .partly else .succeeded) (some slugs.length)
          none none s.runs
        passes := slugs :: s.passes }.complete k.claim .done).setWorker w
      (some { k with phase := .settled })

def abort (k : Worker) (run : Nat) (fatal : PassFatal) (message : String) : World :=
  ({ s with
      runs := closeRun s.now run .aborted none (some fatal.errorCode) (some message) s.runs }.complete
    k.claim (.error fatal.errorCode (some message))).setWorker w (some { k with phase := .settled })

def finishRemap (k : Worker) (run : Nat) : World :=
  ({ s with runs := closeRun s.now run .succeeded none none none s.runs }.complete
    k.claim .done).setWorker w (some { k with phase := .settled })

/-- `mark_job_crashed`, which only the poller calls. -/
def cleanUp (k : Worker) (message : String) (found : Option Nat) : Option World :=
  if k.claim.poller ∧ selectsOpenRun s.runs k.claim.job found then
    let marked := markJobCrashed s.now k.claim.job k.claim.startedAt found "worker_crashed"
      (some message) s.jobs s.runs
    some ({ s with jobs := marked.1, runs := marked.2 }.setWorker w none)
  else none

/-- A crawl pass with the lock looks for the sitemap and the previous pass, and stamps the slugs. -/
def advance (k : Worker) (run : Nat) (stage : Stage) : World :=
  s.setWorker w (some { k with phase := .passing run stage })

def act (k : Worker) (move : Move) : Option World :=
  match move, k.phase with
  | .renew, _ => s.renew settings w k
  | .selectRun found, .claimed =>
    if selectsOpenRun s.runs k.claim.job found then
      some (s.setWorker w (some { k with phase := found.elim .unopened .opened }))
    else none
  | .insertRun, .unopened =>
    some ({ s with runs := s.runs ++ [openedRun s.now k.claim.job] }.setWorker w
      (some { k with phase := .opened s.runs.length }))
  | .tryLock, .opened run =>
    if k.claim.pass = .crawlPass then
      match s.lock with
      | none => some ({ s with lock := some w }.advance w k run .entered)
      | some _ => some (s.setWorker w (some { k with phase := .contended }))
    else none
  | .contend, .contended =>
    some ((s.complete k.claim (.error "pass_already_running" none)).setWorker w
      (some { k with phase := .settled }))
  | .look slugs, .passing run .entered =>
    some (s.advance w k run (.looked slugs (s.previousRunStartedAt run)))
  | .touch, .passing run (.looked slugs previous) =>
    some ({ s with schools := touchSeenSlugs s.now slugs s.schools }.advance w k run
      (.touched slugs previous))
  | .insert, .passing run (.touched slugs previous) =>
    some ({ s with schools := insertUnmatchedSlugs settings.lower s.now slugs s.schools }.advance w k run
      (.discovered slugs previous))
  | .finish failures, .passing run (.discovered slugs previous) =>
    s.finish settings w k run slugs previous failures
  | .abort fatal message, .passing run _ => some (s.abort w k run fatal message)
  | .finishRemap, .opened run => if k.claim.pass = .remap then some (s.finishRemap w k run) else none
  | .crash message, _ => some ((s.unlock w).setWorker w (some { k with phase := .crashed message }))
  | .cleanUp found, .crashed message => s.cleanUp w k message found
  -- the pass is left, or its process is gone
  | .leave, _ => some ((s.unlock w).setWorker w none)
  | _, _ => none

/-- All that a step of a worker can do, with the guards that let it. -/
inductive Acts (k : Worker) : World → Prop where
  | renewed {jobs} (renewed : renewJobLease s.now settings.leaseSeconds k.claim.job s.jobs = some jobs) :
    Acts k { s with jobs }
  | lost : Acts k (s.setWorker w (some { k with keeper := false }))
  | resumed {run} (claimed : k.phase = .claimed) (found : s.runs[run]?.any (CrawlRun.isOpen k.claim.job)) :
    Acts k (s.setWorker w (some { k with phase := .opened run }))
  | unopened (claimed : k.phase = .claimed) :
    Acts k (s.setWorker w (some { k with phase := .unopened }))
  | opened (unopened : k.phase = .unopened) :
    Acts k ({ s with runs := s.runs ++ [openedRun s.now k.claim.job] }.setWorker w
      (some { k with phase := .opened s.runs.length }))
  | locked {run} (opened : k.phase = .opened run) (crawl : k.claim.pass = .crawlPass)
      (free : s.lock = none) : Acts k ({ s with lock := some w }.advance w k run .entered)
  | refused {run} (opened : k.phase = .opened run) :
    Acts k (s.setWorker w (some { k with phase := .contended }))
  | contended (contended : k.phase = .contended) :
    Acts k ((s.complete k.claim (.error "pass_already_running" none)).setWorker w
      (some { k with phase := .settled }))
  | looked {run} (slugs) (entered : k.phase = .passing run .entered) :
    Acts k (s.advance w k run (.looked slugs (s.previousRunStartedAt run)))
  | touched {run slugs previous} (looked : k.phase = .passing run (.looked slugs previous)) :
    Acts k ({ s with schools := touchSeenSlugs s.now slugs s.schools }.advance w k run
      (.touched slugs previous))
  | inserted {run slugs previous} (touched : k.phase = .passing run (.touched slugs previous)) :
    Acts k ({ s with schools := insertUnmatchedSlugs settings.lower s.now slugs s.schools }.advance w k
      run (.discovered slugs previous))
  | finished {run slugs previous schools} (failures : Bool)
      (discovered : k.phase = .passing run (.discovered slugs previous))
      (retired : s.retired settings previous = some schools) :
    Acts k (({ s with
        schools
        runs := closeRun s.now run (if failures then .partly else .succeeded) (some slugs.length)
          none none s.runs
        passes := slugs :: s.passes }.complete k.claim .done).setWorker w
      (some { k with phase := .settled }))
  | aborted {run stage} (fatal message) (passing : k.phase = .passing run stage) :
    Acts k (s.abort w k run fatal message)
  | remapped {run} (opened : k.phase = .opened run) (remap : k.claim.pass = .remap) :
    Acts k (s.finishRemap w k run)
  | crashed (message) : Acts k ((s.unlock w).setWorker w (some { k with phase := .crashed message }))
  | cleaned {message} (found) (crashed : k.phase = .crashed message)
      (selected : selectsOpenRun s.runs k.claim.job found = true) :
    Acts k ({ s with
        jobs := (markJobCrashed s.now k.claim.job k.claim.startedAt found "worker_crashed"
          (some message) s.jobs s.runs).1
        runs := (markJobCrashed s.now k.claim.job k.claim.startedAt found "worker_crashed"
          (some message) s.jobs s.runs).2 }.setWorker w none)
  | left : Acts k ((s.unlock w).setWorker w none)

variable {settings s w}

theorem acts {k : Worker} {move : Move} {t : World} (acted : s.act settings w k move = some t) :
    s.Acts settings w k t := by
  unfold act at acted
  split at acted
  next => -- renew
    simp only [renew, Option.ite_none_right_eq_some] at acted
    obtain ⟨_, acted⟩ := acted
    split at acted
    next jobs renewed =>
      cases acted
      exact .renewed renewed
    next =>
      cases acted
      exact .lost
  next found claimed => -- selectRun
    simp only [Option.ite_none_right_eq_some, Option.some.injEq] at acted
    obtain ⟨selected, rfl⟩ := acted
    cases found with
    | none => exact .unopened claimed
    | some run => exact .resumed claimed selected
  next unopened =>
    cases acted
    exact .opened unopened
  next run opened => -- tryLock
    simp only [Option.ite_none_right_eq_some] at acted
    obtain ⟨crawl, acted⟩ := acted
    split at acted
    next free =>
      cases acted
      exact .locked opened crawl free
    next =>
      cases acted
      exact .refused opened
  next contended =>
    cases acted
    exact .contended contended
  next slugs run entered =>
    cases acted
    exact .looked slugs entered
  next looked =>
    cases acted
    exact .touched looked
  next touched =>
    cases acted
    exact .inserted touched
  next failures run slugs previous discovered => -- finish
    simp only [finish, Option.map_eq_some_iff] at acted
    obtain ⟨schools, retired, rfl⟩ := acted
    exact .finished failures discovered retired
  next fatal message run stage passing =>
    cases acted
    exact .aborted fatal message passing
  next run opened => -- finishRemap
    simp only [Option.ite_none_right_eq_some, Option.some.injEq] at acted
    obtain ⟨remap, rfl⟩ := acted
    exact .remapped opened remap
  next message =>
    cases acted
    exact .crashed message
  next found message crashed => -- cleanUp
    simp only [cleanUp, Option.ite_none_right_eq_some, Option.some.injEq] at acted
    obtain ⟨⟨_, selected⟩, rfl⟩ := acted
    exact .cleaned found crashed selected
  next =>
    cases acted
    exact .left
  next => contradiction

end World

def step (settings : PassSettings) (s : World) : Action → Option World
  | .tick elapsed => some { s with now := s.now + elapsed }
  | .enqueueNow kind => some { s with jobs := Facts.enqueueNow s.now kind s.jobs }
  | .enqueueDailyPass =>
    some { s with jobs := Facts.enqueueDailyPass s.now settings.intervalHours s.runs s.jobs }
  | .sweep => some { s with jobs := sweepExpiredLeases s.now s.jobs }
  | .syncCrosswalk slugs =>
    (Facts.syncCrosswalk settings.lower slugs s.schools).map fun schools => { s with schools }
  | .claim w skipped id asked => s.claim settings w skipped id asked
  | .act w move => (s.workers w).bind fun k => s.act settings w k move

def start (schools : List ListedSchool) : World := ⟨0, [], [], schools, none, fun _ => none, []⟩

end Counselle.Facts.Passes
