import Counselle.Facts.Claims

/-! When a slug is retired. A completed pass has stamped every slug of its sitemap after each
run with a sitemap had started, so that a stamp older than such a start means a slug which
neither the pass at hand nor the completed one before it has listed. -/
namespace Counselle.Facts.Passes

/-- The listed rows that have a stamp were stamped at `since` or later. -/
def Stamped (slugs : List String) (since : Nat) (schools : List ListedSchool) : Prop :=
  ∀ row ∈ schools, row.slug ∈ slugs → ∀ seen, row.lastSeenInSitemapAt = some seen → since ≤ seen

/-- What a statement other than the retirement makes of the rows at `now`. -/
structure Stamps (now : Nat) (before after : List ListedSchool) : Prop where
  row : ∀ (i : Nat) row, before[i]? = some row →
    ∃ row', after[i]? = some row' ∧ row'.slug = row.slug ∧ row'.retiredAt = row.retiredAt
  stamp : ∀ row ∈ after, (∃ row' ∈ before, row'.slug = row.slug ∧
      row'.lastSeenInSitemapAt = row.lastSeenInSitemapAt) ∨
    row.lastSeenInSitemapAt = none ∨ row.lastSeenInSitemapAt = some now

section Rows
variable {now since : Nat} {slugs : List String} {before after : List ListedSchool}

theorem Stamped.keep (stamped : Stamped slugs since before) (past : since ≤ now)
    (stamp : ∀ row ∈ after, (∃ row' ∈ before, row'.slug = row.slug ∧
        row'.lastSeenInSitemapAt = row.lastSeenInSitemapAt) ∨
      row.lastSeenInSitemapAt = none ∨ row.lastSeenInSitemapAt = some now) :
    Stamped slugs since after := by
  intro row isIn listed seen saw
  obtain ⟨row', was, slug, same⟩ | none | here := stamp row isIn
  · exact stamped row' was (slug ▸ listed) seen (same.trans saw)
  · rw [none] at saw
    contradiction
  · cases here.symm.trans saw
    exact past

theorem Stamps.refl (schools : List ListedSchool) : Stamps now schools schools where
  row _ row here := ⟨row, here, rfl, rfl⟩
  stamp row isIn := Or.inl ⟨row, isIn, rfl, rfl⟩

theorem Stamps.trans {middle : List ListedSchool} (first : Stamps now before middle)
    (second : Stamps now middle after) : Stamps now before after where
  row i row here := by
    obtain ⟨row', there, slug, retired⟩ := first.row i row here
    obtain ⟨row'', ends, slug', retired'⟩ := second.row i row' there
    exact ⟨row'', ends, slug'.trans slug, retired'.trans retired⟩
  stamp row isIn := by
    obtain ⟨row', was, slug, same⟩ | new := second.stamp row isIn
    · obtain ⟨row'', was', slug', same'⟩ | new := first.stamp row' was
      · exact Or.inl ⟨row'', was', slug'.trans slug, same'.trans same⟩
      · exact Or.inr (same ▸ new)
    · exact Or.inr new

theorem Stamps.snoc (schools : List ListedSchool) {new : ListedSchool}
    (stamp : new.lastSeenInSitemapAt = none ∨ new.lastSeenInSitemapAt = some now) :
    Stamps now schools (schools ++ [new]) where
  row i row here := by
    obtain ⟨inside, _⟩ := List.getElem?_eq_some_iff.mp here
    exact ⟨row, by rw [List.getElem?_append_left inside, here], rfl, rfl⟩
  stamp row isIn := by
    obtain old | last := List.mem_append.mp isIn
    · exact Or.inl ⟨row, old, rfl, rfl⟩
    · cases List.mem_singleton.mp last
      exact Or.inr stamp

theorem stamps_touch (schools : List ListedSchool) :
    Stamps now schools (touchSeenSlugs now slugs schools) where
  row i row here := by
    refine ⟨_, by rw [touchSeenSlugs, List.getElem?_map, here]; rfl, ?_⟩
    dsimp only
    split <;> exact ⟨rfl, rfl⟩
  stamp row isIn := by
    obtain ⟨old, was, rfl⟩ := List.mem_map.mp isIn
    split
    · exact Or.inr (Or.inr rfl)
    · exact Or.inl ⟨old, was, rfl, rfl⟩

theorem stamped_touch (schools : List ListedSchool) (past : since ≤ now) :
    Stamped slugs since (touchSeenSlugs now slugs schools) := by
  intro row isIn listed seen saw
  obtain ⟨old, was, rfl⟩ := List.mem_map.mp isIn
  by_cases mine : old.slug ∈ slugs
  · simp only [mine, if_true, Option.some.injEq] at saw
    exact saw ▸ past
  · simp only [mine, if_false] at listed

theorem stamps_insert (lower : String → String) (schools : List ListedSchool) :
    Stamps now schools (insertUnmatchedSlugs lower now slugs schools) := by
  induction slugs generalizing schools with
  | nil => exact .refl schools
  | cons slug rest ih =>
    simp only [insertUnmatchedSlugs, List.foldl_cons] at ih ⊢
    split
    · exact ih schools
    · exact (Stamps.snoc schools (Or.inr rfl)).trans (ih _)

theorem stamps_syncCrosswalk {lower : String → String} {schools : List ListedSchool}
    (synced : syncCrosswalk lower slugs schools = some after) : Stamps now schools after := by
  induction slugs generalizing schools with
  | nil =>
    cases synced
    exact .refl _
  | cons slug rest ih =>
    simp only [syncCrosswalk, List.foldlM_cons] at ih synced
    split at synced
    · exact ih synced
    · split at synced
      · contradiction
      · exact (Stamps.snoc schools (Or.inl rfl)).trans (ih synced)

/-- What the retirement makes of the rows: it leaves their stamps, and takes those whose
stamp is older than the start of the pass before. -/
structure Retires (previous : Option Nat) (before after : List ListedSchool) : Prop where
  row : ∀ (i : Nat) row, before[i]? = some row → ∃ row', after[i]? = some row' ∧ row'.slug = row.slug ∧
    (row' = row ∨ ∃ start, previous = some start ∧ row.isAbsentSince start = true)
  stamp : ∀ row ∈ after, ∃ row' ∈ before, row'.slug = row.slug ∧
    row'.lastSeenInSitemapAt = row.lastSeenInSitemapAt

theorem Retires.refl (previous : Option Nat) (schools : List ListedSchool) :
    Retires previous schools schools where
  row _ row here := ⟨row, here, rfl, Or.inl rfl⟩
  stamp row isIn := ⟨row, isIn, rfl, rfl⟩

theorem retires_map (start : Nat) (schools : List ListedSchool) :
    Retires (some start) schools (schools.map fun row =>
      if row.isAbsentSince start then { row with retiredAt := some now } else row) where
  row i row here := by
    refine ⟨_, by rw [List.getElem?_map, here]; rfl, ?_⟩
    dsimp only
    split
    next absent => exact ⟨rfl, Or.inr ⟨start, rfl, absent⟩⟩
    next => exact ⟨rfl, Or.inl rfl⟩
  stamp row isIn := by
    obtain ⟨old, was, rfl⟩ := List.mem_map.mp isIn
    refine ⟨old, was, ?_⟩
    split <;> exact ⟨rfl, rfl⟩

theorem retires {settings : PassSettings} {s : World} {previous : Option Nat}
    (retired : s.retired settings previous = some after) : Retires previous s.schools after := by
  cases previous with
  | none =>
    cases retired
    exact .refl _ _
  | some start =>
    simp only [World.retired, retireAbsentSlugs] at retired
    split at retired
    · cases retired
      exact .refl _ _
    · split at retired
      · contradiction
      · cases retired
        exact retires_map start s.schools

end Rows

def Stage.slugs : Stage → Option (List String)
  | .entered | .looked _ _ => none
  | .touched slugs _ | .discovered slugs _ => some slugs

/-- The start of the pass before, as the pass has read it. -/
def Stage.previous : Stage → Option Nat
  | .entered => none
  | .looked _ previous | .touched _ previous | .discovered _ previous => previous

/-- The starts that a completed pass, or the one at hand with its own run, stamps after. -/
def World.IsStart (s : World) (own : Option Nat) (start : Nat) : Prop :=
  ∃ (i : Nat) (row : CrawlRun), s.runs[i]? = some row ∧ row.startedAt = start ∧
    (row.sitemapSlugs ≠ none ∨ own = some i)

structure World.SitemapOk (s : World) : Prop where
  past : ∀ row ∈ s.runs, row.startedAt ≤ s.now
  closed : ∀ row ∈ s.runs, row.sitemapSlugs ≠ none → row.status ≠ .running
  passed : ∀ start, s.IsStart none start → s.passes ≠ []
  latest : ∀ slugs rest, s.passes = slugs :: rest → ∀ start, s.IsStart none start →
    Stamped slugs start s.schools
  previous : ∀ w k run stage start, s.workers w = some k → k.phase = .passing run stage →
    stage.previous = some start → s.IsStart none start
  stamped : ∀ w k run stage slugs, s.workers w = some k → k.phase = .passing run stage →
    stage.slugs = some slugs → ∀ start, s.IsStart (some run) start → Stamped slugs start s.schools

section Steps
variable {settings : PassSettings} {s t : World} {w : Nat} {k : Worker}

theorem World.SitemapOk.start (schools : List ListedSchool) : (start schools).SitemapOk where
  past _ isIn := nomatch isIn
  closed _ isIn := nomatch isIn
  passed _ isStart := by
    obtain ⟨_, _, none, _⟩ := isStart
    contradiction
  latest _ _ none := nomatch none
  previous _ _ _ _ _ none := nomatch none
  stamped _ _ _ _ _ none := nomatch none

theorem World.IsStart.past {own : Option Nat} {start : Nat} (ok : s.SitemapOk)
    (isStart : s.IsStart own start) : start ≤ s.now := by
  obtain ⟨i, row, here, rfl, _⟩ := isStart
  exact ok.past row (List.mem_of_getElem? here)

theorem World.IsStart.own {own : Option Nat} {start : Nat} (isStart : s.IsStart none start) :
    s.IsStart own start := by
  obtain ⟨i, row, here, same, sitemap | none⟩ := isStart
  · exact ⟨i, row, here, same, Or.inl sitemap⟩
  · contradiction

theorem previousRunStartedAt_isStart {run start : Nat}
    (found : s.previousRunStartedAt run = some start) : s.IsStart none start := by
  have isIn := List.max?_mem found
  obtain ⟨⟨row, i⟩, there, chosen⟩ := List.mem_filterMap.mp isIn
  simp only [Option.ite_none_right_eq_some, Option.some.injEq] at chosen
  obtain ⟨⟨_, sitemap⟩, same⟩ := chosen
  exact ⟨i, row, List.mem_zipIdx_iff_getElem?.mp there, same,
    Or.inl (Option.isSome_iff_ne_none.mp sitemap)⟩

def RunsIdle (now : Nat) (before after : List CrawlRun) : Prop :=
  ∀ (i : Nat) row, after[i]? = some row →
    (∃ row', before[i]? = some row' ∧ row'.startedAt = row.startedAt ∧
      (row.sitemapSlugs ≠ none → row' = row)) ∨
    before.length ≤ i ∧ row.startedAt = now ∧ row.sitemapSlugs = none

theorem RunsIdle.refl (now : Nat) (runs : List CrawlRun) : RunsIdle now runs runs :=
  fun _ row here => Or.inl ⟨row, here, rfl, fun _ => rfl⟩

theorem runsIdle_open (now job : Nat) (runs : List CrawlRun) :
    RunsIdle now runs (runs ++ [openedRun now job]) := by
  intro i row here
  rw [List.getElem?_append] at here
  split at here
  · exact Or.inl ⟨row, here, rfl, fun _ => rfl⟩
  · obtain ⟨_, rfl⟩ := List.getElem?_eq_some_iff.mp here
    exact Or.inr ⟨by omega, by simp [openedRun], by simp [openedRun]⟩

theorem runsIdle_close (now run : Nat) (status : RunStatus) (code message : Option String)
    (runs : List CrawlRun) : RunsIdle now runs (closeRun now run status none code message runs) := by
  intro i row here
  obtain same | ⟨rfl, old, was, _, rfl⟩ := getElem?_closeRun here
  · exact Or.inl ⟨row, same, rfl, fun _ => rfl⟩
  · exact Or.inl ⟨old, was, rfl, fun sitemap => absurd rfl sitemap⟩

/-- What a passing worker has to show for its stage, over the state before the step. -/
structure Shows (s t : World) (run : Nat) (stage : Stage) : Prop where
  inside : run < s.runs.length
  previous : ∀ start, stage.previous = some start → s.IsStart none start
  stamped : ∀ slugs, stage.slugs = some slugs → ∀ start, s.IsStart (some run) start →
    Stamped slugs start t.schools

theorem World.IsStart.back (idle : RunsIdle s.now s.runs t.runs) {own : Option Nat} {start : Nat}
    (inside : ∀ i, own = some i → i < s.runs.length) (isStart : t.IsStart own start) :
    s.IsStart own start := by
  obtain ⟨i, row, here, rfl, why⟩ := isStart
  obtain ⟨row', was, same, whole⟩ | ⟨new, _, none⟩ := idle i row here
  · refine ⟨i, row', was, same, why.imp_left fun sitemap => ?_⟩
    rw [whole sitemap]
    exact sitemap
  · obtain sitemap | own := why
    · exact absurd none sitemap
    · exact absurd (inside i own) (by omega)

theorem World.IsStart.next (ok : s.SitemapOk) (kept : RunsKept s.runs t.runs) {start : Nat}
    (isStart : s.IsStart none start) : t.IsStart none start := by
  obtain ⟨i, row, here, same, sitemap | none⟩ := isStart
  · exact ⟨i, row, kept.closed i row here (ok.closed row (List.mem_of_getElem? here) sitemap), same,
      Or.inl sitemap⟩
  · contradiction

theorem World.SitemapOk.keep (ok : s.SitemapOk) (now : s.now ≤ t.now) (passes : t.passes = s.passes)
    (idle : RunsIdle s.now s.runs t.runs) (kept : RunsKept s.runs t.runs)
    (stamps : Stamps s.now s.schools t.schools)
    (workers : ∀ w k run stage, t.workers w = some k → k.phase = .passing run stage →
      Shows s t run stage) : t.SitemapOk := by
  have back : ∀ start, t.IsStart none start → s.IsStart none start :=
    fun start => World.IsStart.back idle nofun
  constructor
  case past =>
    intro row isIn
    obtain ⟨i, here⟩ := List.mem_iff_getElem?.mp isIn
    obtain ⟨row', was, same, _⟩ | ⟨_, new, _⟩ := idle i row here
    · have := ok.past row' (List.mem_of_getElem? was)
      omega
    · omega
  case closed =>
    intro row isIn sitemap
    obtain ⟨i, here⟩ := List.mem_iff_getElem?.mp isIn
    obtain ⟨row', was, _, whole⟩ | ⟨_, _, none⟩ := idle i row here
    · have was : s.runs[i]? = some row := whole sitemap ▸ was
      exact ok.closed row (List.mem_of_getElem? was) sitemap
    · exact absurd none sitemap
  case passed =>
    intro start isStart
    rw [passes]
    exact ok.passed start (back start isStart)
  case latest =>
    intro slugs rest last start isStart
    have before := back start isStart
    exact (ok.latest slugs rest (passes ▸ last) start before).keep (before.past ok) stamps.stamp
  case previous =>
    intro w k run stage start working passing read
    exact ((workers w k run stage working passing).previous start read).next ok kept
  case stamped =>
    intro w k run stage slugs working passing listed start isStart
    have shows_ := workers w k run stage working passing
    refine shows_.stamped slugs listed start (isStart.back idle ?_)
    intro i own
    cases own
    exact shows_.inside

theorem World.SitemapOk.shows (ok : s.SitemapOk) (claims : s.Ok) {run : Nat} {stage : Stage}
    (stamps : Stamps s.now s.schools t.schools) (working : s.workers w = some k)
    (passing : k.phase = .passing run stage) : Shows s t run stage where
  inside := by
    obtain ⟨row, here, _⟩ := claims.run w k run working (by simp [Worker.run, passing])
    exact (List.getElem?_eq_some_iff.mp here).1
  previous start read := ok.previous w k run stage start working passing read
  stamped slugs listed start isStart :=
    (ok.stamped w k run stage slugs working passing listed start isStart).keep (isStart.past ok)
      stamps.stamp

theorem World.Ok.inside (claims : s.Ok) {run : Nat} (working : s.workers w = some k)
    (ran : k.run = some run) : run < s.runs.length := by
  obtain ⟨row, here, _⟩ := claims.run w k run working ran
  exact (List.getElem?_eq_some_iff.mp here).1

theorem World.Acts.completes (acts : s.Acts settings w k t) :
    t.passes = s.passes ∧ RunsIdle s.now s.runs t.runs ∧ Stamps s.now s.schools t.schools ∨
    ∃ run slugs previous failures, k.phase = .passing run (.discovered slugs previous) ∧
      s.finish settings w k run slugs previous failures = some t := by
  cases acts with
  | opened => exact Or.inl ⟨rfl, runsIdle_open _ _ _, .refl _⟩
  | touched => exact Or.inl ⟨rfl, .refl _ _, stamps_touch _⟩
  | inserted => exact Or.inl ⟨rfl, .refl _ _, stamps_insert ..⟩
  | finished failures discovered retired =>
    exact Or.inr ⟨_, _, _, failures, discovered, by rw [finish, retired]; rfl⟩
  | aborted => exact Or.inl ⟨rfl, runsIdle_close _ _ _ _ _ _, .refl _⟩
  | remapped => exact Or.inl ⟨rfl, runsIdle_close _ _ _ _ _ _, .refl _⟩
  | cleaned found =>
    refine Or.inl ⟨rfl, ?_, .refl _⟩
    simp only [World.setWorker_runs, markJobCrashed]
    split
    · split
      · exact runsIdle_close _ _ _ _ _ _
      · exact .refl _ _
    · exact .refl _ _
  | _ => exact Or.inl ⟨rfl, .refl _ _, .refl _⟩

theorem World.Acts.shows (acts : s.Acts settings w k t) (ok : s.SitemapOk) (claims : s.Ok)
    (working : s.workers w = some k) (stamps : Stamps s.now s.schools t.schools) {l : Worker}
    {run : Nat} {stage : Stage} (there : t.workers w = some l) (passing : l.phase = .passing run stage) :
    Shows s t run stage := by
  cases acts with
  | renewed => exact ok.shows claims stamps there passing
  | lost =>
    simp only [setWorker_workers, Function.update_self, Option.some.injEq] at there
    subst there
    exact ok.shows claims stamps working passing
  | locked opened =>
    simp only [advance, setWorker_workers, Function.update_self, Option.some.injEq] at there
    subst there
    cases passing
    exact ⟨claims.inside working (by simp [Worker.run, opened]), by simp [Stage.previous], by simp [Stage.slugs]⟩
  | looked slugs entered =>
    simp only [advance, setWorker_workers, Function.update_self, Option.some.injEq] at there
    subst there
    cases passing
    exact ⟨claims.inside working (by simp [Worker.run, entered]),
      fun start read => previousRunStartedAt_isStart read, by simp [Stage.slugs]⟩
  | touched looked =>
    simp only [advance, setWorker_workers, Function.update_self, Option.some.injEq] at there
    subst there
    cases passing
    have before := ok.shows claims stamps working looked
    refine ⟨before.inside, before.previous, fun slugs listed start isStart => ?_⟩
    cases listed
    exact stamped_touch s.schools (isStart.past ok)
  | inserted touched =>
    simp only [advance, setWorker_workers, Function.update_self, Option.some.injEq] at there
    subst there
    cases passing
    have before := ok.shows claims stamps working touched
    exact ⟨before.inside, before.previous, before.stamped⟩
  | cleaned => simp at there
  | left => simp at there
  | _ =>
    simp only [abort, finishRemap, setWorker_workers, Function.update_self, Option.some.injEq] at there
    subst there
    contradiction

theorem World.SitemapOk.acts (ok : s.SitemapOk) (claims : s.Ok) (working : s.workers w = some k)
    (acts : s.Acts settings w k t) (passes : t.passes = s.passes)
    (idle : RunsIdle s.now s.runs t.runs) (stamps : Stamps s.now s.schools t.schools) : t.SitemapOk := by
  obtain ⟨now, next, workers, _⟩ := acts.worker working
  refine ok.keep now.ge passes idle acts.runsKept stamps fun v l run stage there passing => ?_
  by_cases own : v = w
  · subst own
    exact acts.shows ok claims working stamps there passing
  · rw [workers, Function.update_of_ne own] at there
    exact ok.shows claims stamps there passing

theorem World.SitemapOk.finish (ok : s.SitemapOk) (claims : s.Ok) (working : s.workers w = some k)
    {run : Nat} {slugs : List String} {previous : Option Nat} {failures : Bool}
    (discovered : k.phase = .passing run (.discovered slugs previous))
    (finished : s.finish settings w k run slugs previous failures = some t) :
    t.SitemapOk ∧ t.passes = slugs :: s.passes ∧ Retires previous s.schools t.schools := by
  simp only [World.finish, Option.map_eq_some_iff] at finished
  obtain ⟨schools, retired, rfl⟩ := finished
  have retires := retires retired
  refine ⟨?_, rfl, retires⟩
  -- nobody else is in a crawl pass, as this one has the lock
  have alone : ∀ v l i stage, Function.update s.workers w (some { k with phase := .settled }) v = some l →
      l.phase ≠ .passing i stage := by
    intro v l i stage there passing
    obtain ⟨_, mine⟩ | ⟨other, was⟩ := update_cases there
    · cases mine
      contradiction
    · have mine := claims.lock w k run _ working discovered
      have theirs := claims.lock v l i stage was passing
      exact other (Option.some.inj (theirs.symm.trans mine))
  constructor
  case past =>
    intro row isIn
    obtain ⟨i, here⟩ := List.mem_iff_getElem?.mp isIn
    obtain same | ⟨_, old, was, _, rfl⟩ := getElem?_closeRun here
    · exact ok.past row (List.mem_of_getElem? same)
    · exact ok.past old (List.mem_of_getElem? was)
  case closed =>
    intro row isIn sitemap
    obtain ⟨i, here⟩ := List.mem_iff_getElem?.mp isIn
    obtain same | ⟨_, old, was, _, rfl⟩ := getElem?_closeRun here
    · exact ok.closed row (List.mem_of_getElem? same) sitemap
    · cases failures <;> simp [CrawlRun.closed]
  case passed => exact fun _ _ => List.cons_ne_nil _ _
  case latest =>
    intro listed rest last start isStart
    cases last
    have before : s.IsStart (some run) start := by
      obtain ⟨i, row, here, same, sitemap | none⟩ := isStart
      · obtain was | ⟨own, old, was, _, rfl⟩ := getElem?_closeRun here
        · exact ⟨i, row, was, same, Or.inl sitemap⟩
        · exact ⟨run, old, was, same, Or.inr rfl⟩
      · contradiction
    have stamped := ok.stamped w k run _ slugs working discovered rfl start before
    exact stamped.keep (before.past ok) fun row isIn => Or.inl (retires.stamp row isIn)
  case previous =>
    intro v l i stage start there passing
    exact absurd passing (alone v l i stage there)
  case stamped =>
    intro v l i stage listed there passing
    exact absurd passing (alone v l i stage there)

/-- What a step means to the rows of schools: it stamps at most, or it completes a pass. -/
inductive SchoolsMove (s t : World) : Prop where
  | stamped (passes : t.passes = s.passes) (stamps : Stamps s.now s.schools t.schools)
  | completed {w : Nat} {k : Worker} {run : Nat} {slugs : List String} {previous : Option Nat}
      (working : s.workers w = some k)
      (discovered : k.phase = .passing run (.discovered slugs previous))
      (passes : t.passes = slugs :: s.passes) (retires : Retires previous s.schools t.schools)

theorem World.SitemapOk.step (ok : s.SitemapOk) (claims : s.Ok) {a : Action}
    (stepped : step settings s a = some t) : t.SitemapOk ∧ SchoolsMove s t := by
  -- the steps that touch no run and no worker that is in a crawl pass
  have rest : s.now ≤ t.now → t.passes = s.passes → t.runs = s.runs →
      Stamps s.now s.schools t.schools →
      (∀ w k run stage, t.workers w = some k → k.phase = .passing run stage → s.workers w = some k) →
      t.SitemapOk ∧ SchoolsMove s t := by
    intro now passes runs stamps workers
    refine ⟨ok.keep now passes (runs ▸ .refl _ _) (runs ▸ .refl _) stamps ?_, .stamped passes stamps⟩
    intro w k run stage there passing
    exact ok.shows claims stamps (workers w k run stage there passing) passing
  cases a with
  | tick elapsed =>
    cases stepped
    exact rest (Nat.le_add_right _ _) rfl rfl (.refl _) fun _ _ _ _ there _ => there
  | syncCrosswalk slugs =>
    obtain ⟨schools, synced, rfl⟩ := Option.map_eq_some_iff.mp stepped
    exact rest le_rfl rfl rfl (stamps_syncCrosswalk synced) fun _ _ _ _ there _ => there
  | claim w skipped id asked =>
    simp only [Passes.step, World.claim] at stepped
    split at stepped
    · obtain ⟨jobs, _, rfl⟩ := Option.map_eq_some_iff.mp stepped
      refine rest le_rfl rfl rfl (.refl _) fun v l run stage there passing => ?_
      obtain ⟨_, mine⟩ | ⟨_, was⟩ := update_cases there
      · cases mine
        contradiction
      · exact was
    · contradiction
  | act w move =>
    obtain ⟨k, working, acted⟩ := Option.bind_eq_some_iff.mp stepped
    have acts := World.acts acted
    obtain ⟨passes, idle, stamps⟩ | ⟨run, slugs, previous, failures, discovered, finished⟩ :=
      acts.completes
    · exact ⟨ok.acts claims working acts passes idle stamps, .stamped passes stamps⟩
    · obtain ⟨after, passes, retires⟩ := ok.finish claims working discovered finished
      exact ⟨after, .completed working discovered passes retires⟩
  | _ =>
    cases stepped
    exact rest le_rfl rfl rfl (.refl _) fun _ _ _ _ there _ => there

theorem reachable_sitemapOk {schools : List ListedSchool}
    (reached : Transition.Reachable (step settings) (start schools) s) : s.Ok ∧ s.SitemapOk :=
  Transition.Reachable.invariant (P := fun s => s.Ok ∧ s.SitemapOk)
    (fun ok stepped => ⟨ok.1.step stepped, (ok.2.step ok.1 stepped).1⟩) reached
    ⟨.start schools, .start schools⟩

theorem run_stamps (labels : List Action) (claims : s.Ok) (ok : s.SitemapOk)
    (path : Transition.run (step settings) s labels = some t) :
    ∃ newer, t.passes = newer ++ s.passes ∧ (newer = [] → ∀ (i : Nat) row, s.schools[i]? = some row →
      ∃ row', t.schools[i]? = some row' ∧ row'.slug = row.slug ∧ row'.retiredAt = row.retiredAt) := by
  induction labels generalizing s with
  | nil =>
    cases path
    exact ⟨[], rfl, fun _ _ row here => ⟨row, here, rfl, rfl⟩⟩
  | cons a rest ih =>
    obtain ⟨middle, first, path⟩ := Transition.run_cons path
    obtain ⟨after, moves⟩ := ok.step claims first
    obtain ⟨newer, grown, later⟩ := ih (claims.step first) after path
    cases moves with
    | stamped passes stamps =>
      refine ⟨newer, by rw [grown, passes], fun none i row here => ?_⟩
      obtain ⟨row', there, slug, retired⟩ := stamps.row i row here
      obtain ⟨row'', ends, slug', retired'⟩ := later none i row' there
      exact ⟨row'', ends, slug'.trans slug, retired'.trans retired⟩
    | @completed _ _ _ slugs _ _ _ passes =>
      exact ⟨newer ++ [slugs], by rw [grown, passes, List.append_assoc]; rfl, fun none => by simp at none⟩

theorem World.SitemapOk.misses (ok : s.SitemapOk) {run : Nat} {slugs : List String}
    {previous : Option Nat} {start : Nat} {row : ListedSchool} (working : s.workers w = some k)
    (discovered : k.phase = .passing run (.discovered slugs previous)) (read : previous = some start)
    (isIn : row ∈ s.schools) (absent : row.isAbsentSince start = true) :
    row.slug ∉ slugs ∧ ∃ before rest, s.passes = before :: rest ∧ row.slug ∉ before := by
  simp only [ListedSchool.isAbsentSince, Bool.and_eq_true, Option.any_eq_true, decide_eq_true_eq] at absent
  obtain ⟨_, seen, saw, earlier⟩ := absent
  have isStart := ok.previous w k run _ start working discovered read
  constructor
  · intro listed
    have later := ok.stamped w k run _ slugs working discovered rfl start isStart.own row isIn listed
      seen saw
    omega
  · obtain ⟨before, rest, passes⟩ := List.exists_cons_of_ne_nil (ok.passed start isStart)
    refine ⟨before, rest, passes, fun listed => ?_⟩
    have later := ok.latest before rest passes start isStart row isIn listed seen saw
    omega

end Steps

/-- A slug is retired at the end of a pass that misses it as the completed one before did.
A live slug that a completed pass has listed stays live until another one completes. What
is retired stays so, listed or not. -/
theorem retired_after_two_misses (settings : PassSettings) (schools : List ListedSchool)
    {s t : World} {a : Action} (reached : Transition.Reachable (step settings) (start schools) s)
    (stepped : step settings s a = some t) :
    (∀ (i : Nat) row row', s.schools[i]? = some row → t.schools[i]? = some row' →
      row.retiredAt = none → row'.retiredAt ≠ none →
      ∃ latest before rest, t.passes = latest :: before :: rest ∧ s.passes = before :: rest ∧
        row.slug ∉ latest ∧ row.slug ∉ before) ∧
    (∀ latest labels u, t.passes = latest :: s.passes →
      Transition.run (step settings) t labels = some u → u.passes = t.passes →
      ∀ (i : Nat) row, s.schools[i]? = some row → row.slug ∈ latest → row.retiredAt = none →
        ∃ row', u.schools[i]? = some row' ∧ row'.slug = row.slug ∧ row'.retiredAt = none) ∧
    (∀ (i : Nat) row, s.schools[i]? = some row → row.retiredAt ≠ none →
      ∃ row', t.schools[i]? = some row' ∧ row'.slug = row.slug ∧ row'.retiredAt = row.retiredAt) := by
  obtain ⟨claims, ok⟩ := reachable_sitemapOk reached
  obtain ⟨after, moves⟩ := ok.step claims stepped
  cases moves with
  | stamped passes stamps =>
    refine ⟨?_, ?_, fun i row here _ => stamps.row i row here⟩
    · intro i row row' here there live retired
      obtain ⟨same, found, _, kept⟩ := stamps.row i row here
      cases found.symm.trans there
      exact absurd (kept.trans live) retired
    · intro latest labels u completed
      have longer := congrArg List.length (passes.symm.trans completed)
      simp at longer
  | completed working discovered passes retires =>
    refine ⟨?_, ?_, ?_⟩
    · intro i row row' here there live retired
      obtain ⟨same, found, _, rfl | ⟨start, read, absent⟩⟩ := retires.row i row here
      · cases found.symm.trans there
        exact absurd live retired
      · obtain ⟨missed, before, rest, was, missedBefore⟩ :=
          ok.misses working discovered read (List.mem_of_getElem? here) absent
        exact ⟨_, before, rest, by rw [passes, was], was, missed, missedBefore⟩
    · intro latest labels u completed path idle i row here listed live
      cases (List.cons.inj (passes.symm.trans completed)).1
      obtain ⟨newer, grown, later⟩ := run_stamps labels (claims.step stepped) after path
      have none : newer = [] := by
        rw [idle] at grown
        exact List.self_eq_append_left.mp grown
      obtain ⟨row', there, slug, rfl | ⟨start, read, absent⟩⟩ := retires.row i row here
      · obtain ⟨row'', ends, slug', retired⟩ := later none i row' there
        exact ⟨row'', ends, slug', retired.trans live⟩
      · exact absurd listed (ok.misses working discovered read (List.mem_of_getElem? here) absent).1
    · intro i row here retired
      obtain ⟨row', there, slug, rfl | ⟨start, _, absent⟩⟩ := retires.row i row here
      · exact ⟨row', there, rfl, rfl⟩
      · simp [ListedSchool.isAbsentSince, ListedSchool.isLive, retired] at absent

def crawlPass (slugs : List String) (job : Nat) : List Action :=
  [.tick 1, .enqueueNow .crawlPass, .claim 0 [] job none, .act 0 (.selectRun none), .act 0 .insertRun,
    .act 0 .tryLock, .act 0 (.look slugs), .act 0 .touch, .act 0 .insert, .act 0 (.finish false),
    .act 0 .leave]

def unfinishedPass (slugs : List String) (job : Nat) : List Action :=
  (crawlPass slugs job).take 9

theorem retired_after_two_misses_thrice :
    ∃ s t, Transition.run (step nightly) (start [])
        (crawlPass ["mit"] 0 ++ crawlPass [] 1 ++ unfinishedPass [] 2) = some s ∧
      step nightly s (.act 0 (.finish false)) = some t ∧ t.schools = [⟨"mit", some 1, some 3⟩] ∧
      ∀ (i : Nat) row row', s.schools[i]? = some row → t.schools[i]? = some row' →
        row.retiredAt = none → row'.retiredAt ≠ none →
        ∃ latest before rest, t.passes = latest :: before :: rest ∧ s.passes = before :: rest ∧
          row.slug ∉ latest ∧ row.slug ∉ before := by
  have ran : ((Transition.run (step nightly) (start [])
      (crawlPass ["mit"] 0 ++ crawlPass [] 1 ++ unfinishedPass [] 2)).bind fun s =>
        step nightly s (.act 0 (.finish false))).map World.schools = some [⟨"mit", some 1, some 3⟩] := by
    decide +kernel
  obtain ⟨t, both, schools⟩ := Option.map_eq_some_iff.mp ran
  obtain ⟨s, path, stepped⟩ := Option.bind_eq_some_iff.mp both
  exact ⟨s, t, path, stepped, schools, (retired_after_two_misses nightly [] ⟨_, path⟩ stepped).1⟩

/-- The slug is back in the sitemap of the latest completed pass, and still retired. -/
theorem relisted_slug_stays_retired :
    (Transition.run (step nightly) (start [])
      (crawlPass ["mit"] 0 ++ crawlPass [] 1 ++ crawlPass [] 2 ++ crawlPass ["mit"] 3)).map
        (fun s => (s.passes.head?, s.schools)) =
      some (some ["mit"], [⟨"mit", some 4, some 3⟩]) := by
  decide +kernel

end Counselle.Facts.Passes
