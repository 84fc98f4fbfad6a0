import Counselle.Facts.Crawl

/-! What the page statements of a live pass leave: they write the pages and the snapshots
alone, and each tab by its own fetch. -/
namespace Counselle.Facts

variable {Body Page : Type} {reader : Reader Body Page} {settings : Settings} {now : Nat}

theorem latest_setPage (school : School Body) (tab other : TabName) (row : PageRow Body) :
    (school.setPage tab row).latest other = if other = tab then row.latest else school.latest other := by
  unfold School.latest School.setPage
  by_cases same : other = tab
  · simp [same]
  · simp [same]

theorem latest_recordPageFailure (school : School Body) (tab : TabName) (status : PageStatus) :
    (recordPageFailure now tab status school).latest = school.latest := by
  funext other
  rw [recordPageFailure, latest_setPage]
  split
  case isTrue same =>
    subst same
    cases row : school.pages other <;> simp [School.latest, row]
  case isFalse _ => rfl

theorem latest_recordPageUnchanged (school : School Body) (tab : TabName) :
    (recordPageUnchanged now tab school).latest = school.latest := by
  funext other
  rw [recordPageUnchanged, latest_setPage]
  split
  case isTrue same =>
    subst same
    cases row : school.pages other <;> simp [School.latest, row]
  case isFalse _ => rfl

theorem recordPageChanged_latest (school : School Body) (tab other : TabName) (sha : Sha256)
    (body : Body) : ∃ snapshot : Snapshot Body, snapshot.sha = sha ∧
      snapshot.id = (recordPageChanged settings now tab sha body school).2 ∧
      (snapshot ∈ school.snapshots tab ∨ snapshot.body = body) ∧
      (recordPageChanged settings now tab sha body school).1.latest other =
        if other = tab then some snapshot else school.latest other := by
  refine ⟨((school.snapshots tab).find? fun snapshot => snapshot.sha = sha).getD
    ⟨school.nextSnapshotId, sha, body⟩, ?_, rfl, ?_, ?_⟩
  · cases seen : (school.snapshots tab).find? fun snapshot => snapshot.sha = sha with
    | none => rfl
    | some snapshot => simpa using List.find?_some seen
  · cases seen : (school.snapshots tab).find? fun snapshot => snapshot.sha = sha with
    | none => exact .inr rfl
    | some snapshot => exact .inl (List.mem_of_find?_eq_some seen)
  · exact latest_setPage school tab other ⟨some (((school.snapshots tab).find? fun snapshot =>
      snapshot.sha = sha).getD ⟨school.nextSnapshotId, sha, body⟩), .ok, some now, some now, some now, 0⟩

inductive TabRecorded (reader : Reader Body Page) (fetched : TabName → Fetched Body)
    (began : School Body) (recorded : Recorded Body) (tab : TabName) : Prop
  | changed (body : Body) (sha : Sha256) (page : Page) (snapshot : Snapshot Body)
      (fetch : fetched tab = .page body) (read : readPage reader tab body = some (sha, page))
      (differs : (began.latest tab).map Snapshot.sha ≠ some sha)
      (isIn : tab ∈ recorded.changedTabs)
      (latest : recorded.school.latest tab = some snapshot) (isSha : snapshot.sha = sha)
      (id : recorded.snapshotIds tab = snapshot.id)
      (source : snapshot ∈ began.snapshots tab ∨ snapshot.body = body)
  | unchanged (out : tab ∉ recorded.changedTabs)
      (latest : recorded.school.latest tab = began.latest tab)
      (seen : ∀ body sha page, fetched tab = .page body → readPage reader tab body = some (sha, page) →
        (began.latest tab).map Snapshot.sha = some sha)

theorem TabRecorded.sha_ne {fetched : TabName → Fetched Body} {began : School Body}
    {recorded : Recorded Body} {tab : TabName} (became : TabRecorded reader fetched began recorded tab)
    (isIn : tab ∈ recorded.changedTabs) :
    (recorded.school.latest tab).map Snapshot.sha ≠ (began.latest tab).map Snapshot.sha := by
  cases became with
  | changed body sha page snapshot fetch read differs _ latest isSha id source =>
    rw [latest, Option.map_some, isSha]
    exact fun same => differs same.symm
  | unchanged out _ _ => exact absurd isIn out

/-- The state of the page statements once the tabs of `done` are through. -/
structure Recording (reader : Reader Body Page) (fetched : TabName → Fetched Body)
    (began : School Body) (recorded : Recorded Body) (done : List TabName) : Prop where
  facts : recorded.school.facts = began.facts
  explore : recorded.school.explore = began.explore
  profile : recorded.school.profile = began.profile
  past : ∀ tab ∈ done, TabRecorded reader fetched began recorded tab
  ahead : ∀ tab ∉ done, recorded.school.pages tab = began.pages tab ∧
    recorded.school.snapshots tab = began.snapshots tab ∧ tab ∉ recorded.changedTabs

variable {fetched : TabName → Fetched Body} {began : School Body} {recorded : Recorded Body}
  {done : List TabName} {tab : TabName}

theorem Recording.fail (before : Recording reader fetched began recorded done) (fresh : tab ∉ done)
    (unread : ∀ body found, fetched tab = .page body → readPage reader tab body ≠ some found)
    (status : PageStatus) (kind : String) :
    Recording reader fetched began (recorded.fail now tab status kind) (done ++ [tab]) := by
  obtain ⟨pages, snapshots, out⟩ := before.ahead tab fresh
  have latest : (recorded.fail now tab status kind).school.latest = recorded.school.latest :=
    latest_recordPageFailure recorded.school tab status
  refine ⟨before.facts, before.explore, before.profile, ?_, ?_⟩
  · intro other isIn
    rcases List.mem_append.mp isIn with earlier | last
    · cases before.past other earlier with
      | changed body sha page snapshot fetch read differs isIn held isSha id source =>
        exact .changed body sha page snapshot fetch read differs isIn (latest ▸ held) isSha id source
      | unchanged out held seen => exact .unchanged out (latest ▸ held) seen
    · rw [List.mem_singleton] at last
      subst last
      refine .unchanged out ?_ fun body sha page fetch read => absurd read (unread body _ fetch)
      rw [latest]
      unfold School.latest
      rw [pages]
  · intro other outside
    rw [List.mem_append, List.mem_singleton, not_or] at outside
    obtain ⟨samePage, sameSnapshots, notIn⟩ := before.ahead other outside.1
    exact ⟨(Function.update_of_ne outside.2 _ _).trans samePage, sameSnapshots, notIn⟩

theorem Recording.same (before : Recording reader fetched began recorded done) (fresh : tab ∉ done)
    {body : Body} {sha : Sha256} {page : Page} (fetch : fetched tab = .page body)
    (read : readPage reader tab body = some (sha, page))
    (held : (recorded.school.latest tab).map Snapshot.sha = some sha) :
    Recording reader fetched began
      { recorded with school := recordPageUnchanged now tab recorded.school } (done ++ [tab]) := by
  obtain ⟨pages, snapshots, out⟩ := before.ahead tab fresh
  have latest : (recordPageUnchanged now tab recorded.school).latest = recorded.school.latest :=
    latest_recordPageUnchanged recorded.school tab
  have began_latest : recorded.school.latest tab = began.latest tab := by
    unfold School.latest
    rw [pages]
  refine ⟨before.facts, before.explore, before.profile, ?_, ?_⟩
  · intro other isIn
    rcases List.mem_append.mp isIn with earlier | last
    · cases before.past other earlier with
      | changed body sha page snapshot fetch read differs isIn held isSha id source =>
        exact .changed body sha page snapshot fetch read differs isIn (latest ▸ held) isSha id source
      | unchanged out held seen => exact .unchanged out (latest ▸ held) seen
    · rw [List.mem_singleton] at last
      subst last
      refine .unchanged out (by rw [latest, began_latest]) ?_
      intro body' sha' page' fetch' read'
      rw [fetch, Fetched.page.injEq] at fetch'
      subst fetch'
      rw [read, Option.some.injEq, Prod.mk.injEq] at read'
      rw [← began_latest, held, read'.1]
  · intro other outside
    rw [List.mem_append, List.mem_singleton, not_or] at outside
    obtain ⟨samePage, sameSnapshots, notIn⟩ := before.ahead other outside.1
    exact ⟨(Function.update_of_ne outside.2 _ _).trans samePage, sameSnapshots, notIn⟩

theorem Recording.change (before : Recording reader fetched began recorded done) (fresh : tab ∉ done)
    {body : Body} {sha : Sha256} {page : Page} (fetch : fetched tab = .page body)
    (read : readPage reader tab body = some (sha, page))
    (differs : (recorded.school.latest tab).map Snapshot.sha ≠ some sha) (counters : SchoolCounters) :
    Recording reader fetched began
      ⟨(recordPageChanged settings now tab sha body recorded.school).1, recorded.changedTabs ++ [tab],
        Function.update recorded.snapshotIds tab
          (recordPageChanged settings now tab sha body recorded.school).2,
        Function.update recorded.snapshotSha256 tab sha, counters⟩ (done ++ [tab]) := by
  obtain ⟨pages, snapshots, out⟩ := before.ahead tab fresh
  have began_latest : recorded.school.latest tab = began.latest tab := by
    unfold School.latest
    rw [pages]
  refine ⟨before.facts, before.explore, before.profile, ?_, ?_⟩
  · intro other isIn
    obtain ⟨snapshot, isSha, isId, source, latest⟩ :=
      @recordPageChanged_latest _ settings now recorded.school tab other sha body
    by_cases same : other = tab
    · subst same
      rw [if_pos rfl] at latest
      refine .changed body sha page snapshot fetch read (began_latest ▸ differs) (by simp) latest isSha
        ?_ (snapshots ▸ source)
      exact (Function.update_self ..).trans isId.symm
    · rw [if_neg same] at latest
      have earlier : other ∈ done := (List.mem_append.mp isIn).resolve_right (by simpa using same)
      have ids : Function.update recorded.snapshotIds tab
          (recordPageChanged settings now tab sha body recorded.school).2 other =
            recorded.snapshotIds other := Function.update_of_ne same _ _
      cases before.past other earlier with
      | changed body' sha' page' snapshot' fetch' read' differs' isIn' held isSha' id source' =>
        exact .changed body' sha' page' snapshot' fetch' read' differs' (List.mem_append_left _ isIn')
          (latest.trans held) isSha' (ids.trans id) source'
      | unchanged out' held seen =>
        exact .unchanged (by simp [out', same]) (latest.trans held) seen
  · intro other outside
    rw [List.mem_append, List.mem_singleton, not_or] at outside
    obtain ⟨samePage, sameSnapshots, notIn⟩ := before.ahead other outside.1
    refine ⟨?_, ?_, by simp [notIn, outside.2]⟩
    · exact (Function.update_of_ne outside.2 _ _).trans samePage
    · exact (Function.update_of_ne outside.2 _ _).trans sameSnapshots

theorem Recording.outcome (before : Recording reader fetched began recorded done) (fresh : tab ∉ done) :
    Recording reader fetched began (recordOutcome reader settings now fetched recorded tab)
      (done ++ [tab]) := by
  unfold recordOutcome
  cases fetch : fetched tab with
  | failed => exact before.fail fresh (by simp [fetch]) _ _
  | status status => exact before.fail fresh (by simp [fetch]) _ _
  | page body =>
    dsimp only
    cases read : readPage reader tab body with
    | none =>
      refine before.fail fresh ?_ _ _
      intro body' found fetch'
      rw [fetch, Fetched.page.injEq] at fetch'
      simp [← fetch', read]
    | some found =>
      dsimp only
      split
      case isTrue held => exact before.same fresh fetch read held
      case isFalse differs => exact before.change fresh fetch read differs _

theorem Recording.outcomes (tabs : List TabName) (distinct : (done ++ tabs).Nodup)
    (before : Recording reader fetched began recorded done) :
    Recording reader fetched began (tabs.foldl (recordOutcome reader settings now fetched) recorded)
      (done ++ tabs) := by
  induction tabs generalizing recorded done with
  | nil => simpa using before
  | cons tab rest ih =>
    have split : done ++ tab :: rest = (done ++ [tab]) ++ rest := by simp
    have fresh : tab ∉ done := by
      intro isIn
      exact List.disjoint_of_nodup_append distinct isIn List.mem_cons_self
    rw [List.foldl_cons, split]
    exact ih (split ▸ distinct) (before.outcome fresh)

theorem mem_tabNames (tab : TabName) : tab ∈ tabNames := by cases tab <;> decide

theorem recordPages_spec (reader : Reader Body Page) (settings : Settings) (now : Nat)
    (fetched : TabName → Fetched Body) (school : School Body) :
    Recording reader fetched school (recordPages reader settings now fetched school) tabNames := by
  have begun : Recording reader fetched school
      ⟨school, [], fun _ => 0, fun _ => 0, { pagesFetched := tabNames.length }⟩ [] := by
    refine ⟨rfl, rfl, rfl, ?_, ?_⟩
    · intro tab isIn
      cases isIn
    · intro tab _
      exact ⟨rfl, rfl, List.not_mem_nil⟩
  exact begun.outcomes tabNames (by decide)

theorem Recording.ofTab (recording : Recording reader fetched began recorded tabNames) (tab : TabName) :
    TabRecorded reader fetched began recorded tab :=
  recording.past tab (mem_tabNames tab)

end Counselle.Facts
