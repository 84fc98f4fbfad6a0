import Counselle.Facts.Pages

/-! How `map_snapshot` composes its rows: those of each tab's header and body, under a
cycle year that the admission tab supplies, then what is read off the overview and the
admission header. Each row belongs to the tab whose page it was read from. -/
namespace Counselle.Facts
open PyText (PyError)

/-- The parts of `map_snapshot` that read one page. -/
structure Mapper (Page : Type) where
  /-- `_cycle_year` of an admission page that names one. -/
  headerYear : Page → Option Int
  /-- The header and the body of one tab, as the engine maps them. -/
  process : TabName → Page → Int → Except PyError (List FactRow)
  /-- `_identity_website` -/
  website : Page → List FactRow
  /-- `_overview_body_extras` -/
  overviewExtras : Page → Except PyError (List FactRow)
  /-- `_admission_deadline_facts` -/
  admissionDeadlines : Page → Except PyError (List FactRow)
  processTab : ∀ tab page year rows, process tab page year = .ok rows → ∀ row ∈ rows, row.tab = tab
  websiteTab : ∀ page, ∀ row ∈ website page, row.tab = .overview
  extrasTab : ∀ page rows, overviewExtras page = .ok rows → ∀ row ∈ rows, row.tab = .overview
  deadlinesTab : ∀ page rows, admissionDeadlines page = .ok rows → ∀ row ∈ rows, row.tab = .admission

namespace Mapper
variable {Page : Type} (mapper : Mapper Page)

def cycleYear (pages : TabName → Option Page) (fallback : Int) : Int :=
  ((pages .admission).bind mapper.headerYear).getD fallback

/-- What `f` reads off a page that is there. -/
def onPage (f : Page → Except PyError (List FactRow)) : Option Page → Except PyError (List FactRow)
  | some page => f page
  | none => .ok []

def processAll (pages : TabName → Option Page) (year : Int) : List TabName → Except PyError (List FactRow)
  | [] => .ok []
  | tab :: rest => do
    let rows ← onPage (fun page => mapper.process tab page year) (pages tab)
    let later ← processAll pages year rest
    return rows ++ later

def mapSnapshot (pages : TabName → Option Page) (fallback : Int) : Except PyError (List FactRow) := do
  let year := mapper.cycleYear pages fallback
  let processed ← mapper.processAll pages year tabNames
  let website := ((pages .overview).map mapper.website).getD []
  let extras ← onPage mapper.overviewExtras (pages .overview)
  let deadlines ← onPage mapper.admissionDeadlines (pages .admission)
  return processed ++ website ++ extras ++ deadlines

def onTab (here : Bool) (rows : Except PyError (List FactRow)) : Except PyError (List FactRow) :=
  if here then rows else .ok []

def tabRows (tab : TabName) (page : Page) (year : Int) : Except PyError (List FactRow) := do
  let rows ← mapper.process tab page year
  let extras ← onTab (tab = .overview) (mapper.overviewExtras page)
  let deadlines ← onTab (tab = .admission) (mapper.admissionDeadlines page)
  return rows ++ (if tab = .overview then mapper.website page else []) ++ extras ++ deadlines

def ofTab (tab : TabName) (rows : List FactRow) : List FactRow := rows.filter fun row => row.tab = tab

variable {mapper} {pages : TabName → Option Page} {year fallback : Int} {rows : List FactRow}

theorem ofTab_append (tab : TabName) (first second : List FactRow) :
    ofTab tab (first ++ second) = ofTab tab first ++ ofTab tab second := List.filter_append ..

theorem ofTab_self {tab : TabName} (own : ∀ row ∈ rows, row.tab = tab) : ofTab tab rows = rows :=
  List.filter_eq_self.mpr (by simpa using own)

theorem ofTab_other {tab other : TabName} (own : ∀ row ∈ rows, row.tab = other) (differs : other ≠ tab) :
    ofTab tab rows = [] := by
  refine List.filter_eq_nil_iff.mpr fun row isIn same => ?_
  exact differs ((own row isIn).symm.trans (by simpa using same))

theorem ofTab_processAll {tabs : List TabName} (distinct : tabs.Nodup)
    (processed : mapper.processAll pages year tabs = .ok rows) (tab : TabName) :
    if tab ∈ tabs then onPage (fun page => mapper.process tab page year) (pages tab) = .ok (ofTab tab rows)
    else ofTab tab rows = [] := by
  induction tabs generalizing rows with
  | nil =>
    cases processed
    rfl
  | cons first rest ih =>
    rw [processAll] at processed
    simp only [Fallible.bind_ok_iff, pure, Except.pure, Except.ok.injEq] at processed
    obtain ⟨own, ran, later, others, rfl⟩ := processed
    have owned : ∀ row ∈ own, row.tab = first := by
      cases page : pages first with
      | none =>
        rw [page] at ran
        cases ran
        simp
      | some found =>
        rw [page] at ran
        exact mapper.processTab first found year own ran
    have tail := ih (List.nodup_cons.mp distinct).2 others
    rw [ofTab_append]
    by_cases same : tab = first
    · subst same
      rw [if_pos List.mem_cons_self, ofTab_self owned]
      rw [if_neg (List.nodup_cons.mp distinct).1] at tail
      rw [tail, List.append_nil]
      exact ran
    · rw [ofTab_other owned (Ne.symm same), List.nil_append]
      simpa [same] using tail

theorem mapSnapshot_ok : mapper.mapSnapshot pages fallback = .ok rows ↔
    ∃ processed, mapper.processAll pages (mapper.cycleYear pages fallback) tabNames = .ok processed ∧
    ∃ extras, onPage mapper.overviewExtras (pages .overview) = .ok extras ∧
    ∃ deadlines, onPage mapper.admissionDeadlines (pages .admission) = .ok deadlines ∧
      processed ++ ((pages .overview).map mapper.website).getD [] ++ extras ++ deadlines = rows := by
  unfold mapSnapshot
  simp only [Fallible.bind_ok_iff, pure, Except.pure, Except.ok.injEq]

theorem ofTab_mapSnapshot (mapped : mapper.mapSnapshot pages fallback = .ok rows) (tab : TabName) :
    onPage (fun page => mapper.tabRows tab page (mapper.cycleYear pages fallback)) (pages tab) =
      .ok (ofTab tab rows) := by
  obtain ⟨processed, ran, extras, hasExtras, deadlines, hasDeadlines, rfl⟩ := mapSnapshot_ok.mp mapped
  have own := ofTab_processAll (by decide) ran tab
  rw [if_pos (mem_tabNames tab)] at own
  have website : ∀ row ∈ ((pages .overview).map mapper.website).getD [], row.tab = .overview := by
    cases page : pages .overview with
    | none => simp
    | some found => exact mapper.websiteTab found
  have extrasOwn : ∀ row ∈ extras, row.tab = .overview := by
    cases page : pages .overview with
    | none =>
      rw [page] at hasExtras
      cases hasExtras
      simp
    | some found =>
      rw [page] at hasExtras
      exact mapper.extrasTab found extras hasExtras
  have deadlinesOwn : ∀ row ∈ deadlines, row.tab = .admission := by
    cases page : pages .admission with
    | none =>
      rw [page] at hasDeadlines
      cases hasDeadlines
      simp
    | some found =>
      rw [page] at hasDeadlines
      exact mapper.deadlinesTab found deadlines hasDeadlines
  rw [ofTab_append, ofTab_append, ofTab_append]
  cases page : pages tab with
  | none =>
    rw [page] at own
    have none : ofTab tab processed = [] := (Except.ok.inj own).symm
    rw [none]
    by_cases overview : tab = .overview
    · subst overview
      rw [page] at hasExtras
      cases hasExtras
      rw [page, ofTab_other deadlinesOwn (by decide)]
      rfl
    · rw [ofTab_other website (Ne.symm overview), ofTab_other extrasOwn (Ne.symm overview)]
      by_cases admission : tab = .admission
      · subst admission
        rw [page] at hasDeadlines
        cases hasDeadlines
        rfl
      · rw [ofTab_other deadlinesOwn (Ne.symm admission)]
        rfl
  | some found =>
    rw [page] at own
    change mapper.tabRows tab found _ = _
    change mapper.process tab found _ = _ at own
    unfold tabRows
    rw [own]
    by_cases overview : tab = .overview
    · subst overview
      rw [page] at hasExtras
      change mapper.overviewExtras found = .ok extras at hasExtras
      rw [ofTab_self website, ofTab_self extrasOwn, ofTab_other deadlinesOwn (by decide), page]
      simp [onTab, hasExtras, bind, Except.bind, pure, Except.pure]
    · rw [ofTab_other website (Ne.symm overview), ofTab_other extrasOwn (Ne.symm overview)]
      by_cases admission : tab = .admission
      · subst admission
        rw [page] at hasDeadlines
        change mapper.admissionDeadlines found = .ok deadlines at hasDeadlines
        rw [ofTab_self deadlinesOwn]
        simp [onTab, hasDeadlines, bind, Except.bind, pure, Except.pure]
      · rw [ofTab_other deadlinesOwn (Ne.symm admission)]
        simp [onTab, overview, admission, bind, Except.bind, pure, Except.pure]

theorem tabRows_tab {tab : TabName} {page : Page} (mapped : mapper.tabRows tab page year = .ok rows) :
    ∀ row ∈ rows, row.tab = tab := by
  unfold tabRows at mapped
  simp only [Fallible.bind_ok_iff, pure, Except.pure, Except.ok.injEq] at mapped
  obtain ⟨own, ran, extras, hasExtras, deadlines, hasDeadlines, rfl⟩ := mapped
  intro row isIn
  rw [List.mem_append, List.mem_append, List.mem_append] at isIn
  rcases isIn with ((isOwn | website) | extra) | deadline
  · exact mapper.processTab tab page year own ran row isOwn
  · split at website
    case isTrue overview => exact overview ▸ mapper.websiteTab page row website
    case isFalse _ => cases website
  · by_cases overview : tab = .overview
    · rw [onTab, if_pos (by simpa using overview)] at hasExtras
      exact overview ▸ mapper.extrasTab page extras hasExtras row extra
    · rw [onTab, if_neg (by simpa using overview)] at hasExtras
      cases hasExtras
      cases extra
  · by_cases admission : tab = .admission
    · rw [onTab, if_pos (by simpa using admission)] at hasDeadlines
      exact admission ▸ mapper.deadlinesTab page deadlines hasDeadlines row deadline
    · rw [onTab, if_neg (by simpa using admission)] at hasDeadlines
      cases hasDeadlines
      cases deadline

end Mapper
end Counselle.Facts
