import Mathlib.Data.List.Induction
import Mathlib.Data.List.TakeWhile
import Mathlib.Data.Rat.Floor
import Mathlib.Tactic.Linarith

/-! The in-process rate limiter: each caller has sliding windows of hits, and a request is
admitted only if every window that it counts in has room. Clock readings are exact. -/
namespace Counselle.RateLimit

inductive Kind where
  | turnsHour
  | turnsDay
  | auth
  | workspace
  | satWrite
  | satRead
deriving DecidableEq

def Kind.label : Kind → String
  | .turnsHour => "turns:h:"
  | .turnsDay => "turns:d:"
  | .auth => "auth:"
  | .workspace => "workspace:m:"
  | .satWrite => "sat:w:"
  | .satRead => "sat:r:"

/-- One window of one caller: a user id, or an address. -/
structure Bucket where
  kind : Kind
  caller : String
deriving DecidableEq

def Bucket.key (b : Bucket) : String := b.kind.label ++ b.caller

structure Settings where
  turnsPerHour : Int
  turnsPerDay : Int
  authAttemptsPerWindow : Int
  authWindowSeconds : Int
  workspaceWritesPerMinute : Int
  satWritesPerMinute : Int
  satQuestionReadsPerMinute : Int

def Settings.limit (settings : Settings) : Kind → Int
  | .turnsHour => settings.turnsPerHour
  | .turnsDay => settings.turnsPerDay
  | .auth => settings.authAttemptsPerWindow
  | .workspace => settings.workspaceWritesPerMinute
  | .satWrite => settings.satWritesPerMinute
  | .satRead => settings.satQuestionReadsPerMinute

def Settings.window (settings : Settings) : Kind → Int
  | .turnsHour => 3600
  | .turnsDay => 86400
  | .auth => settings.authWindowSeconds
  | .workspace | .satWrite | .satRead => 60

/-- `_hits`: a key that the dict lacks has an empty deque. -/
abbrev Hits := String → List ℚ

inductive Verdict where
  | allow
  | retry (seconds : ℚ)
  /-- `hits[0]` of an empty deque -/
  | raises
deriving DecidableEq

/-- `retry or 0.0` -/
def Verdict.seconds : Verdict → ℚ
  | .retry seconds => seconds
  | .allow | .raises => 0

variable (settings : Settings)

/-- The hits that are left when those up to the cutoff are popped. -/
def kept (b : Bucket) (now : ℚ) (held : List ℚ) : List ℚ :=
  held.dropWhile fun hit => hit ≤ now - settings.window b.kind

def verdict (b : Bucket) (now : ℚ) (held : List ℚ) : Verdict :=
  if settings.limit b.kind ≤ held.length then
    match held with
    | [] => .raises
    | oldest :: _ => .retry (max 0 (oldest + settings.window b.kind - now))
  else .allow

def peek (b : Bucket) (now : ℚ) (hits : Hits) : Hits × Verdict :=
  let held := kept settings b now (hits b.key)
  (Function.update hits b.key held, verdict settings b now held)

def record (b : Bucket) (now : ℚ) (hits : Hits) : Hits :=
  Function.update hits b.key (hits b.key ++ [now])

def check (b : Bucket) (now : ℚ) (hits : Hits) : Hits × Verdict :=
  match peek settings b now hits with
  | (pruned, .allow) => (record b now pruned, .allow)
  | refused => refused

def checkMessage (userId : String) (now : ℚ) (hits : Hits) : Hits × Verdict :=
  let hour : Bucket := ⟨.turnsHour, userId⟩
  let day : Bucket := ⟨.turnsDay, userId⟩
  match peek settings hour now hits with
  | (pruned, .raises) => (pruned, .raises)
  | (pruned, hourRetry) =>
    match hourRetry, peek settings day now pruned with
    | _, (pruned, .raises) => (pruned, .raises)
    -- both windows have to admit before either records a hit
    | .allow, (pruned, .allow) => (record day now (record hour now pruned), .allow)
    | _, (pruned, dayRetry) => (pruned, .retry (max hourRetry.seconds dayRetry.seconds))

/-- The calls of the limiter by the routes. -/
inductive Request where
  | message (userId : String)
  | auth (ip : String)
  | workspace (userId : String)
  | satWrite (userId : String)
  | satRead (userId : String)
deriving DecidableEq

def handle (now : ℚ) (hits : Hits) : Request → Hits × Verdict
  | .message userId => checkMessage settings userId now hits
  | .auth ip => check settings ⟨.auth, ip⟩ now hits
  | .workspace userId => check settings ⟨.workspace, userId⟩ now hits
  | .satWrite userId => check settings ⟨.satWrite, userId⟩ now hits
  | .satRead userId => check settings ⟨.satRead, userId⟩ now hits

/-- The header of a refusal. -/
def retryAfter (seconds : ℚ) : Int := max 1 ⌈seconds⌉

structure Limiter where
  hits : Hits
  /-- history: what was admitted, and when -/
  served : List (ℚ × Request)

def start : Limiter := ⟨fun _ => [], []⟩

def serve (l : Limiter) (event : ℚ × Request) : Limiter :=
  let answer := handle settings event.1 l.hits event.2
  ⟨answer.1, if answer.2 = .allow then l.served ++ [event] else l.served⟩

def Request.buckets : Request → List Bucket
  | .message userId => [⟨.turnsHour, userId⟩, ⟨.turnsDay, userId⟩]
  | .auth ip => [⟨.auth, ip⟩]
  | .workspace userId => [⟨.workspace, userId⟩]
  | .satWrite userId => [⟨.satWrite, userId⟩]
  | .satRead userId => [⟨.satRead, userId⟩]

/-- The times at which requests that count in a bucket were admitted. -/
def admittedIn (b : Bucket) (served : List (ℚ × Request)) : List ℚ :=
  (served.filter fun event => b ∈ event.2.buckets).map Prod.fst

/-- How many of the times lie in the window that ends at a time. -/
def recent (b : Bucket) (now : ℚ) (times : List ℚ) : Nat :=
  times.countP fun time => now - settings.window b.kind < time ∧ time ≤ now

theorem key_eq {b c : Bucket} : b.key = c.key ↔ b = c := by
  refine ⟨fun same => ?_, congrArg _⟩
  obtain ⟨kind, caller⟩ := b
  obtain ⟨kind', caller'⟩ := c
  have chars := congrArg String.toList same
  clear same
  cases kind <;> cases kind' <;>
    simp [Bucket.key, Kind.label, String.toList_append, String.toList_inj] at chars ⊢ <;> exact chars

variable {settings}

theorem verdict_allow {b : Bucket} {now : ℚ} {held : List ℚ} :
    verdict settings b now held = .allow ↔ (held.length : Int) < settings.limit b.kind := by
  unfold verdict
  split
  case isTrue full => cases held <;> simpa using full
  case isFalse room => simpa using room

theorem verdict_ne_raises (positive : ∀ kind, 0 < settings.limit kind) (b : Bucket) (now : ℚ)
    (held : List ℚ) : verdict settings b now held ≠ .raises := by
  unfold verdict
  split
  case isTrue full =>
    cases held with
    | nil => exact absurd full (not_le.mpr (positive b.kind))
    | cons oldest rest => simp
  case isFalse => simp

theorem kept_kept {b : Bucket} {now later : ℚ} (order : now ≤ later) (held : List ℚ) :
    kept settings b later (kept settings b now held) = kept settings b later held := by
  induction held with
  | nil => rfl
  | cons hit rest ih =>
    unfold kept at ih ⊢
    by_cases old : hit ≤ now - settings.window b.kind
    · have older : hit ≤ later - settings.window b.kind := by linarith
      rw [List.dropWhile_cons_of_pos (by simpa using old), ih,
        List.dropWhile_cons_of_pos (by simpa using older)]
    · rw [List.dropWhile_cons_of_neg (by simpa using old)]

theorem length_kept_le (b : Bucket) (now : ℚ) (held : List ℚ) :
    (kept settings b now held).length ≤ held.length := (List.dropWhile_sublist _).length_le

theorem room_iff (positive : ∀ kind, 0 < settings.limit kind) {b : Bucket} {now later : ℚ}
    {hits : List ℚ} (few : (hits.length : Int) ≤ settings.limit b.kind) (order : now ≤ later) :
    ((kept settings b later hits).length : Int) < settings.limit b.kind ↔
      now + (verdict settings b now (kept settings b now hits)).seconds ≤ later := by
  rw [← kept_kept order]
  have short := @length_kept_le settings b now hits
  generalize kept settings b now hits = held at short ⊢
  have shorter := @length_kept_le settings b later held
  by_cases full : settings.limit b.kind ≤ held.length
  · cases held with
    | nil => exact absurd full (not_le.mpr (positive b.kind))
    | cons oldest rest =>
      have retry : verdict settings b now (oldest :: rest) =
          .retry (max 0 (oldest + settings.window b.kind - now)) := if_pos full
      have opens : now + max 0 (oldest + settings.window b.kind - now) ≤ later ↔
          oldest ≤ later - settings.window b.kind := by
        rw [← le_sub_iff_add_le', max_le_iff]
        constructor
        · rintro ⟨_, late⟩
          linarith
        · intro old
          exact ⟨by linarith, by linarith⟩
      rw [retry, Verdict.seconds, opens]
      by_cases old : oldest ≤ later - settings.window b.kind
      · have dropped := @length_kept_le settings b later rest
        have pops : kept settings b later (oldest :: rest) = kept settings b later rest :=
          List.dropWhile_cons_of_pos (by simpa using old)
        rw [pops]
        simp only [List.length_cons] at short
        exact iff_of_true (by omega) old
      · have stays : kept settings b later (oldest :: rest) = oldest :: rest :=
          List.dropWhile_cons_of_neg (by simpa using old)
        rw [stays]
        exact iff_of_false (by omega) old
  · have room : verdict settings b now held = .allow := verdict_allow.mpr (by omega)
    rw [room]
    exact iff_of_true (by omega) (by simpa [Verdict.seconds] using order)

/-- What comes of a request: its windows are pruned, and take a hit if all of them have room. -/
structure Answers (settings : Settings) (now : ℚ) (hits : Hits) (r : Request) (answer : Hits × Verdict) :
    Prop where
  windows : ∀ b : Bucket, answer.1 b.key =
    if b ∈ r.buckets then
      kept settings b now (hits b.key) ++ if answer.2 = .allow then [now] else []
    else hits b.key
  admits : answer.2 = .allow ↔ ∀ b ∈ r.buckets, (peek settings b now hits).2 = .allow
  retries : answer.2 = .allow ∨ ∃ seconds, answer.2 = .retry seconds ∧
    ∀ later, now ≤ later → ((∀ b ∈ r.buckets, now + (peek settings b now hits).2.seconds ≤ later) ↔
      now + seconds ≤ later)

theorem check_answers (positive : ∀ kind, 0 < settings.limit kind) (now : ℚ) (hits : Hits)
    {r : Request} {b : Bucket} (one : r.buckets = [b]) :
    Answers settings now hits r (check settings b now hits) := by
  have sound := verdict_ne_raises positive b now (kept settings b now (hits b.key))
  have other : ∀ c : Bucket, c ≠ b → c.key ≠ b.key := fun c apart same => apart (key_eq.mp same)
  unfold check
  cases found : verdict settings b now (kept settings b now (hits b.key)) with
  | raises => exact absurd found sound
  | allow =>
    simp only [peek, found]
    refine ⟨fun c => ?_, by simp [one, peek, found], .inl rfl⟩
    by_cases same : c = b
    · simp [one, same, record]
    · simp [one, same, record, other c same]
  | retry seconds =>
    simp only [peek, found]
    refine ⟨fun c => ?_, by simp [one, peek, found],
      .inr ⟨seconds, rfl, by simp [one, peek, found, Verdict.seconds]⟩⟩
    by_cases same : c = b
    · simp [one, same]
    · simp [one, same, other c same]

theorem checkMessage_answers (positive : ∀ kind, 0 < settings.limit kind) (userId : String) (now : ℚ)
    (hits : Hits) :
    Answers settings now hits (.message userId) (checkMessage settings userId now hits) := by
  have hour := verdict_ne_raises positive ⟨.turnsHour, userId⟩ now
    (kept settings ⟨.turnsHour, userId⟩ now (hits (Bucket.key ⟨.turnsHour, userId⟩)))
  have day := verdict_ne_raises positive ⟨.turnsDay, userId⟩ now
    (kept settings ⟨.turnsDay, userId⟩ now (hits (Bucket.key ⟨.turnsDay, userId⟩)))
  have keys : Bucket.key ⟨.turnsDay, userId⟩ ≠ Bucket.key ⟨.turnsHour, userId⟩ := by simp [key_eq]
  have windows (answer : Hits × Verdict) (more : List ℚ)
      (added : more = if answer.2 = .allow then [now] else [])
      (same : answer.1 = Function.update (Function.update hits (Bucket.key ⟨.turnsHour, userId⟩)
        (kept settings ⟨.turnsHour, userId⟩ now (hits (Bucket.key ⟨.turnsHour, userId⟩)) ++ more))
        (Bucket.key ⟨.turnsDay, userId⟩)
        (kept settings ⟨.turnsDay, userId⟩ now (hits (Bucket.key ⟨.turnsDay, userId⟩)) ++ more))
      (c : Bucket) : answer.1 c.key = if c ∈ (Request.message userId).buckets then
        kept settings c now (hits c.key) ++ if answer.2 = .allow then [now] else [] else hits c.key := by
    rw [same, ← added]
    simp only [Function.update_apply, key_eq, Request.buckets, List.mem_cons, List.not_mem_nil, or_false]
    by_cases isDay : c = ⟨.turnsDay, userId⟩
    · simp [isDay]
    · by_cases isHour : c = ⟨.turnsHour, userId⟩ <;> simp [isDay, isHour]
  simp only [checkMessage, peek, Function.update_of_ne keys]
  cases hourly : verdict settings ⟨.turnsHour, userId⟩ now
    (kept settings ⟨.turnsHour, userId⟩ now (hits (Bucket.key ⟨.turnsHour, userId⟩))) with
  | raises => exact absurd hourly hour
  | allow =>
    cases daily : verdict settings ⟨.turnsDay, userId⟩ now
      (kept settings ⟨.turnsDay, userId⟩ now (hits (Bucket.key ⟨.turnsDay, userId⟩))) with
    | raises => exact absurd daily day
    | allow =>
      refine ⟨windows _ [now] rfl ?_, by simp [Request.buckets, peek, hourly, daily], .inl rfl⟩
      simp only [record, Function.update_self, Function.update_of_ne keys, Function.update_of_ne keys.symm]
      rw [Function.update_comm keys.symm, Function.update_idem, Function.update_comm keys, Function.update_idem]
    | retry seconds =>
      refine ⟨windows _ [] rfl (by simp), by simp [Request.buckets, peek, daily], .inr ⟨_, rfl, ?_⟩⟩
      intro later order
      simp [Request.buckets, peek, hourly, daily, Verdict.seconds, order, add_max]
  | retry seconds =>
    cases daily : verdict settings ⟨.turnsDay, userId⟩ now
      (kept settings ⟨.turnsDay, userId⟩ now (hits (Bucket.key ⟨.turnsDay, userId⟩))) with
    | raises => exact absurd daily day
    | _ =>
      refine ⟨windows _ [] rfl (by simp), by simp [Request.buckets, peek, hourly], .inr ⟨_, rfl, ?_⟩⟩
      intro later order
      simp [Request.buckets, peek, hourly, daily, Verdict.seconds, add_max]

theorem handle_answers (positive : ∀ kind, 0 < settings.limit kind) (now : ℚ) (hits : Hits)
    (r : Request) : Answers settings now hits r (handle settings now hits r) := by
  cases r with
  | message userId => exact checkMessage_answers positive userId now hits
  | auth ip => exact check_answers positive now hits rfl
  | workspace userId => exact check_answers positive now hits rfl
  | satWrite userId => exact check_answers positive now hits rfl
  | satRead userId => exact check_answers positive now hits rfl

/-- What a window holds, by the admitted times that count in it. -/
structure Tracks (settings : Settings) (b : Bucket) (now : ℚ) (times held : List ℚ) : Prop where
  split : ∃ old, times = old ++ held ∧ ∀ time ∈ old, time ≤ now - settings.window b.kind
  sorted : times.Pairwise (· ≤ ·)
  past : ∀ time ∈ times, time ≤ now
  few : (held.length : Int) ≤ settings.limit b.kind
  bounded : ∀ moment, (recent settings b moment times : Int) ≤ settings.limit b.kind

theorem Tracks.prune {b : Bucket} {now later : ℚ} {times held : List ℚ} (tracks : Tracks settings b now times held)
    (order : now ≤ later) : Tracks settings b later times (kept settings b later held) := by
  obtain ⟨⟨old, parts, gone⟩, sorted, past, few, bounded⟩ := tracks
  refine ⟨⟨old ++ held.takeWhile fun hit => hit ≤ later - settings.window b.kind, ?_, ?_⟩, sorted,
    fun time isIn => (past time isIn).trans order, ?_, bounded⟩
  · rw [parts, List.append_assoc, kept, List.takeWhile_append_dropWhile]
  · intro time isIn
    rcases List.mem_append.mp isIn with early | popped
    · linarith [gone time early]
    · simpa using List.mem_takeWhile_imp popped
  · have := @length_kept_le settings b later held
    omega

theorem Tracks.recent_eq {b : Bucket} {now : ℚ} {times held : List ℚ} (tracks : Tracks settings b now times held) :
    recent settings b now times = (kept settings b now held).length := by
  obtain ⟨old, parts, gone⟩ := (tracks.prune le_rfl).split
  have young : ∀ time ∈ kept settings b now held, now - settings.window b.kind < time := by
    have inOrder : (kept settings b now held).Pairwise (· ≤ ·) := by
      have := tracks.sorted
      rw [parts] at this
      exact (List.pairwise_append.mp this).2.1
    cases found : kept settings b now held with
    | nil => simp
    | cons oldest rest =>
      rw [found] at inOrder
      have first : now - settings.window b.kind < oldest := by
        have popped : held.dropWhile (fun hit => hit ≤ now - settings.window b.kind) = oldest :: rest := found
        have := List.head_dropWhile_not (fun hit => decide (hit ≤ now - settings.window b.kind))
          (l := held) (by rw [popped]; simp)
        simpa [popped] using this
      intro time isIn
      rcases List.mem_cons.mp isIn with rfl | isIn
      · exact first
      · exact first.trans_le (List.rel_of_pairwise_cons inOrder isIn)
  rw [recent, parts, List.countP_append, List.countP_eq_zero.mpr, List.countP_eq_length.mpr, Nat.zero_add]
  · intro time isIn
    simpa using ⟨young time isIn, tracks.past time (by rw [parts]; simp [isIn])⟩
  · intro time isIn
    simpa using fun recent => absurd (gone time isIn) (not_le.mpr recent)

theorem Tracks.hit {b : Bucket} {now : ℚ} {times held : List ℚ} (tracks : Tracks settings b now times held)
    (room : ((kept settings b now held).length : Int) < settings.limit b.kind) :
    Tracks settings b now (times ++ [now]) (kept settings b now held ++ [now]) := by
  have before := tracks.recent_eq
  obtain ⟨⟨old, parts, gone⟩, sorted, past, few, bounded⟩ := tracks.prune le_rfl
  refine ⟨⟨old, by rw [parts, List.append_assoc], gone⟩, ?_, ?_, by simp; omega, fun moment => ?_⟩
  · exact List.pairwise_append.mpr ⟨sorted, List.pairwise_singleton _ _, by simpa using past⟩
  · simpa [or_imp, forall_and] using past
  · rw [recent, List.countP_append, ← recent]
    by_cases reached : now ≤ moment
    · have fewer : recent settings b moment times ≤ recent settings b now times := by
        refine List.countP_mono_left ?_
        intro time isIn young
        simp only [decide_eq_true_eq] at young ⊢
        exact ⟨by linarith, past time isIn⟩
      have one := List.countP_le_length (l := [now])
        (p := fun time => decide (moment - settings.window b.kind < time ∧ time ≤ moment))
      simp only [List.length_singleton] at one
      push_cast
      omega
    · have none_ : [now].countP (fun time => decide (moment - settings.window b.kind < time ∧ time ≤ moment)) = 0 := by
        simp [reached]
      rw [none_]
      exact bounded moment

def Inv (settings : Settings) (l : Limiter) (now : ℚ) : Prop :=
  ∀ b : Bucket, Tracks settings b now (admittedIn b l.served) (l.hits b.key)

theorem Inv.later {l : Limiter} {now later : ℚ} (inv : Inv settings l now) (order : now ≤ later) :
    Inv settings l later := by
  intro b
  obtain ⟨⟨old, parts, gone⟩, sorted, past, few, bounded⟩ := inv b
  exact ⟨⟨old, parts, fun time isIn => by linarith [gone time isIn]⟩, sorted,
    fun time isIn => (past time isIn).trans order, few, bounded⟩

theorem Inv.serve (positive : ∀ kind, 0 < settings.limit kind) {l : Limiter} {event : ℚ × Request}
    (inv : Inv settings l event.1) : Inv settings (serve settings l event) event.1 := by
  have answers := handle_answers positive event.1 l.hits event.2
  intro b
  have windows := answers.windows b
  simp only [RateLimit.serve, windows]
  by_cases counts : b ∈ event.2.buckets
  · by_cases admitted : (handle settings event.1 l.hits event.2).2 = .allow
    · have room := verdict_allow.mp (answers.admits.mp admitted b counts)
      simpa [admittedIn, List.filter_append, counts, admitted] using (inv b).hit room
    · simpa [counts, admitted] using (inv b).prune le_rfl
  · have same : admittedIn b (if (handle settings event.1 l.hits event.2).2 = .allow then l.served ++ [event]
        else l.served) = admittedIn b l.served := by
      split <;> simp [admittedIn, List.filter_append, counts]
    rw [if_neg counts, same]
    exact inv b

theorem inv_run (positive : ∀ kind, 0 < settings.limit kind) {events : List (ℚ × Request)} {now : ℚ}
    (ordered : events.Pairwise fun a b => a.1 ≤ b.1) (past : ∀ event ∈ events, event.1 ≤ now) :
    Inv settings (events.foldl (serve settings) start) now := by
  induction events using List.reverseRecOn generalizing now with
  | nil =>
    intro b
    refine ⟨⟨[], rfl, by simp⟩, by simp [start, admittedIn], by simp [start, admittedIn], ?_, ?_⟩ <;>
      simpa [start, admittedIn, recent] using (positive b.kind).le
  | append_singleton before event ih =>
    obtain ⟨earlier, _, last⟩ := List.pairwise_append.mp ordered
    rw [List.foldl_append]
    have inv := ih earlier fun e isIn => last e isIn event (List.mem_singleton_self _)
    exact (inv.serve positive).later (past event (by simp))

/-- A request is admitted exactly if in each of its windows fewer requests were admitted than
the window's limit; and no window, wherever it is placed, has more admitted requests than that. -/
theorem admitted_below_caps (settings : Settings) (positive : ∀ kind, 0 < settings.limit kind)
    (events : List (ℚ × Request)) (next : ℚ × Request)
    (ordered : (events ++ [next]).Pairwise fun a b => a.1 ≤ b.1) :
    let l := events.foldl (serve settings) start
    ((handle settings next.1 l.hits next.2).2 = .allow ↔ ∀ b ∈ next.2.buckets,
      (recent settings b next.1 (admittedIn b l.served) : Int) < settings.limit b.kind) ∧
    ∀ (b : Bucket) (moment : ℚ),
      (recent settings b moment (admittedIn b l.served) : Int) ≤ settings.limit b.kind := by
  obtain ⟨earlier, _, last⟩ := List.pairwise_append.mp ordered
  have inv := inv_run positive earlier fun e isIn => last e isIn next (List.mem_singleton_self _)
  refine ⟨?_, fun b => (inv b).bounded⟩
  rw [(handle_answers positive next.1 _ next.2).admits]
  refine forall₂_congr fun b _ => ?_
  rw [(inv b).recent_eq]
  exact verdict_allow

/-- One message an hour and two a day. -/
def strict : Settings := ⟨1, 2, 10, 60, 240, 120, 600⟩

theorem strict_positive (kind : Kind) : 0 < strict.limit kind := by
  cases kind <;> decide

theorem admitted_below_caps_second :
    let l := [(0, Request.message "u")].foldl (serve strict) start
    ((handle strict 3600 l.hits (.message "u")).2 = .allow ↔ ∀ b ∈ (Request.message "u").buckets,
      (recent strict b 3600 (admittedIn b l.served) : Int) < strict.limit b.kind) ∧
    ∀ (b : Bucket) (moment : ℚ),
      (recent strict b moment (admittedIn b l.served) : Int) ≤ strict.limit b.kind :=
  admitted_below_caps strict strict_positive [(0, .message "u")] (3600, .message "u") (by norm_num)

theorem hits_others (positive : ∀ kind, 0 < settings.limit kind) {b : Bucket} {between : List (ℚ × Request)}
    (others : ∀ event ∈ between, b ∉ event.2.buckets) (l : Limiter) :
    (between.foldl (serve settings) l).hits b.key = l.hits b.key := by
  induction between generalizing l with
  | nil => rfl
  | cons event rest ih =>
    rw [List.foldl_cons, ih fun e isIn => others e (List.mem_cons_of_mem _ isIn)]
    exact ((handle_answers positive event.1 l.hits event.2).windows b).trans
      (if_neg (others event List.mem_cons_self))

end Counselle.RateLimit
