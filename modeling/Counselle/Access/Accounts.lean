import Counselle.Transition
import Mathlib.Data.List.Nodup

/-! A student's account and the login sessions, challenges and reset links that are good for it.
Every write rechecks, under the lock of the row that it depends on, what its request has read
before, at whatever time; so each write is one step. -/
namespace Counselle.Accounts
open Transition

structure UserDB where
  email : String
  hashedPassword : Option String
  isActive : Bool
  isVerified : Bool
  credentialRevision : Nat
deriving DecidableEq

/-- A row of `auth_sessions`. -/
structure AccessToken where
  tokenHash : String
  authenticatedAt : Option Int
  expiresAt : Int
  /-- history: the user whom the login authenticated -/
  user : UserDB
deriving DecidableEq

inductive Purpose where
  | emailChange
  | reauthenticate
deriving DecidableEq

/-- A row of `auth_action_tokens`, one for each purpose. -/
structure ActionToken where
  tokenHash : String
  purpose : Purpose
  sessionHash : Option String
  email : String
  expiresAt : Int
  user : UserDB
deriving DecidableEq

/-- The claims of a signed reset link. -/
structure ResetLink where
  email : String
  passwordFgpt : String
  credentialRevision : Nat
deriving DecidableEq

/-- The settings, PostgreSQL's `lower`, and whether a text is a hash of another one. -/
structure AuthEnv where
  lifetimeSeconds : Int
  recentSeconds : Int
  lower : String → String
  verify : String → String → Bool

structure Account where
  user : UserDB
  sessions : List AccessToken
  actionTokens : List ActionToken
  now : Int
  /-- history: the row at every time so far -/
  rows : List UserDB
  /-- history: the reset links that were sent -/
  links : List ResetLink
  /-- history: those that set a password, the newest first -/
  accepted : List ResetLink

namespace Account

def opened (user : UserDB) (now : Int) : Account := ⟨user, [], [], now, [user], [], []⟩

def setUser (s : Account) (user : UserDB) : Account := { s with user, rows := user :: s.rows }

/-- A deleted session takes its challenge with it. -/
def deleteSessions (s : Account) (gone : AccessToken → Bool) : Account :=
  let left := s.sessions.filter fun session => !gone session
  { s with
    sessions := left
    actionTokens := s.actionTokens.filter fun token =>
      token.sessionHash.all fun hash => left.any fun session => session.tokenHash = hash }

def revokeUserSessions (s : Account) : Account := s.deleteSessions fun _ => true

/-- The row is still the one that was read, as `WHERE` asks under the lock. -/
def isStill (s : Account) (seen : UserDB) : Bool :=
  s.user.email = seen.email && s.user.hashedPassword = seen.hashedPassword && s.user.isActive &&
    s.user.credentialRevision = seen.credentialRevision

def liveSession (s : Account) (hash : String) (recent : Option Int) : Bool :=
  s.sessions.any fun session => session.tokenHash = hash && s.now < session.expiresAt &&
    recent.all fun seconds => session.authenticatedAt.any fun time => s.now - seconds ≤ time && time ≤ s.now

def lockAccountSession (s : Account) (seen : UserDB) (hash : String) (recent : Option Int) : Bool :=
  s.isStill seen && s.liveSession hash recent

/-- `ON CONFLICT(user_id,purpose) DO UPDATE`; the hash of a new token is new. -/
def challenge (s : Account) (token : ActionToken) : Option Account :=
  if token.tokenHash ∈ s.actionTokens.map (·.tokenHash) then none
  else some { s with actionTokens := token :: s.actionTokens.filter fun old => old.purpose ≠ token.purpose }

/-- The credentials change, and every session goes. -/
def advance (s : Account) (user : UserDB) : Account :=
  (s.setUser { user with credentialRevision := s.user.credentialRevision + 1 }).revokeUserSessions

def replacePassword (env : AuthEnv) (s : Account) (seen : UserDB) (hashed : String)
    (sessionHash : Option String) : Option Account :=
  if (sessionHash.all fun hash => s.lockAccountSession seen hash (some env.recentSeconds)) && s.isStill seen then
    some { s.advance { s.user with hashedPassword := some hashed } with actionTokens := [] }
  else none

end Account

/-- The writes, each with what its request has read and drawn. -/
inductive Action where
  /-- `create`, of a session for the user whom a login authenticated -/
  | login (seen : UserDB) (tokenHash : String) (authenticatedAt : Option Int)
  | upgradePasswordHash (seen : UserDB) (hashed : String)
  | changePassword (seen : UserDB) (sessionHash hashed : String)
  | forgotPassword (seen : UserDB) (fingerprint : String)
  | resetPassword (seen : UserDB) (link : ResetLink) (hashed : String)
  | requestEmailChange (seen : UserDB) (sessionHash email tokenHash : String) (expiresAt : Int) (occupied : Bool)
  | confirmEmail (tokenHash : String) (occupied : Bool)
  | requestReauthentication (seen : UserDB) (sessionHash tokenHash : String) (expiresAt : Int)
  | confirmReauthentication (seen : UserDB) (sessionHash tokenHash : String)
  /-- `update` of a session, once a credential was checked -/
  | markSessionRecent (sessionHash : String) (authenticatedAt : Int)
  | verifyEmail (seen : UserDB)
  /-- `update` of a user: the columns that are set -/
  | update (email : Option String) (hashedPassword : Option (Option String)) (isActive isVerified : Option Bool)
  | logout (sessionHash : String)
  | logoutAll
  | passes (now : Int)

/-- The row that the request has read, and that its write asks to be still there. -/
def Action.seen : Action → Option UserDB
  | .login seen _ _ | .upgradePasswordHash seen _ | .changePassword seen _ _ | .forgotPassword seen _
  | .resetPassword seen _ _ | .requestEmailChange seen _ _ _ _ _ | .requestReauthentication seen _ _ _
  | .confirmReauthentication seen _ _ | .verifyEmail seen => some seen
  | _ => none

/-- The write compares the credentials' revision with the one read. -/
def Action.relies : Action → Bool
  | .forgotPassword _ _ | .verifyEmail _ => false
  | action => action.seen.isSome

def Action.changesCredentials : Action → Bool
  | .changePassword _ _ _ | .resetPassword _ _ _ | .confirmEmail _ _ => true
  | .update email hashedPassword _ _ => email.isSome || hashedPassword.isSome
  | _ => false

open Account in
def step (env : AuthEnv) (s : Account) (action : Action) : Option Account :=
  if action.seen.any fun seen => seen ∉ s.rows then none
  else match action with
  | .login seen tokenHash authenticatedAt =>
    if s.user.isActive && s.user.hashedPassword = seen.hashedPassword &&
        env.lower s.user.email = env.lower seen.email &&
        s.user.credentialRevision = seen.credentialRevision && tokenHash ∉ s.sessions.map (·.tokenHash) then
      some { s with
        sessions := ⟨tokenHash, authenticatedAt, s.now + env.lifetimeSeconds, seen⟩ :: s.sessions }
    else none
  | .upgradePasswordHash seen hashed =>
    if s.isStill seen && seen.hashedPassword.isSome then
      some (s.setUser { s.user with hashedPassword := some hashed })
    else none
  | .changePassword seen sessionHash hashed =>
    if seen.isVerified then s.replacePassword env seen hashed (some sessionHash) else none
  | .forgotPassword seen fingerprint =>
    if seen.isActive && seen.hashedPassword.any fun hashed => env.verify hashed fingerprint then
      some { s with links := ⟨seen.email, fingerprint, seen.credentialRevision⟩ :: s.links }
    else none
  | .resetPassword seen link hashed =>
    if link ∈ s.links && link.email = seen.email && link.credentialRevision = seen.credentialRevision &&
        seen.isActive && seen.hashedPassword.any fun old => env.verify old link.passwordFgpt then
      (s.replacePassword env seen hashed none).map fun t => { t with accepted := link :: t.accepted }
    else none
  | .requestEmailChange seen sessionHash email tokenHash expiresAt occupied =>
    if s.lockAccountSession seen sessionHash (some env.recentSeconds) && !occupied then
      s.challenge ⟨tokenHash, .emailChange, none, email, expiresAt, seen⟩
    else none
  | .confirmEmail tokenHash occupied =>
    match s.actionTokens.find? fun token => token.tokenHash = tokenHash && token.purpose = .emailChange &&
      s.now < token.expiresAt with
    | some token =>
      -- a unique violation rolls the transaction back
      if s.user.isActive && !occupied then
        some ({ s with actionTokens := s.actionTokens.filter fun other => other.tokenHash ≠ tokenHash }.advance
          { s.user with email := token.email, isVerified := true })
      else none
    | none => none
  | .requestReauthentication seen sessionHash tokenHash expiresAt =>
    if seen.isVerified && s.lockAccountSession seen sessionHash none then
      s.challenge ⟨tokenHash, .reauthenticate, some sessionHash, seen.email, expiresAt, seen⟩
    else none
  | .confirmReauthentication seen sessionHash tokenHash =>
    if s.lockAccountSession seen sessionHash none && s.actionTokens.any fun token =>
        token.tokenHash = tokenHash && token.purpose = .reauthenticate && token.email = seen.email &&
          token.sessionHash = some sessionHash && s.now < token.expiresAt then
      some { s with
        actionTokens := s.actionTokens.filter fun token => token.tokenHash ≠ tokenHash
        sessions := s.sessions.map fun session =>
          if session.tokenHash = sessionHash then { session with authenticatedAt := some s.now } else session }
    else none
  | .markSessionRecent sessionHash authenticatedAt =>
    if s.liveSession sessionHash none then
      some { s with
        sessions := s.sessions.map fun session =>
          if session.tokenHash = sessionHash then { session with authenticatedAt := some authenticatedAt }
          else session }
    else none
  | .verifyEmail seen =>
    if s.user.email = seen.email && !s.user.isVerified && s.user.isActive then
      some (s.setUser { s.user with isVerified := true })
    else none
  | .update email hashedPassword isActive isVerified =>
    let user := { s.user with
      email := email.getD s.user.email
      hashedPassword := hashedPassword.getD s.user.hashedPassword
      isActive := isActive.getD s.user.isActive
      isVerified := isVerified.getD s.user.isVerified }
    some (if email.isSome || hashedPassword.isSome then { s.advance user with actionTokens := [] }
      else s.setUser user)
  | .logout sessionHash => some (s.deleteSessions fun session => session.tokenHash = sessionHash)
  | .logoutAll => some s.revokeUserSessions
  | .passes now => if s.now ≤ now then some { s with now } else none

/-- The row has the email address and the credentials that the account has now. -/
def Account.Has (s : Account) (row : UserDB) : Prop :=
  row.credentialRevision = s.user.credentialRevision ∧ row.email = s.user.email

/-- Sessions and challenges for the account as it is; a challenge of a session stands beside it. -/
structure Account.Serve (s : Account) (sessions : List AccessToken) (actionTokens : List ActionToken) : Prop where
  users : ∀ session ∈ sessions, s.Has session.user
  askers : ∀ token ∈ actionTokens, s.Has token.user
  purposes : (actionTokens.map (·.purpose)).Nodup
  bound : ∀ token ∈ actionTokens, token.purpose = .reauthenticate →
    ∃ session ∈ sessions, token.sessionHash = some session.tokenHash

structure Account.Current (s : Account) : Prop extends s.Serve s.sessions s.actionTokens where
  rows : ∀ row ∈ s.rows, row.credentialRevision ≤ s.user.credentialRevision ∧
    (row.credentialRevision = s.user.credentialRevision → row.email = s.user.email)
  accepted : (s.accepted.map (·.credentialRevision)).Pairwise (· > ·) ∧
    ∀ link ∈ s.accepted, link.credentialRevision < s.user.credentialRevision

/-- What a write does: it leaves the credentials, with sessions and challenges for them only,
or it changes them and takes all sessions and challenges away. -/
inductive Writes (s t : Account) : Prop where
  | keeps (user : s.Has t.user) (accepted : t.accepted = s.accepted)
      (rows : ∀ row ∈ t.rows, row ∈ s.rows ∨ row = t.user)
      (serve : s.Serve t.sessions t.actionTokens)
  | changes (next : t.user.credentialRevision = s.user.credentialRevision + 1)
      (rows : ∀ row ∈ t.rows, row ∈ s.rows ∨ row = t.user)
      (accepted : t.accepted = s.accepted ∨ ∃ link, t.accepted = link :: s.accepted ∧
        link.credentialRevision = s.user.credentialRevision)
      (sessions : t.sessions = []) (actionTokens : t.actionTokens = [])

theorem Account.Current.writes {s t : Account} (current : s.Current) (writes : Writes s t) : t.Current := by
  cases writes with
  | keeps user accepted rows serve =>
    have has : ∀ row, s.Has row → t.Has row := fun row here =>
      ⟨here.1.trans user.1.symm, here.2.trans user.2.symm⟩
    refine ⟨⟨fun session isIn => has _ (serve.users session isIn),
      fun token isIn => has _ (serve.askers token isIn), serve.purposes, serve.bound⟩, fun row isIn => ?_, ?_⟩
    · rcases rows row isIn with old | rfl
      · rw [user.1, user.2]
        exact current.rows row old
      · exact ⟨Nat.le_refl _, fun _ => rfl⟩
    · rw [accepted, user.1]
      exact current.accepted
  | changes next rows accepted sessions actionTokens =>
    refine ⟨by rw [sessions, actionTokens]; exact ⟨nofun, nofun, List.nodup_nil, nofun⟩, fun row isIn => ?_, ?_⟩
    · rcases rows row isIn with old | rfl
      · have := (current.rows row old).1
        exact ⟨by omega, fun same => by omega⟩
      · exact ⟨Nat.le_refl _, fun _ => rfl⟩
    · rw [next]
      have older := current.accepted.2
      rcases accepted with same | ⟨link, more, own⟩
      · rw [same]
        exact ⟨current.accepted.1, fun link isIn => Nat.lt_succ_of_lt (older link isIn)⟩
      · rw [more, List.map_cons, List.pairwise_cons]
        refine ⟨⟨by simpa [own] using older, current.accepted.1⟩, ?_⟩
        intro one isIn
        rcases List.mem_cons.mp isIn with rfl | old
        · omega
        · exact Nat.lt_succ_of_lt (older one old)

theorem Account.isStill_has {s : Account} {seen : UserDB} (still : s.isStill seen = true) : s.Has seen := by
  simp only [Account.isStill, Bool.and_eq_true, decide_eq_true_eq] at still
  exact ⟨still.2.symm, still.1.1.1.symm⟩

theorem Account.Current.deleteSessions {s : Account} (current : s.Current) (gone : AccessToken → Bool) :
    Writes s (s.deleteSessions gone) := by
  refine .keeps ⟨rfl, rfl⟩ rfl (fun row isIn => .inl isIn)
    ⟨fun session isIn => current.users session (List.mem_of_mem_filter isIn),
      fun token isIn => current.askers token (List.mem_of_mem_filter isIn),
      current.purposes.sublist ((List.filter_sublist).map _), fun token isIn reauthenticates => ?_⟩
  obtain ⟨old, bound⟩ := List.mem_filter.mp isIn
  obtain ⟨session, _, hash⟩ := current.bound token old reauthenticates
  rw [hash, Option.all_some, List.any_eq_true] at bound
  obtain ⟨left, isLeft, same⟩ := bound
  exact ⟨left, isLeft, by rw [hash, of_decide_eq_true same]⟩

theorem Account.Current.setUser {s : Account} (current : s.Current) {user : UserDB} (has : s.Has user) :
    Writes s (s.setUser user) :=
  .keeps has rfl (fun _ isIn => (List.mem_cons.mp isIn).symm) current.toServe

theorem Account.Current.reauthenticated {s : Account} (current : s.Current) (hash : String) (time : Int)
    (left : ActionToken → Bool) :
    Writes s { s with
      actionTokens := s.actionTokens.filter left
      sessions := s.sessions.map fun session =>
        if session.tokenHash = hash then { session with authenticatedAt := some time } else session } := by
  refine .keeps ⟨rfl, rfl⟩ rfl (fun row isIn => .inl isIn)
    ⟨?_, fun token isIn => current.askers token (List.mem_of_mem_filter isIn),
      current.purposes.sublist ((List.filter_sublist).map _), fun token isIn reauthenticates => ?_⟩
  · intro session isIn
    obtain ⟨old, wasIn, rfl⟩ := List.mem_map.mp isIn
    have := current.users old wasIn
    split <;> exact this
  · obtain ⟨session, wasIn, bound⟩ := current.bound token (List.mem_of_mem_filter isIn) reauthenticates
    refine ⟨_, List.mem_map.mpr ⟨session, wasIn, rfl⟩, ?_⟩
    rw [bound]
    split <;> rfl

theorem Account.Current.challenge {s t : Account} (current : s.Current) {token : ActionToken}
    (has : s.Has token.user) (bound : token.purpose = .reauthenticate →
      ∃ session ∈ s.sessions, token.sessionHash = some session.tokenHash)
    (stored : s.challenge token = some t) : Writes s t := by
  simp only [Account.challenge, Option.ite_none_left_eq_some, Option.some.injEq] at stored
  obtain ⟨_, rfl⟩ := stored
  refine .keeps ⟨rfl, rfl⟩ rfl (fun row isIn => .inl isIn) ⟨current.users, ?_, ?_, ?_⟩
  · intro other isIn
    rcases List.mem_cons.mp isIn with rfl | old
    · exact has
    · exact current.askers other (List.mem_of_mem_filter old)
  · rw [List.map_cons, List.nodup_cons]
    refine ⟨fun isIn => ?_, current.purposes.sublist ((List.filter_sublist).map _)⟩
    obtain ⟨other, left, same⟩ := List.mem_map.mp isIn
    simpa [same] using (List.mem_filter.mp left).2
  · intro other isIn
    rcases List.mem_cons.mp isIn with rfl | old
    · exact bound
    · exact current.bound other (List.mem_of_mem_filter old)

theorem liveSession_mem {s : Account} {hash : String} {recent : Option Int}
    (live : s.liveSession hash recent = true) : ∃ session ∈ s.sessions, some hash = some session.tokenHash := by
  obtain ⟨session, isIn, holds⟩ := List.any_eq_true.mp live
  simp only [Bool.and_eq_true, decide_eq_true_eq] at holds
  exact ⟨session, isIn, by rw [holds.1.1]⟩

theorem replacePassword_writes {env : AuthEnv} {s t : Account} {seen : UserDB} {hashed : String}
    {sessionHash : Option String} (replaced : s.replacePassword env seen hashed sessionHash = some t) :
    s.isStill seen = true ∧ t = { s.advance { s.user with hashedPassword := some hashed } with actionTokens := [] } := by
  simp only [Account.replacePassword, Option.ite_none_right_eq_some, Option.some.injEq, Bool.and_eq_true] at replaced
  exact ⟨replaced.1.2, replaced.2.symm⟩

theorem sessions_advance (s : Account) (user : UserDB) : (s.advance user).sessions = [] := by
  simp [Account.advance, Account.revokeUserSessions, Account.deleteSessions]

theorem step_writes {env : AuthEnv} {s t : Account} {action : Action} (current : s.Current)
    (taken : step env s action = some t) : Writes s t := by
  simp only [step, Option.ite_none_left_eq_some] at taken
  obtain ⟨read, taken⟩ := taken
  have known {seen : UserDB} (reads : action.seen = some seen) : seen ∈ s.rows := by
    simpa [reads] using read
  clear read
  have old : ∀ row ∈ s.rows, row ∈ s.rows ∨ row = s.user := fun row isIn => .inl isIn
  cases action with
  | login seen tokenHash authenticatedAt =>
    simp only [Option.ite_none_right_eq_some, Option.some.injEq, Bool.and_eq_true, decide_eq_true_eq] at taken
    obtain ⟨⟨⟨_, revision⟩, _⟩, rfl⟩ := taken
    have has : s.Has seen := ⟨revision.symm, (current.rows seen (known rfl)).2 revision.symm⟩
    refine .keeps ⟨rfl, rfl⟩ rfl old ⟨by simpa [has] using current.users, current.askers, current.purposes,
      fun token isIn reauthenticates => ?_⟩
    obtain ⟨session, isIn, bound⟩ := current.bound token isIn reauthenticates
    exact ⟨session, List.mem_cons_of_mem _ isIn, bound⟩
  | upgradePasswordHash seen hashed =>
    obtain ⟨_, rfl⟩ := guarded taken
    exact current.setUser ⟨rfl, rfl⟩
  | changePassword seen sessionHash hashed =>
    simp only [Option.ite_none_right_eq_some] at taken
    obtain ⟨_, rfl⟩ := replacePassword_writes taken.2
    exact .changes rfl (fun row isIn => (List.mem_cons.mp isIn).symm) (.inl rfl) (sessions_advance _ _) rfl
  | forgotPassword seen fingerprint =>
    obtain ⟨_, rfl⟩ := guarded taken
    exact .keeps ⟨rfl, rfl⟩ rfl old current.toServe
  | resetPassword seen link hashed =>
    simp only [Option.ite_none_right_eq_some, Bool.and_eq_true, decide_eq_true_eq, Option.map_eq_some_iff] at taken
    obtain ⟨⟨⟨⟨_, revision⟩, _⟩, _⟩, middle, replaced, rfl⟩ := taken
    obtain ⟨still, rfl⟩ := replacePassword_writes replaced
    exact .changes rfl (fun row isIn => (List.mem_cons.mp isIn).symm)
      (.inr ⟨link, rfl, revision.trans (Account.isStill_has still).1⟩) (sessions_advance _ _) rfl
  | requestEmailChange seen sessionHash email tokenHash expiresAt occupied =>
    simp only [Option.ite_none_right_eq_some, Bool.and_eq_true, Account.lockAccountSession] at taken
    exact current.challenge (Account.isStill_has taken.1.1.1) (by simp) taken.2
  | confirmEmail tokenHash occupied =>
    dsimp only at taken
    split at taken
    case h_1 token found =>
      obtain ⟨_, rfl⟩ := guarded taken
      have isIn := List.mem_of_find?_eq_some found
      have confirms := List.find?_some found
      simp only [Bool.and_eq_true, decide_eq_true_eq] at confirms
      refine .changes rfl (fun row isIn => (List.mem_cons.mp isIn).symm) (.inl rfl) (sessions_advance _ _) ?_
      refine List.eq_nil_iff_forall_not_mem.mpr fun other left => ?_
      -- a challenge without a session is one of an email change, so it is the confirmed one
      obtain ⟨stays, loose⟩ := List.mem_filter.mp left
      obtain ⟨wasIn, apart⟩ := List.mem_filter.mp stays
      have emailChange : other.purpose = .emailChange := by
        cases purpose : other.purpose with
        | emailChange => rfl
        | reauthenticate =>
          obtain ⟨session, _, bound⟩ := current.bound other wasIn purpose
          simp [bound] at loose
      have same := List.inj_on_of_nodup_map current.purposes wasIn isIn (emailChange.trans confirms.1.2.symm)
      simp [same, confirms.1.1] at apart
    case h_2 => cases taken
  | requestReauthentication seen sessionHash tokenHash expiresAt =>
    simp only [Option.ite_none_right_eq_some, Bool.and_eq_true, Account.lockAccountSession] at taken
    exact current.challenge (Account.isStill_has taken.1.2.1) (fun _ => liveSession_mem taken.1.2.2) taken.2
  | confirmReauthentication seen sessionHash tokenHash =>
    obtain ⟨_, rfl⟩ := guarded taken
    exact current.reauthenticated sessionHash s.now _
  | markSessionRecent sessionHash authenticatedAt =>
    obtain ⟨_, rfl⟩ := guarded taken
    simpa using current.reauthenticated sessionHash authenticatedAt fun _ => true
  | verifyEmail seen =>
    obtain ⟨_, rfl⟩ := guarded taken
    exact current.setUser ⟨rfl, rfl⟩
  | update email hashedPassword isActive isVerified =>
    simp only [Option.some.injEq] at taken
    subst taken
    split
    case isTrue =>
      exact .changes rfl (fun row isIn => (List.mem_cons.mp isIn).symm) (.inl rfl) (sessions_advance _ _) rfl
    case isFalse unchanged =>
      simp only [Bool.or_eq_true, not_or, Option.not_isSome_iff_eq_none] at unchanged
      exact current.setUser ⟨rfl, by simp [unchanged.1]⟩
  | logout sessionHash =>
    cases taken
    exact current.deleteSessions _
  | logoutAll =>
    cases taken
    exact current.deleteSessions _
  | passes now =>
    obtain ⟨_, rfl⟩ := guarded taken
    exact .keeps ⟨rfl, rfl⟩ rfl old current.toServe

theorem Account.Current.opened (user : UserDB) (now : Int) : (Account.opened user now).Current := by
  refine ⟨⟨nofun, nofun, List.nodup_nil, nofun⟩, ?_, ?_⟩ <;> simp [Account.opened]

/-- Whatever requests overlap, every session and every challenge was opened for the credentials
and the email address that the account has now: none outlives a change of them. -/
theorem access_is_current (env : AuthEnv) (user : UserDB) (now : Int) (actions : List Action) (t : Account)
    (path : run (step env) (Account.opened user now) actions = some t) :
    (∀ session ∈ t.sessions, t.Has session.user) ∧ ∀ token ∈ t.actionTokens, t.Has token.user := by
  have current : t.Current := invariant (fun before taken => before.writes (step_writes before taken))
    (.opened user now) path
  exact ⟨current.users, current.askers⟩

/-- The reset links that set a password were sent under distinct credentials, and none of
them, nor any other one for these credentials, is taken again. -/
theorem reset_links_once (env : AuthEnv) (user : UserDB) (now : Int) (actions : List Action) (t : Account)
    (path : run (step env) (Account.opened user now) actions = some t) :
    (t.accepted.map (·.credentialRevision)).Nodup ∧ ∀ used ∈ t.accepted, ∀ seen link hashed,
      link.credentialRevision = used.credentialRevision → step env t (.resetPassword seen link hashed) = none := by
  have current : t.Current := invariant (fun before taken => before.writes (step_writes before taken))
    (.opened user now) path
  refine ⟨current.accepted.1.imp fun later => (Nat.ne_of_gt later), ?_⟩
  intro used isIn seen link hashed same
  by_contra taken
  obtain ⟨u, taken⟩ := Option.ne_none_iff_exists'.mp taken
  simp only [step, Option.ite_none_left_eq_some, Option.ite_none_right_eq_some, Bool.and_eq_true,
    decide_eq_true_eq, Option.map_eq_some_iff] at taken
  obtain ⟨_, ⟨⟨⟨_, revision⟩, _⟩, _⟩, middle, replaced, _⟩ := taken
  have still := (Account.isStill_has (replacePassword_writes replaced).1).1
  have := current.accepted.2 used isIn
  omega

theorem step_changes {env : AuthEnv} {s t : Account} {action : Action} (taken : step env s action = some t)
    (changes : action.changesCredentials = true) :
    t.user.credentialRevision = s.user.credentialRevision + 1 := by
  simp only [step, Option.ite_none_left_eq_some] at taken
  obtain ⟨_, taken⟩ := taken
  cases action with
  | changePassword seen sessionHash hashed =>
    simp only [Option.ite_none_right_eq_some] at taken
    rw [(replacePassword_writes taken.2).2]
    rfl
  | resetPassword seen link hashed =>
    simp only [Option.ite_none_right_eq_some, Option.map_eq_some_iff] at taken
    obtain ⟨_, middle, replaced, rfl⟩ := taken
    rw [(replacePassword_writes replaced).2]
    rfl
  | confirmEmail tokenHash occupied =>
    dsimp only at taken
    split at taken
    case h_1 =>
      obtain ⟨_, rfl⟩ := guarded taken
      rfl
    case h_2 => cases taken
  | update email hashedPassword isActive isVerified =>
    simp only [Option.some.injEq] at taken
    subst taken
    rw [if_pos (show (email.isSome || hashedPassword.isSome) = true from changes)]
    rfl
  | _ => cases changes

theorem run_revision {env : AuthEnv} {actions : List Action} {s t : Account} (current : s.Current)
    (path : run (step env) s actions = some t) :
    s.user.credentialRevision ≤ t.user.credentialRevision ∧
      (actions.any Action.changesCredentials = true → s.user.credentialRevision < t.user.credentialRevision) := by
  induction actions generalizing s with
  | nil =>
    cases path
    exact ⟨Nat.le_refl _, by simp⟩
  | cons action rest ih =>
    obtain ⟨middle, taken, path⟩ := run_cons path
    have writes := step_writes current taken
    obtain ⟨later, changed⟩ := ih (current.writes writes) path
    have grows : s.user.credentialRevision ≤ middle.user.credentialRevision := by
      cases writes with
      | keeps user => exact Nat.le_of_eq user.1.symm
      | changes next => omega
    refine ⟨Nat.le_trans grows later, fun some_ => ?_⟩
    rw [List.any_cons, Bool.or_eq_true] at some_
    rcases some_ with here | there
    · have := step_changes taken here
      omega
    · have := changed there
      omega

/-- A request that has read the account before a change of its credentials writes nothing after it,
also when the old password and the old address are back. -/
theorem stale_requests_refused (env : AuthEnv) (user : UserDB) (now : Int) (first second : List Action) (s t : Account)
    (before : run (step env) (Account.opened user now) first = some s)
    (between : run (step env) s second = some t) (changed : second.any Action.changesCredentials = true)
    (seen : UserDB) (wasRead : seen ∈ s.rows) (action : Action) (reads : action.seen = some seen)
    (relies : action.relies = true) : step env t action = none := by
  have current : s.Current := invariant (fun before taken => before.writes (step_writes before taken))
    (.opened user now) before
  have stale : t.user.credentialRevision ≠ seen.credentialRevision := by
    have := (current.rows seen wasRead).1
    have := (run_revision current between).2 changed
    omega
  have moved : t.isStill seen = false := by simp [Account.isStill, stale]
  cases action <;> cases reads <;>
    simp_all [step, Action.relies, Account.replacePassword, Account.lockAccountSession]

def plainEnv : AuthEnv := ⟨3600, 600, id, fun hashed text => hashed = text⟩

def student : UserDB := ⟨"a@b", some "old", true, true, 0⟩

def renewed : UserDB := { student with hashedPassword := some "new", credentialRevision := 1 }

/-- Two logins, and a reset between them. -/
def recovered : List Action :=
  [.login student "x" none, .forgotPassword student "old",
    .resetPassword student ⟨"a@b", "old", 0⟩ "new", .login renewed "y" (some 5)]

theorem access_is_current_recovered : ∃ t,
    run (step plainEnv) (Account.opened student 0) recovered = some t ∧
      (∀ session ∈ t.sessions, t.Has session.user) ∧ ∀ token ∈ t.actionTokens, t.Has token.user :=
  ⟨_, rfl, access_is_current plainEnv student 0 recovered _ rfl⟩

theorem reset_links_once_recovered : ∃ t,
    run (step plainEnv) (Account.opened student 0) recovered = some t ∧
      (t.accepted.map (·.credentialRevision)).Nodup ∧ ∀ used ∈ t.accepted, ∀ seen link hashed,
        link.credentialRevision = used.credentialRevision →
          step plainEnv t (.resetPassword seen link hashed) = none :=
  ⟨_, rfl, reset_links_once plainEnv student 0 recovered _ rfl⟩

theorem stale_requests_refused_recovered : ∃ t,
    run (step plainEnv) (Account.opened student 0) recovered = some t ∧
      step plainEnv t (.login student "z" none) = none :=
  ⟨_, rfl, stale_requests_refused plainEnv student 0 [] recovered _ _ rfl rfl rfl student
    (List.mem_singleton_self _) (.login student "z" none) rfl rfl⟩

end Counselle.Accounts
