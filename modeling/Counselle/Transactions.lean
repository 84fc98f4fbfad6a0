/-! Blocks of statements inside a database transaction. A block can fail in the caller,
which leaves the transaction usable and its writes in place, or on the server, after
which the transaction can only be rolled back. -/
namespace Counselle.Transactions
universe u v
variable {E F : Type u} {S : Type v} {A B : Type v}

inductive Failure (E : Type u) where
  | raised (error : E)
  | refused

/-- A block: the state it leaves the transaction in, and its result. -/
def Txn (E : Type u) (S A : Type v) := S → S × Except (Failure E) A

namespace Txn

def pure (a : A) : Txn E S A := fun s => (s, .ok a)

def bind (block : Txn E S A) (next : A → Txn E S B) : Txn E S B := fun s =>
  match block s with
  | (t, .ok a) => next a t
  | (t, .error failure) => (t, .error failure)

instance : Monad (Txn E S) where
  pure := Txn.pure
  bind := Txn.bind

def compute (wrap : F → E) (computed : Except F A) : Txn E S A := fun s =>
  (s, computed.mapError fun error => .raised (wrap error))

def read (accepts : Bool) (view : S → A) : Txn E S A := fun s =>
  (s, if accepts then .ok (view s) else .error .refused)

/-- A statement; `none` where a constraint of the table refuses it. -/
def write (accepts : Bool) (change : S → Option (S × A)) : Txn E S A := fun s =>
  match change s with
  | some (t, a) => if accepts then (t, .ok a) else (s, .error .refused)
  | none => (s, .error .refused)

variable {block : Txn E S A} {next : A → Txn E S B} {s t : S}

theorem bind_ok {a : A} (first : block s = (t, .ok a)) : (block >>= next) s = next a t := by
  change Txn.bind block next s = next a t
  simp only [Txn.bind, first]

theorem bind_error {failure : Failure E} (first : block s = (t, .error failure)) :
    (block >>= next) s = (t, .error failure) := by
  change Txn.bind block next s = _
  simp only [Txn.bind, first]

theorem bind_compute_ok {wrap : F → E} {computed : Except F A} {a : A} (ok : computed = .ok a) :
    (compute wrap computed >>= next) s = next a s :=
  bind_ok (by rw [ok]; rfl)

theorem bind_compute_error {wrap : F → E} {computed : Except F A} {error : F}
    (failed : computed = .error error) :
    (compute wrap computed >>= next) s = (s, .error (.raised (wrap error))) :=
  bind_error (by rw [failed]; rfl)

theorem bind_read {accepts : Bool} {view : S → A} (accepted : accepts = true) :
    (read accepts view >>= next) s = next (view s) s :=
  bind_ok (by rw [accepted]; rfl)

theorem bind_read_refused {accepts : Bool} {view : S → A} (refused : accepts = false) :
    (read accepts view >>= next) s = (s, .error .refused) :=
  bind_error (by rw [refused]; rfl)

theorem bind_write {accepts : Bool} {change : S → Option (S × A)} {a : A} (accepted : accepts = true)
    (changed : change s = some (t, a)) : (write accepts change >>= next) s = next a t :=
  bind_ok (by simp [write, accepted, changed])

theorem bind_write_refused {accepts : Bool} {change : S → Option (S × A)}
    (refused : accepts = false ∨ change s = none) :
    (write accepts change >>= next) s = (s, .error .refused) := by
  refine bind_error ?_
  unfold write
  rcases refused with refused | refused
  · rw [refused]
    cases change s <;> rfl
  · rw [refused]

end Txn

/-- `COMMIT` after the exception of the block, if there was one, was swallowed: a
transaction that the server refused a statement of is rolled back to where it began. -/
def commit (began : S) : S × Except (Failure E) A → S
  | (_, .error .refused) => began
  | (ended, _) => ended

@[simp] theorem commit_ok (began ended : S) (a : A) :
    commit began (ended, (.ok a : Except (Failure E) A)) = ended := rfl

@[simp] theorem commit_raised (began ended : S) (error : E) :
    commit began (ended, (.error (.raised error) : Except (Failure E) A)) = ended := rfl

@[simp] theorem commit_refused (began ended : S) :
    commit began (ended, (.error .refused : Except (Failure E) A)) = began := rfl

end Counselle.Transactions
