import TreeLint.Log.Record

/-!
Contract: results that come with records.

Owns:
- `Logged`, a result and what was logged on the way to it;
- `Attempt`, work that logs and may fail. What follows a failure is not done, but what was logged before it is
  kept. The result of work in steps is that of the results, and its records are those of the steps done.
-/

set_option autoImplicit false

namespace TreeLint

/-- A result, and what was logged meanwhile. -/
structure Logged (α : Type) where
  records : List LogRecord
  result : α

/-- Work that logs and may fail. -/
def Attempt (ε α : Type) : Type := Logged (Except ε α)

namespace Attempt

variable {ε δ α β : Type}

def ofExcept (result : Except ε α) : Attempt ε α := ⟨[], result⟩

def done (value : α) : Attempt ε α := ofExcept (.ok value)

def fail (error : ε) : Attempt ε α := ofExcept (.error error)

def log (record : LogRecord) : Attempt ε Unit := ⟨[record], .ok ()⟩

def andThen (first : Attempt ε α) (next : α → Attempt ε β) : Attempt ε β :=
  match first.result with
  | .ok value => ⟨first.records ++ (next value).records, (next value).result⟩
  | .error error => ⟨first.records, .error error⟩

/-- The same work with its errors seen as errors of a wider kind. -/
def mapError (widen : ε → δ) (work : Attempt ε α) : Attempt δ α :=
  ⟨work.records, work.result.mapError widen⟩

instance instMonad : Monad (Attempt ε) where
  pure := done
  bind := andThen

@[simp] theorem result_pure (value : α) : (pure value : Attempt ε α).result = .ok value := rfl

@[simp] theorem records_pure (value : α) : (pure value : Attempt ε α).records = [] := rfl

@[simp] theorem result_ofExcept (result : Except ε α) : (ofExcept result).result = result := rfl

@[simp] theorem result_fail (error : ε) : (fail error : Attempt ε α).result = .error error := rfl

@[simp] theorem result_log (record : LogRecord) : (log record : Attempt ε Unit).result = .ok () := rfl

@[simp] theorem result_mapError (widen : ε → δ) (work : Attempt ε α) :
    (mapError widen work).result = work.result.mapError widen := rfl

/-- The result of two steps is that of their results. -/
@[simp] theorem result_bind (first : Attempt ε α) (next : α → Attempt ε β) :
    (first >>= next).result = first.result.bind fun value => (next value).result := by
  show (andThen first next).result = _
  unfold andThen
  cases first.result <;> rfl

/-- If two steps succeed, the first does, and the second does with its result. -/
theorem exists_of_result_bind {first : Attempt ε α} {next : α → Attempt ε β} {value : β}
    (succeeds : (first >>= next).result = .ok value) :
    ∃ between, first.result = .ok between ∧ (next between).result = .ok value := by
  rw [result_bind] at succeeds
  cases isFirst : first.result with
  | error error =>
      rw [isFirst] at succeeds
      contradiction
  | ok between =>
      rw [isFirst] at succeeds
      exact ⟨between, rfl, succeeds⟩

theorem of_result_mapError {widen : ε → δ} {work : Attempt ε α} {value : α}
    (succeeds : (work.mapError widen).result = .ok value) : work.result = .ok value := by
  rw [result_mapError] at succeeds
  cases isResult : work.result with
  | error error =>
      rw [isResult] at succeeds
      contradiction
  | ok other =>
      rw [isResult] at succeeds
      obtain rfl := Except.ok.inj succeeds
      rfl

end Attempt

end TreeLint
