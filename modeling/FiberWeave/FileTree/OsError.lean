/-!
# Errors of the operating system

* `OsError` — why an operation on files or programs fails.
* `OsError.message` — its wording.
* `Attempt` — what becomes of steps that give a result or an error, for `simp`.
-/

namespace FiberWeave

/-- Why an operation on files or programs fails. -/
inductive OsError where
  | notFound
  | execFormat
  | permissionDenied
  | alreadyExists
  | notDirectory
  | isDirectory
  | brokenPipe
  | nameTooLong
  | notEmpty
  | tooManyLinks
  /-- A path with a NUL character, which no file can have. -/
  | nulInPath
  /-- A program or an argument with a NUL character. -/
  | nulInArgument
  /-- A file that is read as text but is not UTF-8. -/
  | notText
  /-- All names for a temporary file beside a path are taken. -/
  | noTemporaryName (path : String)
  /-- An error known by its wording only. -/
  | stated (message : String)
  deriving DecidableEq, Repr, Inhabited

/-- The wording of an error, with its number if it has one. -/
def OsError.message : OsError → String
  | notFound => "No such file or directory (os error 2)"
  | execFormat => "Exec format error (os error 8)"
  | permissionDenied => "Permission denied (os error 13)"
  | alreadyExists => "File exists (os error 17)"
  | notDirectory => "Not a directory (os error 20)"
  | isDirectory => "Is a directory (os error 21)"
  | brokenPipe => "Broken pipe (os error 32)"
  | nameTooLong => "File name too long (os error 36)"
  | notEmpty => "Directory not empty (os error 39)"
  | tooManyLinks => "Too many levels of symbolic links (os error 40)"
  | nulInPath => "file name contained an unexpected NUL byte"
  | nulInArgument => "nul byte found in provided data"
  | notText => "stream did not contain valid UTF-8"
  | noTemporaryName path => "no free temp file name next to " ++ path
  | stated message => message

/-! ## Steps that give a result or an error -/

namespace Attempt

variable {ε α β : Type}

@[simp] theorem ok_bind (a : α) (f : α → Except ε β) : (Except.ok a >>= f) = f a := rfl

@[simp] theorem error_bind (e : ε) (f : α → Except ε β) : (Except.error e >>= f) = .error e := rfl

@[simp] theorem pure_eq_ok (a : α) : (pure a : Except ε α) = .ok a := rfl

@[simp] theorem throw_eq_error (e : ε) : (throw e : Except ε α) = .error e := rfl

@[simp] theorem map_ok (f : α → β) (a : α) : (Except.ok a : Except ε α).map f = .ok (f a) := rfl

@[simp] theorem map_error (f : α → β) (e : ε) : (Except.error e : Except ε α).map f = .error e := rfl

@[simp] theorem toOption_ok (a : α) : (Except.ok a : Except ε α).toOption = some a := rfl

@[simp] theorem toOption_error (e : ε) : (Except.error e : Except ε α).toOption = none := rfl

/-- What a step that may fail gives, if it gives something. -/
theorem toOption_eq_some_iff {attempt : Except ε α} {a : α} :
    attempt.toOption = some a ↔ attempt = .ok a := by
  cases attempt <;> simp

end Attempt

end FiberWeave
