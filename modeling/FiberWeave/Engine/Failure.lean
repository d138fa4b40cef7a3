import FiberWeave.ClassFile.Basic
import FiberWeave.FileTree.OsError

/-!
# Why a class is not rewritten

* `ExitStatus` — how a program ended.
* `RewriteFailure` — why an engine gave no rewritten class, with its wording in `message`.
-/

namespace FiberWeave

/-- How a program ended. -/
inductive ExitStatus where
  | code (n : Nat)
  | signal (n : Nat)
  deriving DecidableEq, Repr, Inhabited

namespace ExitStatus

/-- The names of the signals that have one, from the first on. -/
def signalNames : List String :=
  ["SIGHUP", "SIGINT", "SIGQUIT", "SIGILL", "SIGTRAP", "SIGABRT", "SIGBUS", "SIGFPE", "SIGKILL",
    "SIGUSR1", "SIGSEGV", "SIGUSR2", "SIGPIPE", "SIGALRM", "SIGTERM", "SIGSTKFLT", "SIGCHLD",
    "SIGCONT", "SIGSTOP", "SIGTSTP", "SIGTTIN", "SIGTTOU", "SIGURG", "SIGXCPU", "SIGXFSZ",
    "SIGVTALRM", "SIGPROF", "SIGWINCH", "SIGIO", "SIGPWR", "SIGSYS"]

/-- Whether a program ended well. -/
def isSuccess (s : ExitStatus) : Bool := s == .code 0

/-- The wording of an ending. -/
def text : ExitStatus → String
  | code n => s!"exit status: {n}"
  | signal 0 => "signal: 0"
  | signal (n + 1) =>
      match signalNames[n]? with
      | some name => s!"signal: {n + 1} ({name})"
      | none => s!"signal: {n + 1}"

end ExitStatus

/-- Why an engine gave no rewritten class. -/
inductive RewriteFailure where
  /-- The engine rewrites nothing. -/
  | classifiedOnly (className : String)
  | holdsMonitor (className method : String)
  | blocks (className method target : String)
  /-- What the engine wrote is no class file. -/
  | invalidClass (className : String) (cause : ClassFile.Error)
  /-- What the engine wrote is another class. -/
  | misnamed (expected found : String)
  | notStarted (program : String) (cause : OsError)
  | notFinished (cause : OsError)
  | ended (status : ExitStatus) (detail : String)
  | notSent (cause : OsError)
  | noOutput
  /-- An engine's own words. -/
  | stated (message : String)
  deriving DecidableEq, Repr, Inhabited

/-- The wording of a failure. -/
def RewriteFailure.message : RewriteFailure → String
  | classifiedOnly name => s!"Class {name} was only classified"
  | holdsMonitor name method =>
      s!"Method {name}#{method} is synchronized or enters a monitor; "
        ++ "enable allowMonitors to instrument it"
  | blocks name method target =>
      s!"Method {name}#{method} calls blocking method {target}; "
        ++ "enable allowBlocking to instrument it"
  | invalidClass name cause => s!"Rewritten class {name} is invalid: " ++ cause.message
  | misnamed expected found => s!"Rewritten class is named {found} instead of {expected}"
  | notStarted program cause => s!"Failed to execute engine {program}: " ++ cause.message
  | notFinished cause => "Failed to wait for engine: " ++ cause.message
  | ended status detail => "Engine failed (" ++ status.text ++ "): " ++ detail
  | notSent cause => "Failed to send class to engine: " ++ cause.message
  | noOutput => "Engine produced no output"
  | stated message => message

end FiberWeave
