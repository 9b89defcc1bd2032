import PhotoImport.Text.Utf8

/-!
# Runs of programs

What is known of a program when it has ended, and how its end is put into words.
-/

namespace PhotoImport

/-- How a process ended. -/
inductive ExitStatus where
  | exited (code : Nat)
  | killed (signal : Nat)
deriving DecidableEq

namespace ExitStatus

/-- Whether the process reports success. -/
def isSuccess (s : ExitStatus) : Bool := s == .exited 0

/-- The names of the signals that a script may end itself with. -/
def signalName : Nat → String
  | 1 => " (SIGHUP)"
  | 2 => " (SIGINT)"
  | 3 => " (SIGQUIT)"
  | 6 => " (SIGABRT)"
  | 9 => " (SIGKILL)"
  | 13 => " (SIGPIPE)"
  | 14 => " (SIGALRM)"
  | 15 => " (SIGTERM)"
  | _ => ""

/-- The end of a process in words. -/
def description : ExitStatus → String
  | .exited code => "exit status: " ++ toString code
  | .killed signal => "signal: " ++ toString signal ++ signalName signal

end ExitStatus

/-- What a program leaves behind when it has ended. -/
structure ProgramRun where
  status : ExitStatus
  output : Bytes
  complaint : Bytes

end PhotoImport
