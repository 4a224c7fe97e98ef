import TrafficMonitor.Command.Arguments
import TrafficMonitor.Command.LogFile
import TrafficMonitor.Monitor

/-!
The start and the end of the command. From the arguments, the environment and the files it follows
whether a monitor is set to work, and if not, what the command ends with.
-/

namespace TrafficMonitor.Command

open Follow

structure Surroundings where
  arguments : List String
  environment : List (String × String)
  content : String → Option (List UInt8)
  target : String → Target
  canCreate : LogFile → Bool

inductive Ending where
  | help
  | version
  | misuse (error : UsageError)
  | failed (heading : String) (causes : List String)
  | crashed
  | finished
  deriving DecidableEq, Repr

namespace Ending

def exitCode : Ending → UInt8
  | help | version | finished => 0
  | failed .. => 1
  | misuse _ => 2
  | crashed => 101

def runHeading : String := "Log monitor failed"

def ofFailure (heading : String) (failure : Failure) : Ending :=
  .failed heading (failure.message :: failure.cause?.toList)

def ofHalt (heading : String) : Halt Failure → Ending
  | .refused failure => ofFailure heading failure
  | .broken _ => crashed

def ofResolveError : ResolveError → Ending
  | .load e => .failed e.message []
  | .invalid failure => .ofFailure (ResolveError.invalid failure).heading failure

def ofResult : Except Failure Unit → Ending
  | .ok () => finished
  | .error failure => .ofFailure runHeading failure

def ofSession? (s : Session) : Option Ending :=
  match s.pipeline.stage with
  | .ended result => some (ofResult result)
  | .crashed _ => some crashed
  | _ => none

def errorLines : Ending → List String
  | failed heading causes =>
    let listed := match causes with
      | [] => []
      | [cause] => ["", "Caused by:", "    " ++ cause]
      | causes => ["", "Caused by:"] ++
        causes.zipIdx.map fun (cause, i) => "    " ++ toString i ++ ": " ++ cause
    ("Error: " ++ heading) :: listed
  | _ => []

end Ending

def Surroundings.parse (s : Surroundings) : Except Ending Arguments :=
  match Arguments.parse s.arguments s.environment with
  | .ok arguments => .ok arguments
  | .error .help => .error .help
  | .error .version => .error .version
  | .error (.usage e) => .error (.misuse e)

def Surroundings.logFile? (s : Surroundings) : Option LogFile :=
  match s.parse with
  | .ok arguments => arguments.logFile.map LogFile.ofPath
  | .error _ => none

def Surroundings.openLog (s : Surroundings) : Except Ending Unit :=
  match s.logFile? with
  | none => .ok ()
  | some file => if s.canCreate file then .ok () else .error .crashed

def Surroundings.launch (s : Surroundings) : Except Ending Session := do
  let arguments ← s.parse
  s.openLog
  let settings ← (arguments.resolve s.content).mapError Ending.ofResolveError
  let monitor ← (Monitor.create settings (s.target settings.file) none).mapError
    (Ending.ofHalt "Failed to create log monitor")
  (Session.start monitor).mapError (Ending.ofHalt Ending.runHeading)

end TrafficMonitor.Command
