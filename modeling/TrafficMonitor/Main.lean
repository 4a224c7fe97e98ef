import Std.Async.Signal
import Std.Time.DateTime.Timestamp
import TrafficMonitor.Command.Launch
import TrafficMonitor.Command.Usage

namespace TrafficMonitor.Main

open Command Follow Time

def chunkSize : USize := 65536

def pause : UInt32 := 20

def present : IO Instant := do
  let t ← Std.Time.Timestamp.now
  let nanos := t.toNanosecondsSinceUnixEpoch.val
  return ⟨nanos / 1000000000, (nanos % 1000000000).toNat⟩

structure Diary where
  file : Option IO.FS.Handle

def Diary.note (d : Diary) (level message : String) : IO Unit := do
  let line := (← present).longText ++ " " ++ level ++ " httpmon: " ++ message
  IO.eprintln line
  if let some file := d.file then
    file.putStrLn line
    file.flush

def environment : IO (List (String × String)) :=
  Flag.all.filterMapM fun flag => do
    return (← IO.getEnv flag.envName).map fun value => (flag.envName, value)

def content? (path : String) : IO (Option (List UInt8)) := do
  try
    return some (← IO.FS.readBinFile path).toList
  catch _ => return none

def probe (path : String) : IO (Target × Option IO.FS.Handle) := do
  let file? : Option IO.FS.Handle ←
    try
      pure (some (← IO.FS.Handle.mk path .read))
    catch _ => pure none
  match file? with
  | none => return (.missing, none)
  | some file =>
    try
      return (.file (← file.read chunkSize).toList, some file)
    catch _ => return (.directory, none)

def openDiary? (file? : Option LogFile) : IO (Option Diary) := do
  match file? with
  | none => return some ⟨none⟩
  | some file =>
    try
      IO.FS.createDirAll file.directory
      return some ⟨some (← IO.FS.Handle.mk file.path .append)⟩
    catch e =>
      IO.eprintln ("failed to create " ++ file.path ++ ": " ++ toString e)
      return none

def survey (arguments : List String) : IO (Surroundings × Diary × Option IO.FS.Handle) := do
  let bare : Surroundings :=
    { arguments, environment := ← environment
      content := fun _ => none, target := fun _ => .missing, canCreate := fun _ => true }
  let some diary ← openDiary? bare.logFile?
    | return ({ bare with canCreate := fun _ => false }, ⟨none⟩, none)
  match bare.parse with
  | .error _ => return (bare, diary, none)
  | .ok given =>
    let config ← match given.config with
      | none => pure none
      | some path => content? path
    let content := fun path => if some path = given.config then config else none
    match given.resolve content with
    | .error _ => return ({ bare with content }, diary, none)
    | .ok settings =>
      let (target, file) ← probe settings.file
      let targetOf := fun path => if path = settings.file then target else .missing
      return ({ bare with content, target := targetOf }, diary, file)

def listen : IO (IO Bool) := do
  let interrupt ← (← Std.Async.Signal.Waiter.mk .sigint false).wait
  let terminate ← (← Std.Async.Signal.Waiter.mk .sigterm false).wait
  return do
    return (← IO.hasFinished interrupt) || (← IO.hasFinished terminate)

def feed (file? : Option IO.FS.Handle) (s : Session) : IO (Bool × Session) := do
  match file? with
  | none => return (false, s)
  | some file =>
    try
      let bytes ← file.read chunkSize
      if bytes.isEmpty then return (false, s) else return (true, s.append bytes.toList)
    catch e => return (false, s.fail (toString e))

partial def keep (diary : Diary) (file? : Option IO.FS.Handle) (stopping : IO Bool) (before : Nat)
    (s : Session) : IO (Ending × Session) := do
  let skipped := s.collector.skippedLines
  let (fed, s) ← feed file? s
  let s := s.settle (← present)
  if skipped < s.collector.skippedLines then
    diary.note "WARN" "Skipping log lines not in Common Log Format"
  let now ← IO.monoNanosNow
  let (text, s) := (s.advance (← present) ⟨now - before⟩).drain
  unless text.isEmpty do
    let out ← IO.getStdout
    out.putStr text
    out.flush
  match Ending.ofSession? s with
  | some ending => return (ending, s)
  | none =>
    if !s.isCancelled && (← stopping) then
      diary.note "INFO" "Stopping monitor..."
      keep diary file? stopping now s.stop
    else
      unless fed do IO.sleep pause
      keep diary file? stopping now s

def report (ending : Ending) : IO UInt32 := do
  match ending with
  | .help => helpLines.forM fun line => IO.println line
  | .version => IO.print versionText
  | .misuse e => IO.eprintln ("error: " ++ e.message)
  | .failed .. | .crashed | .finished => ending.errorLines.forM fun line => IO.eprintln line
  return ending.exitCode.toUInt32

def run (arguments : List String) : IO UInt32 := do
  let (around, diary, file?) ← survey arguments
  match around.launch with
  | .error ending => report ending
  | .ok session =>
    let stopping ← listen
    diary.note "INFO" "Starting monitor..."
    let (ending, session) ← keep diary file? stopping (← IO.monoNanosNow) session
    diary.note "INFO" ("Monitor stopped total_hits=" ++ toString session.collector.totalHits)
    report ending

end TrafficMonitor.Main

def main (arguments : List String) : IO UInt32 := TrafficMonitor.Main.run arguments
