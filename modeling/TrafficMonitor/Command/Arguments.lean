import TrafficMonitor.Settings.Codec

namespace TrafficMonitor.Command

open Text Time

inductive Flag where
  | file
  | config
  | sections
  | reportingInterval
  | alertWindow
  | alertThreshold
  | quantumMs
  | threads
  | logFile
  deriving DecidableEq, Repr

namespace Flag

def all : List Flag :=
  [file, config, sections, reportingInterval, alertWindow, alertThreshold, quantumMs, threads,
    logFile]

def long : Flag → String
  | file => "file"
  | config => "config"
  | sections => "sections"
  | reportingInterval => "reporting-interval"
  | alertWindow => "alert-window"
  | alertThreshold => "alert-threshold"
  | quantumMs => "quantum-ms"
  | threads => "threads"
  | logFile => "log-file"

def short? : Flag → Option Char
  | file => some 'f'
  | config => some 'c'
  | sections => some 's'
  | reportingInterval => some 'r'
  | alertWindow => some 'w'
  | alertThreshold => some 'a'
  | threads => some 't'
  | quantumMs | logFile => none

def envName (f : Flag) : String :=
  "HTTPMON_" ++ f.long.map fun c => if c == '-' then '_' else c.toUpper

end Flag

structure Arguments where
  file : Option String
  config : Option String
  sections : Option Nat
  reportingInterval : Option Nat
  alertWindow : Option Nat
  alertThreshold : Option Float
  quantumMs : Option Nat
  threads : Option Nat
  logFile : Option String

inductive UsageError where
  | missingValue (flag : Flag)
  | emptyPath (flag : Flag)
  | badValue (flag : Flag)
  | needlessValue
  | repeated (flag : Flag)
  | unknown (argument : String)
  deriving DecidableEq, Repr

inductive Stop where
  | help
  | version
  | usage (error : UsageError)
  deriving DecidableEq, Repr

def versionText : String := "httpmon 0.1.0\n"

def natural? (text : String) : Option Nat :=
  Numeral.ofDigitsUpTo? Numeral.maxWord (match text.toList with
    | '+' :: cs => cs
    | cs => cs)

namespace Arguments

def none : Arguments := ⟨.none, .none, .none, .none, .none, .none, .none, .none, .none⟩

def set (a : Arguments) (flag : Flag) (text : String) : Except UsageError Arguments :=
  let path (store : String → Arguments) : Except UsageError Arguments :=
    if text.isEmpty then .error (.emptyPath flag) else .ok (store text)
  let number (store : Nat → Arguments) : Except UsageError Arguments :=
    match natural? text with
    | .none => .error (.badValue flag)
    | some n => .ok (store n)
  match flag with
  | .file => path fun v => { a with file := v }
  | .config => path fun v => { a with config := v }
  | .sections => number fun n => { a with sections := n }
  | .reportingInterval => number fun n => { a with reportingInterval := n }
  | .alertWindow => number fun n => { a with alertWindow := n }
  | .alertThreshold =>
    match Decimal.Literal.parse? text with
    | .none => .error (.badValue flag)
    | some x => .ok { a with alertThreshold := x }
  | .quantumMs => number fun n => { a with quantumMs := n }
  | .threads => number fun n => { a with threads := n }
  | .logFile => path fun v => { a with logFile := v }

def override (a : Arguments) (s : Settings) : Settings :=
  { s with
    file := a.file.getD s.file
    sections := a.sections.getD s.sections
    reportingInterval := (a.reportingInterval.map Duration.ofSeconds).getD s.reportingInterval
    alertWindow := (a.alertWindow.map Duration.ofSeconds).getD s.alertWindow
    alertThreshold := a.alertThreshold.getD s.alertThreshold
    quantum := (a.quantumMs.map Duration.ofMillis).getD s.quantum }

end Arguments

structure Scan where
  given : List Flag
  arguments : Arguments
  pending : Option (Flag × Option String)
  escaped : Bool

namespace Scan

def start : Scan := ⟨[], .none, none, false⟩

def store (s : Scan) (flag : Flag) (text : String) : Except Stop Scan :=
  if s.given.contains flag then .error (.usage (.repeated flag))
  else
    match s.arguments.set flag text with
    | .error e => .error (.usage e)
    | .ok arguments => .ok { s with given := flag :: s.given, arguments }

def commit (s : Scan) : Except Stop Scan :=
  match s.pending with
  | none => .ok s
  | some (flag, none) => .error (.usage (.missingValue flag))
  | some (flag, some text) => { s with pending := none }.store flag text

def meet (s : Scan) (flag : Flag) (attached : Option String) : Except Stop Scan := do
  let s ← s.commit
  match attached with
  | some text => s.store flag text
  | none => .ok { s with pending := some (flag, none) }

def stop (s : Scan) (request : Stop) : Except Stop Scan := do
  let _ ← s.commit
  .error request

def long (s : Scan) (argument : List Char) : Except Stop Scan :=
  let (name, rest) := argument.span (· ≠ '=')
  let attached := match rest with
    | [] => none
    | _ :: value => some (String.ofList value)
  let name := String.ofList name
  let request (stop : Stop) : Except Stop Scan :=
    if attached.isSome then .error (.usage .needlessValue) else s.stop stop
  if name = "help" then request .help
  else if name = "version" then request .version
  else
    match Flag.all.find? (·.long = name) with
    | none => .error (.usage (.unknown ("--" ++ String.ofList argument)))
    | some flag => s.meet flag attached

def short (s : Scan) (letter : Char) (rest : List Char) : Except Stop Scan :=
  if letter = 'h' then s.stop .help
  else if letter = 'V' then s.stop .version
  else
    match Flag.all.find? (·.short? = some letter) with
    | none => .error (.usage (.unknown (String.ofList ['-', letter])))
    | some flag => s.meet flag (match rest with
      | [] => none
      | '=' :: value => some (String.ofList value)
      | value => some (String.ofList value))

def step (s : Scan) (argument : String) : Except Stop Scan :=
  if s.escaped then .error (.usage (.unknown argument))
  else
    match argument.toList with
    | ['-', '-'] => .ok { s with escaped := true }
    | '-' :: '-' :: rest => s.long rest
    | '-' :: letter :: rest => s.short letter rest
    | _ =>
      match s.pending with
      | some (flag, none) => .ok { s with pending := some (flag, some argument) }
      | _ => .error (.usage (.unknown argument))

def inherit (environment : List (String × String)) (s : Scan) (flag : Flag) : Except Stop Scan :=
  if s.given.contains flag then .ok s
  else
    match environment.lookup flag.envName with
    | none => .ok s
    | some text => s.store flag text

end Scan

def Arguments.parse (arguments : List String) (environment : List (String × String)) :
    Except Stop Arguments := do
  let s ← arguments.foldlM Scan.step Scan.start
  let s ← s.commit
  let s ← Flag.all.foldlM (Scan.inherit environment) s
  .ok s.arguments

inductive ResolveError where
  | load (error : Settings.LoadError)
  | invalid (failure : Failure)

def ResolveError.heading : ResolveError → String
  | .load e => e.message
  | .invalid _ => "Invalid configuration"

def ResolveError.message (e : ResolveError) : String :=
  match e with
  | .load _ => e.heading
  | .invalid failure => e.heading ++ ": " ++ failure.message

def Arguments.resolve (a : Arguments) (readFile : String → Option (List UInt8)) :
    Except ResolveError Settings := do
  let base ← match a.config with
    | .none => .ok Settings.default
    | some path => (Settings.load path (readFile path)).mapError ResolveError.load
  let settings := a.override base
  settings.validate.mapError ResolveError.invalid
  .ok settings

end TrafficMonitor.Command
