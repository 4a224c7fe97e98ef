import TrafficMonitor.Document.Value
import TrafficMonitor.Settings.Basic
import TrafficMonitor.Text.Utf8
import TrafficMonitor.Toml.Document

/-!
Settings as documents. Every field has a name and a place in the order; a document names those that
it changes. Intervals are written in whole seconds and the quantum in whole milliseconds.
-/

namespace TrafficMonitor.Settings

open Document Time Text Decimal

structure Field where
  name : String
  encode : Settings → Scalar
  decode : Value → Settings → Option Settings

def natural? (limit : Nat) : Value → Option Nat
  | .scalar (.whole n) => if 0 ≤ n ∧ n ≤ limit then some n.toNat else none
  | _ => none

def real? : Value → Option Float
  | .scalar (.real x) => some x
  | .scalar (.whole n) => some (Binary64.nearest (n < 0) n.natAbs 1)
  | _ => none

def text? : Value → Option String
  | .scalar (.text s) => some s
  | _ => none

def countField (limit : Nat) (name : String) (get : Settings → Nat)
    (set : Nat → Settings → Settings) : Field where
  name := name
  encode s := .whole (get s)
  decode v s := (natural? limit v).map (set · s)

def maxCheckQuanta : Nat := 2 ^ 32 - 1

def wordField : String → (Settings → Nat) → (Nat → Settings → Settings) → Field :=
  countField Numeral.maxWord

def secondsField (name : String) (get : Settings → Duration)
    (set : Duration → Settings → Settings) : Field :=
  wordField name (fun s => (get s).wholeSeconds) fun n => set (.ofSeconds n)

def fields : List Field :=
  [{ name := "file"
     encode := fun s => .text s.file
     decode := fun v s => (text? v).map fun file => { s with file } },
    wordField "sections" (·.sections) fun n s => { s with sections := n },
    secondsField "reporting_interval" (·.reportingInterval) fun d s =>
      { s with reportingInterval := d },
    secondsField "alert_window" (·.alertWindow) fun d s => { s with alertWindow := d },
    { name := "alert_threshold"
      encode := fun s => .real s.alertThreshold
      decode := fun v s => (real? v).map fun x => { s with alertThreshold := x } },
    wordField "quantum" (fun s => min s.quantum.wholeMillis Numeral.maxWord) fun n s =>
      { s with quantum := .ofMillis n },
    countField maxCheckQuanta "alert_check_quanta" (·.alertCheckQuanta) fun n s =>
      { s with alertCheckQuanta := n },
    wordField "size_rotation_threshold" (·.sizeRotationThreshold) fun n s =>
      { s with sizeRotationThreshold := n },
    wordField "size_history" (·.sizeHistory) fun n s => { s with sizeHistory := n },
    wordField "max_recordable_size" (·.maxRecordableSize) fun n s =>
      { s with maxRecordableSize := n },
    wordField "line_buffer" (·.lineBuffer) fun n s => { s with lineBuffer := n }]

def encode (s : Settings) : List (String × Scalar) := fields.map fun f => (f.name, f.encode s)

def decodeTable (entries : List (String × Value)) (s : Settings) : Option Settings :=
  fields.foldlM (fun s f =>
    match entries.lookup f.name with
    | none => some s
    | some v => f.decode v s) s

def decodeList : List Field → List Value → Settings → Option Settings
  | _, [], s => some s
  | [], _ :: _, _ => none
  | f :: fs, v :: vs, s => (f.decode v s).bind (decodeList fs vs)

def decode : Value → Option Settings
  | .table entries => decodeTable entries default
  | .list values => decodeList fields values default
  | _ => none

inductive LoadError where
  | unreadable (path : String)
  | malformed (path : String)
  deriving DecidableEq, Repr

def LoadError.message : LoadError → String
  | .unreadable path => "Failed to read config file '" ++ path ++ "'"
  | .malformed path => "Failed to parse config file '" ++ path ++ "'"

def load (path : String) (content : Option (List UInt8)) : Except LoadError Settings :=
  match content.bind Utf8.decode? with
  | none => .error (.unreadable path)
  | some text =>
    match (Toml.parse? text).bind decode with
    | none => .error (.malformed path)
    | some settings => .ok settings

end TrafficMonitor.Settings
