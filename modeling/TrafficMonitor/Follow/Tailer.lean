import TrafficMonitor.Follow.Follower
import TrafficMonitor.Storage

/-!
The tailer of a log file. It watches the path from its creation on and can be opened once, which
sets a follower to work from the start of the file.
-/

namespace TrafficMonitor.Follow

inductive Target where
  | missing
  | directory
  | file (content : List UInt8)

structure Tailer where
  path : String
  capacity : Nat
  target : Target
  watched : Bool
  cancelled : Bool
  follower : Option Follower
  linked : Bool

namespace Tailer

def longestQueue : Nat := 2 ^ 61 - 1

def noPath : String := "No path was found."

def noFile : String := "No such file or directory (os error 2)"

def isDirectory : String := "Is a directory (os error 21)"

def create (path : String) (capacity : Nat) (target : Target) : Except Failure Tailer :=
  match target with
  | .missing => .error (.watch .setup path noPath)
  | _ => .ok ⟨path, max capacity 1, target, true, false, none, false⟩

def source? : Target → Option Source
  | .missing => none
  | .directory => some (.unreadable isDirectory)
  | .file content => some (.bytes content)

def opening (path : String) (capacity : Nat) (target : Target) : Except (Halt Failure) Source :=
  match source? target with
  | none => .error (.refused (.openFile path noFile))
  | some source => if capacity ≤ longestQueue then .ok source else .error (.broken .queueTooLong)

def follow (t : Tailer) : Except (Halt Failure) Follower :=
  if !t.watched then .error (.refused (.alreadyOpened t.path))
  else
    (opening t.path t.capacity t.target).map fun source =>
      .start t.path source t.capacity t.cancelled

theorem exists_source_of_follow {t : Tailer} {f : Follower} (h : t.follow = .ok f) :
    ∃ source, f = .start t.path source t.capacity t.cancelled := by
  rw [follow] at h
  split at h
  · cases h
  · cases hopening : opening t.path t.capacity t.target with
    | error halt =>
      rw [hopening] at h
      cases h
    | ok source =>
      rw [hopening] at h
      exact ⟨source, (Except.ok.inj h).symm⟩

/-- Starts to follow the file. The watch is used up even where the file cannot be opened. -/
def start (t : Tailer) : Except (Halt Failure) Unit × Tailer :=
  match t.follow with
  | .error halt => (.error halt, { t with watched := false })
  | .ok follower =>
    (.ok (), { t with watched := false, linked := true, follower := some follower })

def touch (t : Tailer) (change : Follower → Follower) : Option Follower :=
  if t.linked then t.follower.map change else t.follower

def append (t : Tailer) (bytes : List UInt8) : Tailer :=
  match t.target with
  | .directory => t
  | .missing => { t with target := .file bytes }
  | .file content =>
    { t with target := .file (content ++ bytes), follower := t.touch (·.append bytes) }

def remove (t : Tailer) : Tailer :=
  { t with target := .missing, follower := t.touch (·.append []), linked := false }

def cancel (t : Tailer) : Tailer :=
  { t with cancelled := true, follower := t.follower.map (·.cancel) }

def close (t : Tailer) : Tailer := { t.cancel with watched := false }

def settle (t : Tailer) : Tailer := { t with follower := t.follower.map (·.settle) }

def receive (t : Tailer) : Option Item × Tailer :=
  match t.settle.follower with
  | none => (none, t)
  | some f =>
    let (item, f) := f.receive
    (item, { t with follower := some f })

end Tailer

end TrafficMonitor.Follow
