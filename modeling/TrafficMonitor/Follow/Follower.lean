import TrafficMonitor.Failure
import TrafficMonitor.Follow.Line

/-!
The follower of a growing file, in single steps. It reads up to a line feed or the end of what there
is, hands complete lines to a bounded queue, and parks at the end until it is notified of a change.
A line that has no line feed yet is kept for later.
-/

namespace TrafficMonitor.Follow

abbrev Item := Except Failure String

inductive Source where
  | bytes (unread : List UInt8)
  | unreadable (cause : String)

inductive Notice where
  | change
  | failure (cause : String)

inductive Phase where
  | reading
  | delivering (item : Item)
  | parked
  | stopped

structure Follower where
  path : String
  source : Source
  buffer : List UInt8
  phase : Phase
  notices : List Notice
  queue : List Item
  capacity : Nat
  cancelled : Bool

namespace Follower

def start (path : String) (source : Source) (capacity : Nat) (cancelled : Bool) : Follower :=
  ⟨path, source, [], .reading, [], [], capacity, cancelled⟩

def read (f : Follower) : Follower :=
  match f.source with
  | .unreadable cause => { f with phase := .delivering (.error (.read f.path cause)) }
  | .bytes unread =>
    let (piece, rest) := takeLine unread
    let buffer := f.buffer ++ piece
    if piece.isEmpty then { f with phase := .parked }
    else if isComplete piece then
      { f with
        source := .bytes rest
        buffer := []
        phase := .delivering (.ok (lineText buffer)) }
    else { f with source := .bytes rest, buffer }

def Phase.after : Item → Phase
  | .ok _ => .reading
  | .error _ => .stopped

/-- One step, or `none` where there is nothing to do: the follower has stopped, the queue is full,
or there is no notice. Cancellation comes before delivery and before waiting. -/
def step (f : Follower) : Option Follower :=
  match f.phase with
  | .stopped => none
  | .reading => some f.read
  | .delivering item =>
    if f.cancelled then some { f with phase := .stopped }
    else if f.queue.length < f.capacity then
      some { f with queue := f.queue ++ [item], phase := Phase.after item }
    else none
  | .parked =>
    if f.cancelled then some { f with phase := .stopped }
    else
      match f.notices with
      | [] => none
      | .change :: later => some { f with notices := later, phase := .reading }
      | .failure cause :: later =>
        some
          { f with notices := later, phase := .delivering (.error (.watch .waiting f.path cause)) }

def run : Nat → Follower → Follower
  | 0, f => f
  | n + 1, f =>
    match f.step with
    | none => f
    | some g => run n g

def unread (f : Follower) : List UInt8 :=
  match f.source with
  | .bytes unread => unread
  | .unreadable _ => []

def budget (f : Follower) : Nat := 2 * f.unread.length + 2 * f.notices.length + 4

def settle (f : Follower) : Follower := f.run f.budget

def grow (f : Follower) (bytes : List UInt8) : Follower :=
  match f.source with
  | .unreadable _ => f
  | .bytes unread => { f with source := .bytes (unread ++ bytes) }

def breakFile (f : Follower) (cause : String) : Follower := { f with source := .unreadable cause }

def notify (f : Follower) (n : Notice) : Follower := { f with notices := f.notices ++ [n] }

def append (f : Follower) (bytes : List UInt8) : Follower := (f.grow bytes).notify .change

def fail (f : Follower) (cause : String) : Follower := (f.breakFile cause).notify .change

def receive (f : Follower) : Option Item × Follower :=
  (f.queue.head?, { f with queue := f.queue.tail })

def cancel (f : Follower) : Follower := { f with cancelled := true }

def isStopped (f : Follower) : Bool :=
  match f.phase with
  | .stopped => true
  | _ => false

end Follower

end TrafficMonitor.Follow
