import TrafficMonitor.Log.Record
import TrafficMonitor.Log.RequestLine
import TrafficMonitor.Log.Section
import TrafficMonitor.Report.Summary
import TrafficMonitor.Settings.Basic
import TrafficMonitor.Sketch.HyperLogLog

/-!
The aggregates of the traffic. A record is folded into each of them on its own: a part of it that
cannot be read leaves out only what it feeds.
-/

namespace TrafficMonitor

open Time Sketch Log

structure Collector where
  totalHits : Nat
  skippedLines : Nat
  sections : TopK
  visitors : HyperLogLog (List UInt8)
  sizes : RollingHistogram
  statuses : StatusCounts
  rotationThreshold : Nat
  ring : Rate.Ring

namespace Collector

def sectionEpsilon : Float := 0.001

def sectionConfidence : Float := 0.99

def visitorErrorRate : Float := 0.01

def sizeDigits : Nat := 3

def create (settings : Settings) : Except (Halt Failure) Collector :=
  match Rate.Ring.create? settings.alertWindow settings.quantum with
  | none => .error (.refused (.invalidWindow settings.alertWindow settings.quantum))
  | some ring =>
    match RollingHistogram.create settings.maxRecordableSize sizeDigits settings.sizeHistory with
    | .error halt => .error (halt.map fun e => .badSetting (.sizeBounds e.message))
    | .ok sizes =>
      match TopK.create sectionEpsilon sectionConfidence settings.sections with
      | .error fault => .error (.broken fault)
      | .ok sections => .ok
        { totalHits := 0
          skippedLines := 0
          sections
          visitors := .empty (HyperLogLog.precisionFor visitorErrorRate) SipHash.hash
          sizes
          statuses := .zero
          rotationThreshold := max settings.sizeRotationThreshold 1
          ring }

def countSection (sections : TopK) (request : String) : TopK :=
  match RequestLine.parse? request with
  | none => sections
  | some line => sections.add (sectionOf line.path)

def recordSize (sizes : RollingHistogram) (total threshold size : Nat) : RollingHistogram :=
  let sizes := sizes.record size
  if total % threshold = 0 then sizes.rotate else sizes

def count (c : Collector) (record : Record) : Collector :=
  let total := c.totalHits + 1
  { c with
    totalHits := total
    sections := countSection c.sections record.request
    visitors := c.visitors.add record.remoteAddr.toUTF8.toList
    sizes := recordSize c.sizes total c.rotationThreshold record.size
    statuses := c.statuses.record record.status }

/-- Folds in a record at the present time. The hit rate comes last: a fault there is reported, with
all else counted. -/
def process (c : Collector) (record : Record) (now : Instant) : Collector × Option Fault :=
  let c := c.count record
  match record.timestamp with
  | none => (c, none)
  | some time =>
    match c.ring.record time.instant now with
    | .error fault => (c, some fault)
    | .ok (_, ring) => ({ c with ring }, none)

theorem exists_process_eq (c : Collector) (record : Record) (now : Instant) :
    ∃ ring, (c.process record now).1 = { c.count record with ring } := by
  rw [process]
  split
  case h_1 => exact ⟨c.ring, rfl⟩
  case h_2 =>
    split
    case h_1 => exact ⟨c.ring, rfl⟩
    case h_2 ring _ => exact ⟨ring, rfl⟩

def skip (c : Collector) : Collector := { c with skippedLines := c.skippedLines + 1 }

def handleLine (c : Collector) (line : String) (now : Instant) : Collector × Option Fault :=
  match Record.parse? line with
  | some record => c.process record now
  | none => (c.skip, none)

def tick (c : Collector) : Collector := { c with ring := c.ring.advance }

def summary (c : Collector) (time : Instant) : Report.Summary where
  time := time
  totalHits := c.totalHits
  skippedLines := c.skippedLines
  topSections := c.sections.elements
  distinctVisitors := c.visitors.count
  sizes := .ofHistogram c.sizes.merge
  statuses := c.statuses
  hitsPerQuantum := c.ring.latest
  quantum := c.ring.quantum
  averageHits := c.ring.average
  window := c.ring.window

end Collector

end TrafficMonitor
