import TrafficMonitor.Log.Status
import TrafficMonitor.Report.Sink
import TrafficMonitor.Sketch.RollingHistogram
import TrafficMonitor.Sketch.TopK
import TrafficMonitor.Time.Instant
import TrafficMonitor.Decimal.Fixed

/-!
The summary of the traffic at one moment, and the report that shows it. A report is laid out line by
line, and its table only if the sections fit into a column.
-/

namespace TrafficMonitor.Report

open Time Sketch Decimal Log

inductive LayoutFault where
  | columnTooWide
  deriving DecidableEq, Repr

def LayoutFault.message : LayoutFault → String
  | .columnTooWide => "Formatting argument out of range"

structure Summary where
  time : Instant
  totalHits : Nat
  skippedLines : Nat
  topSections : List Element
  distinctVisitors : Nat
  sizes : Distribution
  statuses : StatusCounts
  hitsPerQuantum : Nat
  quantum : Duration
  averageHits : Option Float
  window : Duration

namespace Summary

def latestRate (s : Summary) : Float :=
  let seconds := s.quantum.seconds
  if seconds == 0.0 then 0.0 else Binary64.ofCount s.hitsPerQuantum / seconds

def classifiedHits (s : Summary) : Nat := s.statuses.total

def linesSeen (s : Summary) : Nat := s.totalHits + s.skippedLines

def padRight (width : Nat) (fill : Char) (text : String) : String :=
  text ++ String.ofList (List.replicate (width - text.length) fill)

def widestColumn : Nat := 2 ^ 16 - 1

def sectionWidth (sections : List Element) : Nat :=
  (sections.map (·.key.utf8ByteSize)).foldl max "Section".length

def row (width : Nat) (fill : Char) (left right : String) : String :=
  padRight width fill left ++ "  " ++ right

def sectionTable (sections : List Element) : List String :=
  let width := sectionWidth sections
  row width ' ' "Section" "Hits" :: row width '-' "" "----" ::
    sections.map fun e => row width ' ' e.key (toString e.freq)

def statusLine (s : StatusCounts) : String :=
  "1xx: " ++ toString s.informational ++ ", 2xx: " ++ toString s.successful ++
    ", 3xx: " ++ toString s.redirection ++ ", 4xx: " ++ toString s.clientError ++
    ", 5xx: " ++ toString s.serverError

def sizeLines (d : Distribution) : List String :=
  ["Min response size:\t" ++ toString d.min ++ "B",
    "Median response size:\t" ++ toString d.median ++ "B",
    "Max response size:\t" ++ toString d.max ++ "B",
    "p99 response size:\t" ++ toString d.p99 ++ "B",
    "Mean response size:\t" ++ Fixed.render 2 d.mean ++ "B",
    "Response size std dev:\t" ++ Fixed.render 2 d.deviation ++ "B"]

def heading (s : Summary) : String := "===== SUMMARY [" ++ s.time.shortText ++ "] =================>"

def totalLine (s : Summary) : String := "Total hits:\t\t" ++ toString s.totalHits

def details (s : Summary) : List String :=
  let average := (s.averageHits.map (Fixed.render 2)).getD "n/a"
  ["Unique visitors:\t" ++ toString s.distinctVisitors,
    "Hits/s:\t\t\t" ++ Fixed.render 2 s.latestRate,
    "Mean hits (" ++ s.window.compact ++ "):\t" ++ average] ++
    (if 0 < s.skippedLines then ["Skipped lines:\t\t" ++ toString s.skippedLines] else []) ++
    ["------- Responses -----------------------", statusLine s.statuses] ++
    sizeLines s.sizes ++
    ["-----------------------------------------"]

def lines (s : Summary) : List String :=
  s.heading :: sectionTable s.topSections ++ s.totalLine :: s.details

def text (s : Summary) : String := "\n".intercalate s.lines

def render (s : Summary) : Except LayoutFault String :=
  if sectionWidth s.topSections ≤ widestColumn then .ok s.text else .error .columnTooWide

/-- Writes the report as its lines are laid out: of one without a table the heading is written. A sink
that takes nothing ends the layout at the heading. -/
def writeTo (s : Summary) (sink : Sink) : Sink × Option LayoutFault :=
  if sink.failing then (sink, none)
  else
    match s.render with
    | .ok text => (sink.writeLine text, none)
    | .error fault => (sink.writeLine s.heading, some fault)

end Summary

end TrafficMonitor.Report
