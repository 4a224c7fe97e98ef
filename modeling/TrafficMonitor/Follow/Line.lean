import TrafficMonitor.Text.LineEnd
import TrafficMonitor.Text.Utf8

namespace TrafficMonitor.Follow

open Text

def lineFeed : UInt8 := 10

def takeLine : List UInt8 → List UInt8 × List UInt8
  | [] => ([], [])
  | b :: bs =>
    if b = lineFeed then ([b], bs)
    else
      let (line, rest) := takeLine bs
      (b :: line, rest)

def isComplete (line : List UInt8) : Bool := line.getLast? == some lineFeed

def lineText (line : List UInt8) : String :=
  String.ofList (trimLineEnds (Utf8.decodeFrom none line))

end TrafficMonitor.Follow
