namespace TrafficMonitor.Report

structure Sink where
  written : String
  failing : Bool
  deriving DecidableEq, Repr

namespace Sink

def empty : Sink := ⟨"", false⟩

def writeLine (s : Sink) (text : String) : Sink :=
  if s.failing then s else { s with written := s.written ++ text ++ "\n" }

def drain (s : Sink) : String × Sink := (s.written, { s with written := "" })

end Sink

end TrafficMonitor.Report
