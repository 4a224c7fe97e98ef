import TrafficMonitor.Failure

namespace TrafficMonitor

open Time

structure Settings where
  file : String
  sections : Nat
  reportingInterval : Duration
  alertWindow : Duration
  alertThreshold : Float
  quantum : Duration
  alertCheckQuanta : Nat
  sizeRotationThreshold : Nat
  sizeHistory : Nat
  maxRecordableSize : Nat
  lineBuffer : Nat
  deriving BEq

namespace Settings

def default : Settings where
  file := ""
  sections := 5
  reportingInterval := .ofSeconds 10
  alertWindow := .ofSeconds 120
  alertThreshold := 10.0
  quantum := .ofSeconds 1
  alertCheckQuanta := 2
  sizeRotationThreshold := 100000
  sizeHistory := 5
  maxRecordableSize := 1000000000000
  lineBuffer := 1024

def alertInterval (s : Settings) : Duration := s.quantum.timesAtMost s.alertCheckQuanta

def reportingEnabled (s : Settings) : Bool := !s.reportingInterval.isZero

def fault? (s : Settings) : Option Failure :=
  if s.file.isEmpty then some (.badSetting .noFile)
  else if (Rate.slotCount? s.alertWindow s.quantum).isNone then
    some (.invalidWindow s.alertWindow s.quantum)
  else if s.sections = 0 then some (.badSetting .noSections)
  else if s.alertCheckQuanta = 0 then some (.badSetting .noAlertPeriod)
  else if !s.alertThreshold.isFinite || s.alertThreshold < 0.0 then
    some (.badSetting (.badThreshold s.alertThreshold))
  else if s.sizeRotationThreshold = 0 then some (.badSetting .noRotation)
  else if s.lineBuffer = 0 then some (.badSetting .noLineBuffer)
  else none

def validate (s : Settings) : Except Failure Unit :=
  match s.fault? with
  | some failure => .error failure
  | none => .ok ()

end Settings

end TrafficMonitor
