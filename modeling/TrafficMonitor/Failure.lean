import TrafficMonitor.Decimal.Shortest
import TrafficMonitor.Rate.Ring

namespace TrafficMonitor

open Time

inductive BadSetting where
  | noFile
  | noSections
  | noAlertPeriod
  | badThreshold (threshold : Float)
  | noRotation
  | noLineBuffer
  | sizeBounds (reason : String)
  | other (description : String)

def BadSetting.message : BadSetting → String
  | .noFile => "a log file path is required"
  | .noSections => "sections must be at least 1"
  | .noAlertPeriod => "alert_check_quanta must be at least 1"
  | .badThreshold threshold =>
    "alert_threshold must be a non-negative number, got " ++ Decimal.Shortest.render threshold
  | .noRotation => "size_rotation_threshold must be at least 1"
  | .noLineBuffer => "line_buffer must be at least 1"
  | .sizeBounds reason => "response size histogram: " ++ reason
  | .other description => description

inductive WatchStage where
  | setup
  | waiting
  deriving DecidableEq, Repr

inductive Failure where
  | watch (stage : WatchStage) (path cause : String)
  | openFile (path cause : String)
  | read (path cause : String)
  | alreadyOpened (path : String)
  | invalidWindow (window quantum : Duration)
  | badSetting (setting : BadSetting)

namespace Failure

def message : Failure → String
  | .watch .setup path cause => "failed to watch log file " ++ path ++ ": " ++ cause
  | .watch .waiting path cause => "file watcher error on " ++ path ++ ": " ++ cause
  | .openFile path cause => "failed to open log file " ++ path ++ ": " ++ cause
  | .read path cause => "failed to read log file " ++ path ++ ": " ++ cause
  | .alreadyOpened path => "log tailer for " ++ path ++ " was already opened"
  | .invalidWindow window quantum =>
    "alert window " ++ window.text ++ " must span between 1 and " ++ toString Rate.maxQuanta ++
      " quanta of " ++ quantum.text
  | .badSetting setting => "invalid configuration: " ++ setting.message

def isConfiguration : Failure → Bool
  | .invalidWindow .. | .badSetting .. => true
  | _ => false

def cause? : Failure → Option String
  | .watch _ _ cause | .openFile _ cause | .read _ cause => some cause
  | _ => none

end Failure

end TrafficMonitor
