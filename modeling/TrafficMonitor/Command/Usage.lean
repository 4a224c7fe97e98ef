import TrafficMonitor.Command.Arguments

namespace TrafficMonitor.Command

namespace Flag

def purpose : Flag → String
  | file => "Access log file to follow (Common Log Format)"
  | config => "Configuration file path"
  | sections => "Number of top sections to display"
  | reportingInterval => "Seconds between summary reports (0 disables reporting)"
  | alertWindow => "Seconds of traffic averaged for alerting"
  | alertThreshold => "Average hits per second that triggers an alert"
  | quantumMs => "Milliseconds per hit-rate bucket"
  | threads => "Number of worker threads (default: 1, use 0 for CPU cores)"
  | logFile => "Also write diagnostics to this file"

def usage (f : Flag) : String :=
  let short := match f.short? with
    | some c => String.ofList ['-', c] ++ ", "
    | none => "    "
  short ++ "--" ++ f.long ++ " <VALUE>"

end Flag

def helpLines : List String :=
  ["Follow an HTTP access log, report traffic statistics and alert on high traffic", "",
    "Usage: httpmon [OPTIONS]", "", "Options:"] ++
    Flag.all.flatMap (fun f =>
      ["  " ++ f.usage, "          " ++ f.purpose ++ " [env: " ++ f.envName ++ "]"]) ++
    ["  -h, --help", "          Print help", "  -V, --version", "          Print version"]

def UsageError.message : UsageError → String
  | .missingValue f => "a value is required for '" ++ f.usage ++ "' but none was supplied"
  | .emptyPath f => "a value is required for '" ++ f.usage ++ "' but none was supplied"
  | .badValue f => "invalid value for '" ++ f.usage ++ "'"
  | .needlessValue => "unexpected value for a flag that takes none"
  | .repeated f => "the argument '" ++ f.usage ++ "' cannot be used multiple times"
  | .unknown argument => "unexpected argument '" ++ argument ++ "' found"

end TrafficMonitor.Command
