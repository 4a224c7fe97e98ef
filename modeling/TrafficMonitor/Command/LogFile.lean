namespace TrafficMonitor.Command

structure LogFile where
  absolute : Bool
  directories : List String
  name : String
  deriving DecidableEq, Repr

namespace LogFile

def defaultName : String := "httpmon.log"

def parts (path : String) : List String := (path.splitOn "/").filter fun p => p ≠ "" ∧ p ≠ "."

def ofPath (path : String) : LogFile :=
  let parts := parts path
  match parts.getLast? with
  | none => ⟨false, [], defaultName⟩
  | some last =>
    ⟨path.startsWith "/", parts.dropLast, if last = ".." then defaultName else last⟩

def directory (f : LogFile) : String :=
  let inner := "/".intercalate f.directories
  if f.absolute then "/" ++ inner else if inner.isEmpty then "." else inner

def path (f : LogFile) : String := f.directory ++ "/" ++ f.name

end LogFile

end TrafficMonitor.Command
