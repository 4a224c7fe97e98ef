namespace TrafficMonitor.Log

def rootSection : String := "/"

def sectionChars? (path : List Char) : Option (List Char) :=
  match path.span (· ≠ '/') with
  | (_, []) => none
  | (head, slash :: more) =>
    match more.span (· ≠ '/') with
    | (_, []) => none
    | (inner, _ :: _) => some (head ++ slash :: inner)

def sectionOf (path : String) : String :=
  ((sectionChars? path.toList).map String.ofList).getD rootSection

end TrafficMonitor.Log
