namespace TrafficMonitor.Log

inductive StatusClass where
  | informational
  | successful
  | redirection
  | clientError
  | serverError
  deriving DecidableEq, Repr

def StatusClass.of? (code : Nat) : Option StatusClass :=
  match code / 100 with
  | 1 => some .informational
  | 2 => some .successful
  | 3 => some .redirection
  | 4 => some .clientError
  | 5 => some .serverError
  | _ => none

structure StatusCounts where
  informational : Nat
  successful : Nat
  redirection : Nat
  clientError : Nat
  serverError : Nat
  deriving DecidableEq, Repr

namespace StatusCounts

def zero : StatusCounts := ⟨0, 0, 0, 0, 0⟩

def increment (s : StatusCounts) : StatusClass → StatusCounts
  | .informational => { s with informational := s.informational + 1 }
  | .successful => { s with successful := s.successful + 1 }
  | .redirection => { s with redirection := s.redirection + 1 }
  | .clientError => { s with clientError := s.clientError + 1 }
  | .serverError => { s with serverError := s.serverError + 1 }

def record (s : StatusCounts) (code : Nat) : StatusCounts :=
  match StatusClass.of? code with
  | none => s
  | some c => s.increment c

def toList (s : StatusCounts) : List Nat :=
  [s.informational, s.successful, s.redirection, s.clientError, s.serverError]

def total (s : StatusCounts) : Nat := s.toList.foldr (· + ·) 0

end StatusCounts

end TrafficMonitor.Log
