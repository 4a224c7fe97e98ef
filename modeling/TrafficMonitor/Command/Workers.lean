namespace TrafficMonitor.Command

def workerCount (processors : Nat) : Option Nat → Nat
  | none => 1
  | some 0 => max processors 1
  | some n => n

end TrafficMonitor.Command
