/-!
Room is asked for before it is filled, and a call that asks for more than an address can reach breaks
off. How much memory there really is, is not looked at.
-/

namespace TrafficMonitor

inductive StorageFault where
  | sumTooLarge
  | capacityTooLarge
  | queueTooLong
  deriving DecidableEq, Repr

def StorageFault.message : StorageFault → String
  | .sumTooLarge => "attempt to add with overflow"
  | .capacityTooLarge => "capacity overflow"
  | .queueTooLong => "a semaphore may not have more than MAX_PERMITS permits (2305843009213693951)"

/-- What a call ends in without its result: it is refused for a reason, or breaks off. -/
inductive Halt (ε : Type) where
  | refused (reason : ε)
  | broken (fault : StorageFault)
  deriving DecidableEq, Repr

def Halt.map {ε ε' : Type} (f : ε → ε') : Halt ε → Halt ε'
  | .refused reason => .refused (f reason)
  | .broken fault => .broken fault

namespace Storage

def mostBytes : Nat := 2 ^ 63 - 1

def reserve (itemBytes count : Nat) : Except StorageFault Unit :=
  if itemBytes * count ≤ mostBytes then .ok () else .error .capacityTooLarge

end Storage

end TrafficMonitor
