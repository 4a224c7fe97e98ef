/-!
Powers are those of the core library, also where other instances of them are in scope.
-/

namespace TrafficMonitor

attribute [scoped instance(2000)] instPowNat

attribute [default_instance 20000] instPowNat

end TrafficMonitor
