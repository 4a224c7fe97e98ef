import TrafficMonitor.Proofs.Collector.Folds

/-! Validation asks for less than construction does: neither the longest window that an instant can
be moved by, nor the least limit that a scale can have, nor room for what is kept is among its checks. -/

namespace TrafficMonitor

open Text Time Sketch

namespace Settings

end Settings

namespace Sketch

end Sketch

namespace Collector

variable {s : Settings}

section Window

variable (hr : (Rate.Ring.create? s.alertWindow s.quantum).isSome)

include hr

variable (hl : 2 ≤ s.maxRecordableSize)

include hl

end Window

end Collector

end TrafficMonitor
