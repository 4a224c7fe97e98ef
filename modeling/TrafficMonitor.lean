import TrafficMonitor.Command.Workers
import TrafficMonitor.Main
import TrafficMonitor.Proofs.Follow.Stream
import TrafficMonitor.Proofs.Rate.History
import TrafficMonitor.Rate.Ticker
import TrafficMonitor.Toml.Writer
import TrafficMonitor.Proofs.Intake
import TrafficMonitor.Proofs.Shutdown
import TrafficMonitor.Proofs.Sketch.Cells
import TrafficMonitor.Proofs.Sketch.HeavyKeys
import TrafficMonitor.Proofs.Collector.Folds
import TrafficMonitor.Proofs.Sketch.Estimates
import TrafficMonitor.Proofs.Sketch.Slots
import TrafficMonitor.Proofs.Sketch.Tally
import TrafficMonitor.Proofs.Sketch.Generations
import TrafficMonitor.Proofs.Collector.Rotation
import TrafficMonitor.Proofs.Time.Calendar
import TrafficMonitor.Proofs.Log.Stamps
import TrafficMonitor.Proofs.Log.CommonFormat
import TrafficMonitor.Proofs.Log.CombinedFormat
import TrafficMonitor.Proofs.Decimal.Order
import TrafficMonitor.Proofs.Decimal.Magnitude
import TrafficMonitor.Proofs.Alert.Flips
import TrafficMonitor.Proofs.Rate.Saturation
import TrafficMonitor.Proofs.Alert.Lookout
import TrafficMonitor.Proofs.Alert.Recovery
import TrafficMonitor.Proofs.Alert.Disturbance
import TrafficMonitor.Proofs.Alert.Cadence
import TrafficMonitor.Proofs.Collector.Construction
import TrafficMonitor.Proofs.Collector.Completion
import TrafficMonitor.Proofs.Sketch.Registers
import TrafficMonitor.Proofs.Sketch.Census
import TrafficMonitor.Proofs.Collector.LineOrder
import TrafficMonitor.Proofs.Collector.Snapshots
import TrafficMonitor.Proofs.Follow.Wakeups
import TrafficMonitor.Proofs.Follow.Openings
import TrafficMonitor.Proofs.Log.Acceptance
import TrafficMonitor.Proofs.Log.RequestTokens
import TrafficMonitor.Proofs.Log.RequestPattern
import TrafficMonitor.Proofs.Log.RequestLines
import TrafficMonitor.Proofs.Log.RequestRendering
import TrafficMonitor.Proofs.Sketch.KeySets
import TrafficMonitor.Proofs.Sketch.TopList
import TrafficMonitor.Proofs.Decimal.Rounding
import TrafficMonitor.Proofs.Sketch.Rotations
import TrafficMonitor.Proofs.Sketch.Quantiles
import TrafficMonitor.Proofs.Sketch.Limits
import TrafficMonitor.Proofs.Collector.Coherence
import TrafficMonitor.Proofs.Settings.RoundTrip
import TrafficMonitor.Proofs.Log.Sections
import TrafficMonitor.Proofs.Report.SectionTable
import TrafficMonitor.Proofs.Time.CompactText
