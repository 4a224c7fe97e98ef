import TrafficMonitor.Proofs.Collector.Completion
import TrafficMonitor.Proofs.Collector.Rotation
import TrafficMonitor.Proofs.Sketch.Quantiles

namespace TrafficMonitor.Collector

open Text Time Sketch Log

variable {settings : Settings} {c : Collector}

theorem sizes_coherent (hc : create settings = .ok c)
    (hlimit : settings.maxRecordableSize < 2 ^ 63) (es : List Event) (time : Instant) :
    let retained := retainedSizes settings es
    let d := ((c.afterAll es).summary time).sizes
    d.count = retained.length ∧
    (retained ≠ [] → d.min ≤ d.median ∧ d.median ≤ d.p99 ∧ d.p99 ≤ d.max) ∧
    (∀ v ∈ retained, v ≤ settings.maxRecordableSize → d.min ≤ v ∧ v ≤ d.max) ∧
    (retained = [] → d = .zero) := by
  intro retained d
  obtain ⟨s, -, hscale, hbound, hheld⟩ := exists_scale hc hlimit
  have ht : Tally s (c.afterAll es).sizes.merge retained := by
    rw [afterAll_eq]
    exact (hheld es _).2
  refine ⟨?_, ht.distribution_ordered hbound, fun v hv hle => ?_, fun hnil => ?_⟩
  · exact (Distribution.ofHistogram_count _).trans ht.total_eq
  · exact ht.distribution_encloses hbound hv (hscale ▸ hle)
  · exact (hnil ▸ ht : Tally s (c.afterAll es).sizes.merge []).distribution_nil

theorem sizes_coherent_dropped :
    let settings := { Settings.default with sizeRotationThreshold := 2, sizeHistory := 2 }
    let hit (size : Nat) : Event := .hit ⟨"10.0.0.1", "", "", none, "", 0, size⟩ ⟨0, 0⟩
    let es := [hit 5, hit 9, .skip, hit 7, .tick, hit 3, hit 1]
    ∃ c, create settings = .ok c ∧ retainedSizes settings es = [7, 3, 1] ∧
      let d := ((c.afterAll es).summary ⟨0, 0⟩).sizes
      d.count = 3 ∧ d.min ≤ d.median ∧ d.median ≤ d.p99 ∧ d.p99 ≤ d.max ∧ d.min ≤ 1 ∧ 7 ≤ d.max := by
  obtain ⟨c, hc⟩ : ∃ c, create
    { Settings.default with sizeRotationThreshold := 2, sizeHistory := 2 } = .ok c := ⟨_, rfl⟩
  intro settings hit es
  have hretained : retainedSizes settings es = [7, 3, 1] := by decide
  obtain ⟨hcount, hordered, hencloses, -⟩ := sizes_coherent hc (by decide) es ⟨0, 0⟩
  rw [hretained] at hcount hordered hencloses
  obtain ⟨hmedian, hp99, hmax⟩ := hordered (List.cons_ne_nil _ _)
  exact ⟨c, hc, hretained, hcount, hmedian, hp99, hmax, (hencloses 1 (by decide) (by decide)).1,
    (hencloses 7 (by decide) (by decide)).2⟩

end TrafficMonitor.Collector
