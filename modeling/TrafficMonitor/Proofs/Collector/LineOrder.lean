import TrafficMonitor.Proofs.Collector.Rotation
import TrafficMonitor.Proofs.Sketch.Census
import TrafficMonitor.Proofs.Sketch.Registers

/-! A summary does not tell in which order the records came, as long as it is one of all of their
sizes. For the top sections this takes a place and a cell of its own for each of them. -/

namespace TrafficMonitor

open Text Time Log Sketch

namespace Log.StatusCounts

theorem increment_right_comm (s : StatusCounts) (a b : StatusClass) :
    (s.increment a).increment b = (s.increment b).increment a := by
  cases a <;> cases b <;> rfl

theorem record_right_comm (s : StatusCounts) (a b : Nat) :
    (s.record a).record b = (s.record b).record a := by
  simp only [record]
  cases StatusClass.of? a with
  | none => rfl
  | some first =>
    cases StatusClass.of? b with
    | none => rfl
    | some second => exact increment_right_comm s first second

theorem foldl_record_perm (s : StatusCounts) {codes codes' : List Nat} (h : codes'.Perm codes) :
    codes'.foldl record s = codes.foldl record s :=
  h.foldl_eq' (fun a _ b _ s => record_right_comm s a b) s

end Log.StatusCounts

namespace Collector

theorem sectionKeys_perm {requests requests' : List String} (h : requests'.Perm requests) :
    (sectionKeys requests').Perm (sectionKeys requests) := h.filterMap _

theorem retainedSizes_eq {settings : Settings} {es : List Event}
    (hkept : (records es).length / max settings.sizeRotationThreshold 1 ≤
      max settings.sizeHistory 1 - 1) :
    retainedSizes settings es = (records es).map (·.size) := by
  rw [retainedSizes, List.length_map, keptCount_of_le hkept, Nat.sub_self, List.drop_zero]

theorem summary_eq_of_perm {settings : Settings} {c d d' : Collector} {es es' : List Event}
    (hc : create settings = .ok c) (hlimit : settings.maxRecordableSize < 2 ^ 63)
    (hp : (records es').Perm (records es))
    (hkept : (records es).length / max settings.sizeRotationThreshold 1 ≤
      max settings.sizeHistory 1 - 1)
    (hrun : c.run es = .ok d) (hrun' : c.run es' = .ok d') (time time' : Instant) :
    let s := d.summary time
    let s' := d'.summary time'
    let keys := sectionKeys ((records es).map (·.request))
    s.totalHits = (records es).length ∧ s.sizes.count = (records es).length ∧
    s'.totalHits = s.totalHits ∧ s'.distinctVisitors = s.distinctVisitors ∧
    s'.statuses = s.statuses ∧ s'.sizes = s.sizes ∧
    (keys.dedup.length ≤ settings.sections → (∀ key ∈ keys, c.sections.sketch.HasOwnCell keys key) →
      Census keys s.topSections ∧ s'.topSections = s.topSections) := by
  intro s s' keys
  obtain ⟨_, ring, _, rfl⟩ := run_eq_ok_iff.1 hrun
  obtain ⟨_, ring', _, rfl⟩ := run_eq_ok_iff.1 hrun'
  obtain ⟨scale, -, -, -, hheld⟩ := exists_scale hc hlimit
  have hmerged := (hheld es ring).2
  have hmerged' := (hheld es' ring').2
  have hcount : (records es').length = (records es).length := hp.length_eq
  rw [retainedSizes_eq hkept] at hmerged
  rw [retainedSizes_eq (hcount ▸ hkept)] at hmerged'
  obtain ⟨_, _, _, _, htop, _, rfl⟩ := create_eq_ok hc
  obtain rfl := TopK.eq_empty_of_create htop
  have hkeys : (sectionKeys ((records es').map (·.request))).Perm keys :=
    sectionKeys_perm (hp.map (·.request))
  refine ⟨Nat.zero_add _, ?_, ?_, ?_, ?_, ?_, fun hroom hown => ⟨?_, ?_⟩⟩
  · exact (Distribution.ofHistogram_count _).trans (hmerged.total_eq.trans (List.length_map _))
  · exact congrArg (0 + ·) hcount
  · exact congrArg HyperLogLog.count (HyperLogLog.foldl_add_perm _ (hp.map _))
  · exact StatusCounts.foldl_record_perm _ (hp.map _)
  · exact (hmerged'.perm (hp.map (·.size))).distribution_unique hmerged
  · exact TopK.census_elements hroom hown
  · exact TopK.elements_addAll_perm hkeys hroom hown

theorem summary_eq_of_perm_cut :
    let settings := { Settings.default with sizeRotationThreshold := 2, sizeHistory := 2 }
    let hit (address request : String) (status size : Nat) : Event :=
      .hit ⟨address, "", "", none, request, status, size⟩ ⟨0, 0⟩
    let first := hit "10.0.0.1" "GET /a/1 HTTP/1.1" 200 5
    let second := hit "10.0.0.2" "GET /a/2 HTTP/1.1" 404 9
    let third := hit "10.0.0.1" "GET /a/3 HTTP/1.1" 503 7
    ∃ c d d', create settings = .ok c ∧ c.run [first, second, .skip, third] = .ok d ∧
      c.run [third, .tick, first, second] = .ok d' ∧
      let s := d.summary ⟨0, 0⟩
      let s' := d'.summary ⟨1, 0⟩
      s'.totalHits = s.totalHits ∧ s'.distinctVisitors = s.distinctVisitors ∧
      s'.statuses = s.statuses ∧ s'.sizes = s.sizes ∧ s'.topSections = s.topSections ∧
      Census ["/a", "/a", "/a"] s.topSections := by
  obtain ⟨c, hc⟩ : ∃ c, create
    { Settings.default with sizeRotationThreshold := 2, sizeHistory := 2 } = .ok c := ⟨_, rfl⟩
  intro settings hit first second third
  have hrange : ∀ e ∈ rates [first, second, .skip, third], e.InRange settings.alertWindow := nofun
  have hrange' : ∀ e ∈ rates [third, .tick, first, second], e.InRange settings.alertWindow := by
    intro e he
    obtain rfl := List.mem_singleton.1 he
    trivial
  obtain ⟨d, hd⟩ := exists_run hc hrange
  obtain ⟨d', hd'⟩ := exists_run hc hrange'
  have hp : (records [third, .tick, first, second]).Perm (records [first, second, .skip, third]) := by
    decide
  have hkeys : sectionKeys ((records [first, second, .skip, third]).map (·.request)) =
      ["/a", "/a", "/a"] := by decide
  have hdepth : 0 < c.sections.sketch.depth := by
    obtain ⟨_, _, _, _, htop, _, rfl⟩ := create_eq_ok hc
    obtain rfl := TopK.eq_empty_of_create htop
    exact Nat.le_max_right _ _
  obtain ⟨_, _, htotal, hvisitors, hstatuses, hsizes, htop⟩ :=
    summary_eq_of_perm hc (by decide) hp (by decide) hd hd' ⟨0, 0⟩ ⟨1, 0⟩
  rw [hkeys] at htop
  have halone : ∀ key ∈ ["/a", "/a", "/a"], ∀ other ∈ ["/a", "/a", "/a"], other = key := by decide
  obtain ⟨hcensus, hsame⟩ := htop (by decide) fun key hk => .of_alone hdepth (halone key hk)
  exact ⟨c, d, d', hc, hd, hd', htotal, hvisitors, hstatuses, hsizes, hsame, hcensus⟩

end Collector

end TrafficMonitor
