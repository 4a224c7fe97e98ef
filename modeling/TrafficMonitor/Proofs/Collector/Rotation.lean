import TrafficMonitor.Proofs.Collector.Folds
import TrafficMonitor.Proofs.Sketch.Generations

namespace TrafficMonitor.Collector

open Text Time Sketch Log

theorem mod_succ_of_rotates {n t : Nat} (h : (n + 1) % t = 0) :
    n % t + 1 = t ∧ (n + 1) / t = n / t + 1 := by
  have hdiv : (n + 1) / t = n / t + 1 := by
    rw [Nat.succ_div, if_pos (Nat.dvd_of_mod_eq_zero h)]
  have hn := Nat.div_add_mod n t
  have hsucc := Nat.div_add_mod (n + 1) t
  rw [hdiv, Nat.mul_add, h] at hsucc
  omega

theorem mod_succ_of_stays {n t : Nat} (h : (n + 1) % t ≠ 0) :
    (n + 1) % t = n % t + 1 ∧ (n + 1) / t = n / t := by
  have hdiv : (n + 1) / t = n / t := by
    rw [Nat.succ_div, if_neg (fun hd => h (Nat.mod_eq_zero_of_dvd hd)), Nat.add_zero]
  have hn := Nat.div_add_mod n t
  have hsucc := Nat.div_add_mod (n + 1) t
  rw [hdiv] at hsucc
  omega

def keptCount (threshold capacity n : Nat) : Nat :=
  n % threshold + threshold * min (n / threshold) (capacity - 1)

theorem keptCount_of_le {threshold capacity n : Nat} (hroom : n / threshold ≤ capacity - 1) :
    keptCount threshold capacity n = n := by
  rw [keptCount, Nat.min_eq_left hroom]
  exact Nat.mod_add_div n threshold

theorem keptCount_le (threshold capacity n : Nat) : keptCount threshold capacity n ≤ n := by
  have hfull : threshold * min (n / threshold) (capacity - 1) ≤ threshold * (n / threshold) :=
    Nat.mul_le_mul_left threshold (Nat.min_le_left _ _)
  have hn := Nat.mod_add_div n threshold
  rw [keptCount]
  omega

def retainedSizes (settings : Settings) (es : List Event) : List Nat :=
  let sizes := (records es).map (·.size)
  let kept := keptCount (max settings.sizeRotationThreshold 1) (max settings.sizeHistory 1) sizes.length
  sizes.drop (sizes.length - kept)

/-- What rotation after every `threshold` sizes has left of them: so many were dropped, the retired
generations are full, and the rest is in the current one. -/
structure Rotated (s : Scale) (threshold capacity : Nat) (h : RollingHistogram)
    (sizes dropped : List Nat) (retired : List (List Nat)) (current : List Nat) : Prop where
  held : Generations s capacity h retired current
  sizes_eq : sizes = dropped ++ (retired.flatten ++ current)
  length_eq : ∀ block ∈ retired, block.length = threshold
  current_length : current.length = sizes.length % threshold
  retired_length : retired.length = min (sizes.length / threshold) (capacity - 1)

namespace Rotated

variable {s : Scale} {threshold capacity : Nat} {h : RollingHistogram} {sizes dropped : List Nat}
  {retired : List (List Nat)} {current : List Nat}

theorem recordSize (hr : Rotated s threshold capacity h sizes dropped retired current)
    (hs : s.limit ≤ Numeral.maxWord) (size : Nat) :
    ∃ dropped' retired' current', Rotated s threshold capacity
      (recordSize h (sizes.length + 1) threshold size) (sizes ++ [size]) dropped' retired' current' := by
  have hheld := hr.held.record hs size
  have hlt := hr.held.length_lt
  have hlength := hr.retired_length
  rw [Collector.recordSize]
  by_cases hrotate : (sizes.length + 1) % threshold = 0
  -- the full generation is retired, and the oldest one makes room for it if there is none left
  · obtain ⟨hfull, hdiv⟩ := mod_succ_of_rotates hrotate
    let all := retired ++ [current ++ [size]]
    let k := retired.length + 2 - capacity
    have hall : (all.take k).flatten ++ (all.drop k).flatten = retired.flatten ++ (current ++ [size]) := by
      rw [← List.flatten_append, List.take_append_drop]
      simp [all]
    refine ⟨dropped ++ (all.take k).flatten, all.drop k, [], ?_, ?_, ?_, ?_, ?_⟩
    · simpa only [if_pos hrotate] using hheld.rotate
    · rw [List.append_nil, List.append_assoc, hall, hr.sizes_eq]
      simp
    · intro block hb
      rcases List.mem_append.1 (List.mem_of_mem_drop hb) with hb | hb
      · exact hr.length_eq block hb
      · rw [List.mem_singleton.1 hb, List.length_append, hr.current_length]
        exact hfull
    · rw [List.length_append]
      exact hrotate.symm
    · simp only [all, k, List.length_drop, List.length_append, List.length_singleton, hdiv]
      omega
  · obtain ⟨hmod, hdiv⟩ := mod_succ_of_stays hrotate
    refine ⟨dropped, retired, current ++ [size], ?_, ?_, hr.length_eq, ?_, ?_⟩
    · simpa only [if_neg hrotate] using hheld
    · rw [hr.sizes_eq]
      simp
    · simp only [List.length_append, List.length_singleton, hr.current_length, hmod]
    · simp only [List.length_append, List.length_singleton, hdiv, hlength]

theorem dropped_length (hr : Rotated s threshold capacity h sizes dropped retired current) :
    dropped.length + keptCount threshold capacity sizes.length = sizes.length := by
  have hflatten : retired.flatten.length = threshold * retired.length := by
    rw [List.length_flatten, List.map_congr_left hr.length_eq, List.map_const', List.sum_replicate_nat,
      Nat.mul_comm]
  have htotal := congrArg List.length hr.sizes_eq
  rw [List.length_append, List.length_append, hflatten, hr.retired_length, hr.current_length] at htotal
  rw [keptCount]
  omega

theorem drop_eq (hr : Rotated s threshold capacity h sizes dropped retired current) :
    sizes.drop (sizes.length - keptCount threshold capacity sizes.length) =
      retired.flatten ++ current := by
  rw [← Nat.eq_sub_of_add_eq hr.dropped_length]
  conv_lhs => rw [hr.sizes_eq]
  exact List.drop_left

end Rotated

theorem rotated_recordSizes {s : Scale} {threshold capacity : Nat} {h : RollingHistogram}
    (hg : Generations s capacity h [] []) (hs : s.limit ≤ Numeral.maxWord) (sizes : List Nat) :
    ∃ dropped retired current, Rotated s threshold capacity (recordSizes threshold 0 h sizes) sizes
      dropped retired current := by
  induction sizes using List.reverseRecOn with
  | nil => exact ⟨[], [], [], hg, rfl, by simp, by simp, by simp⟩
  | append_singleton sizes size ih =>
    obtain ⟨dropped, retired, current, hr⟩ := ih
    rw [recordSizes_append, Nat.zero_add]
    exact hr.recordSize hs size

theorem currentCount_recordSizes {s : Scale} {threshold capacity : Nat} {h : RollingHistogram}
    (hg : Generations s capacity h [] []) (hs : s.limit ≤ Numeral.maxWord) (sizes : List Nat) :
    (recordSizes threshold 0 h sizes).currentCount = sizes.length % threshold := by
  obtain ⟨_, _, _, hr⟩ := rotated_recordSizes hg hs sizes
  exact hr.held.current_tally.total_eq.trans hr.current_length

theorem tally_merge_recordSizes {s : Scale} {threshold capacity : Nat} {h : RollingHistogram}
    (hg : Generations s capacity h [] []) (hs : s.bound ≤ Numeral.maxWord) (sizes : List Nat) :
    Tally s (recordSizes threshold 0 h sizes).merge
      (sizes.drop (sizes.length - keptCount threshold capacity sizes.length)) := by
  obtain ⟨_, _, _, hr⟩ := rotated_recordSizes hg (s.limit_lt_bound.le.trans hs) sizes
  rw [hr.drop_eq]
  exact (hr.held.merge hs).perm List.perm_append_comm

theorem exists_scale {settings : Settings} {c : Collector} (hc : create settings = .ok c)
    (hlimit : settings.maxRecordableSize < 2 ^ 63) :
    ∃ s, Scale.create settings.maxRecordableSize sizeDigits = .ok s ∧
      s.limit = settings.maxRecordableSize ∧ s.bound ≤ Numeral.maxWord ∧
      ∀ es ring, (c.folded es ring).sizes.currentCount =
          (records es).length % max settings.sizeRotationThreshold 1 ∧
        Tally s (c.folded es ring).sizes.merge (retainedSizes settings es) := by
  obtain ⟨fresh, _, _, hfresh, -, -, rfl⟩ := create_eq_ok hc
  obtain ⟨s, hs, hg⟩ := Generations.create hfresh
  have hscale : s.limit = settings.maxRecordableSize := Scale.limit_of_create hs
  have hbound : s.bound ≤ Numeral.maxWord :=
    (Scale.bound_le (by decide) (hscale ▸ hlimit)).trans (by decide)
  refine ⟨s, hs, hscale, hbound, fun es ring => ⟨?_, ?_⟩⟩
  · rw [← List.length_map (f := fun r => r.size)]
    exact currentCount_recordSizes hg (s.limit_lt_bound.le.trans hbound) _
  · exact tally_merge_recordSizes hg hbound _

/-- After `n` records the current generation holds the sizes since the last rotation, and a summary
is one of exactly the last sizes that the kept generations have room for. Skipped lines and ticks
between the records change nothing. -/
theorem summary_of_last_sizes {settings : Settings} {c c' : Collector} {es : List Event}
    (hc : create settings = .ok c) (hlimit : settings.maxRecordableSize < 2 ^ 63)
    (hrun : c.run es = .ok c') (time : Instant) :
    let threshold := max settings.sizeRotationThreshold 1
    let capacity := max settings.sizeHistory 1
    let sizes := (records es).map (·.size)
    let n := sizes.length
    let kept := n % threshold + threshold * min (n / threshold) (capacity - 1)
    c'.totalHits = n ∧ c'.sizes.currentCount = n % threshold ∧
    (c'.summary time).sizes.count = kept ∧ kept ≤ n ∧
    (∃ s, Scale.create settings.maxRecordableSize sizeDigits = .ok s ∧
      let last := (sizes.drop (n - kept)).foldl Histogram.record (.empty s)
      (c'.summary time).sizes = .ofHistogram last ∧ c'.sizes.merge.slots = last.slots ∧
      ∀ q, c'.sizes.merge.valueAt q = last.valueAt q) ∧
    (n / threshold ≤ capacity - 1 → (c'.summary time).sizes.count = c'.totalHits) ∧
    ∀ es' d, records es' = records es → c.run es' = .ok d → d.sizes = c'.sizes := by
  intro threshold capacity sizes n kept
  obtain ⟨_, ring, _, rfl⟩ := run_eq_ok_iff.1 hrun
  obtain ⟨s, hs, -, hbound, hheld⟩ := exists_scale hc hlimit
  obtain ⟨hcurrent, hmerged⟩ := hheld es ring
  have hn : n = (records es).length := List.length_map _
  have htotal : (c.folded es ring).totalHits = n := by
    obtain ⟨_, _, _, _, _, _, rfl⟩ := create_eq_ok hc
    exact (Nat.zero_add _).trans hn.symm
  have hle : kept ≤ n := keptCount_le threshold capacity n
  have hcount : ((c.folded es ring).summary time).sizes.count = kept := by
    have hlength : (retainedSizes settings es).length = n - (n - kept) := List.length_drop
    rw [summary, Distribution.ofHistogram_count, hmerged.total_eq, hlength, Nat.sub_sub_self hle]
  have hrecorded := tally_foldl_record (s.limit_lt_bound.le.trans hbound) (sizes.drop (n - kept))
  refine ⟨htotal, hn ▸ hcurrent, hcount, hle, ⟨s, hs, ?_, ?_, ?_⟩, ?_, ?_⟩
  · exact hmerged.distribution_unique hrecorded
  · exact hmerged.slots_unique hrecorded
  · exact hmerged.valueAt_unique hrecorded
  · intro hroom
    exact hcount.trans ((keptCount_of_le hroom).trans htotal.symm)
  · intro es' d hsame hd
    obtain ⟨_, _, _, rfl⟩ := run_eq_ok_iff.1 hd
    simp only [folded, hsame]

theorem summary_of_last_sizes_dropped :
    let settings := { Settings.default with sizeRotationThreshold := 2, sizeHistory := 2 }
    let hit (size : Nat) : Event := .hit ⟨"10.0.0.1", "", "", none, "", 0, size⟩ ⟨0, 0⟩
    ∃ c d, create settings = .ok c ∧ c.run [hit 5, hit 9, .skip, hit 7, hit 3, .skip, hit 1] = .ok d ∧
      d.sizes.currentCount = 1 ∧ (d.summary ⟨0, 0⟩).sizes.count = 3 ∧
      ∃ s, Scale.create settings.maxRecordableSize sizeDigits = .ok s ∧
        (d.summary ⟨0, 0⟩).sizes = .ofHistogram ([7, 3, 1].foldl Histogram.record (.empty s)) := by
  obtain ⟨c, hc⟩ : ∃ c, create
    { Settings.default with sizeRotationThreshold := 2, sizeHistory := 2 } = .ok c := ⟨_, rfl⟩
  intro settings hit
  let es : List Event := [hit 5, hit 9, .skip, hit 7, hit 3, .skip, hit 1]
  have hrates : rates es = [] := rfl
  have hrange : ∀ e ∈ rates es, e.InRange settings.alertWindow := by simp [hrates]
  obtain ⟨d, hd⟩ := exists_run hc hrange
  obtain ⟨_, hactive, hcount, _, ⟨s, hs, hsizes, _⟩, _⟩ :=
    summary_of_last_sizes hc (by decide) hd ⟨0, 0⟩
  refine ⟨c, d, hc, hd, hactive.trans (by decide), hcount.trans (by decide), s, hs, hsizes.trans ?_⟩
  congr 2
  decide

end TrafficMonitor.Collector
