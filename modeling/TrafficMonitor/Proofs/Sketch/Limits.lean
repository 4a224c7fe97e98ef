import Mathlib.Data.UInt
import TrafficMonitor.Proofs.Sketch.Quantiles
import TrafficMonitor.Proofs.Sketch.Rotations

/-! A value enters a histogram as the limit only where the scale ends, and the scale goes on behind the
limit to a power of two. The values in between are counted as they are. -/

namespace TrafficMonitor.Sketch

open Text

namespace Scale

variable {s : Scale} {v w : Nat}

structure Alike (s : Scale) (v w : Nat) : Prop where
  slotOf_eq : s.slotOf v = s.slotOf w
  least_eq : s.least v = s.least w
  highest_eq : s.highest v = s.highest w
  zero_iff : v = 0 ↔ w = 0

theorem Alike.refl (s : Scale) (v : Nat) : s.Alike v v := ⟨rfl, rfl, rfl, Iff.rfl⟩

theorem Alike.symm (h : s.Alike v w) : s.Alike w v :=
  ⟨h.slotOf_eq.symm, h.least_eq.symm, h.highest_eq.symm, h.zero_iff.symm⟩

theorem alike_of_le_highest (hle : v ≤ w) (hw : w ≤ s.highest v) : s.Alike v w := by
  by_cases h : v = Numeral.maxWord
  · have he : s.highest v = v := if_pos h
    obtain rfl := Nat.le_antisymm hle (he ▸ hw)
    exact .refl s v
  · have hne : w ≠ Numeral.maxWord := by
      rw [highest_of_ne h] at hw
      simp only [Numeral.maxWord] at hw ⊢
      omega
    obtain ⟨hb, hl⟩ := slot_eq ((s.lowest_le v).trans hle) (hw.trans_lt (s.highest_lt v))
    have hq : w / 2 ^ s.bucketOf v = v / 2 ^ s.bucketOf v := by
      apply Nat.eq_of_mul_eq_mul_right (Nat.two_pow_pos (s.bucketOf v))
      rw [lowest, hb] at hl
      exact hl
    refine ⟨?_, ?_, ?_, ?_⟩
    · rw [slotOf, slotOf, hb, hq]
    · rw [least_of_ne h, least_of_ne hne, hl]
    · rw [highest_of_ne h, highest_of_ne hne, hb, hl]
    · constructor
      · rintro rfl
        rwa [highest_zero, Nat.le_zero] at hw
      · rintro rfl
        exact Nat.le_zero.1 hle

theorem highest_limit_le_reach (h : s.limit < Numeral.maxWord) : s.highest s.limit ≤ s.reach := by
  have hbound := highest_lt_bound s.limit_lt_bound
  have hword := highest_of_ne (s := s) h.ne
  have hreach : s.reach = min s.bound Numeral.maxWord - 1 := rfl
  omega

/-- Recording the value keeps to the limit: it is in no slot behind that of the limit, or the scale does
not reach it. -/
def Confines (s : Scale) (v : Nat) : Prop := v ≤ s.highest s.limit ∨ s.bound ≤ v

instance (s : Scale) (v : Nat) : Decidable (s.Confines v) := inferInstanceAs (Decidable (_ ∨ _))

theorem highest_clamp_le_iff (hs : s.limit ≤ Numeral.maxWord) (hv : v ≤ Numeral.maxWord) :
    s.highest (s.clamp v) ≤ s.highest s.limit ↔ s.Confines v := by
  by_cases hin : v < s.bound
  · rw [clamp_of_lt_bound hin, Confines, or_iff_left (Nat.not_le_of_lt hin)]
    constructor
    · exact (le_highest hv).trans
    · intro h
      exact (highest_mono h (highest_le hs)).trans (Nat.le_of_eq (highest_highest hs))
  · have hout := Nat.le_of_not_lt hin
    rw [clamp_of_bound_le hout]
    exact iff_of_true (Nat.le_refl _) (.inr hout)

theorem highest_clamp_lt_iff (hs : s.limit ≤ Numeral.maxWord) (hle : v ≤ w)
    (hw : w ≤ Numeral.maxWord) :
    s.highest (s.clamp w) < s.highest (s.clamp v) ↔
      s.highest s.limit < v ∧ v < s.bound ∧ s.bound ≤ w := by
  by_cases hin : w < s.bound
  · rw [clamp_of_lt_bound hin, clamp_of_lt_bound (hle.trans_lt hin)]
    exact iff_of_false (Nat.not_lt_of_le (highest_mono hle hw)) fun h => Nat.not_le_of_lt hin h.2.2
  · have hout := Nat.le_of_not_lt hin
    rw [clamp_of_bound_le hout, ← Nat.not_le, highest_clamp_le_iff hs (hle.trans hw), Confines,
      not_or, Nat.not_le, Nat.not_le, ← and_assoc]
    exact (and_iff_left hout).symm

theorem Confines.alike (h : s.Confines v) : s.Alike (s.clamp v) (s.clamp (min v s.limit)) := by
  rcases Nat.le_total v s.limit with hle | hge
  · rw [Nat.min_eq_left hle]
    exact .refl s _
  · rw [Nat.min_eq_right hge, clamp_of_lt_bound s.limit_lt_bound]
    by_cases hin : v < s.bound
    · rw [clamp_of_lt_bound hin]
      exact (alike_of_le_highest hge (h.resolve_right (Nat.not_le_of_lt hin))).symm
    · rw [clamp_of_bound_le (Nat.le_of_not_lt hin)]
      exact .refl s _

end Scale

structure Histogram.Within (h : Histogram) (m : Nat) : Prop where
  min_le : h.min ≤ m
  max_le : h.max ≤ m
  valueAt_le : ∀ q, h.valueAt q ≤ m

namespace Tally

variable {s : Scale} {h : Histogram} {values : List Nat}

theorem within_iff (ht : Tally s h values) (hs : s.limit ≤ Numeral.maxWord) (m : Nat) :
    h.Within m ↔ ∀ v ∈ values, s.highest (s.clamp v) ≤ m := by
  rw [← ht.max_le_iff]
  constructor
  · exact Histogram.Within.max_le
  · intro hm
    exact ⟨(ht.min_le_max hs).trans hm, hm, fun q => (ht.valueAt_le_max hs q).trans hm⟩

theorem map (ht : Tally s h values) {f : Nat → Nat}
    (hf : ∀ v ∈ values, s.Alike (s.clamp v) (s.clamp (f v))) : Tally s h (values.map f) := by
  have htally (slot : Nat) : s.tally (values.map f) slot = s.tally values slot := by
    rw [Scale.tally, List.countP_map]
    apply List.countP_congr
    intro v hv
    rw [Function.comp_apply, (hf v hv).slotOf_eq]
  refine ⟨ht.scale_eq, ht.total_eq.trans (List.length_map f).symm, fun slot => ?_, ht.largest_le,
    fun m => ?_, fun m => ?_⟩
  · rw [htally]
    exact ht.getElem?_eq slot
  · rw [ht.max_le_iff, List.forall_mem_map]
    apply forall₂_congr
    intro v hv
    rw [(hf v hv).highest_eq]
  · rw [ht.le_min_iff, List.forall_mem_map]
    apply forall₂_congr
    intro v hv
    rw [(hf v hv).least_eq, Ne, (hf v hv).zero_iff]

end Tally

theorem max_recorded_singleton {s : Scale} (hs : s.limit ≤ Numeral.maxWord) (v : Nat) :
    (Histogram.recorded s [v]).max = s.highest (s.clamp v) := by
  apply eq_of_forall_ge_iff
  intro m
  rw [(tally_recorded hs [v]).max_le_iff, List.forall_mem_singleton]

namespace RollingHistogram

def Action.capped (limit : UInt64) : Action → Action
  | .record value => .record (min value limit)
  | .rotate => .rotate

theorem valuesSince_capped (limit : UInt64) (n : Nat) (actions : List Action) :
    valuesSince n (actions.map (Action.capped limit)) =
      (valuesSince n actions).map (min · limit.toNat) := by
  induction actions generalizing n with
  | nil => rfl
  | cons action actions ih =>
    rw [List.map_cons]
    cases action with
    | record value =>
      rw [Action.capped, valuesSince, valuesSince, ih, List.map_append, UInt64.toNat_min]
      rfl
    | rotate =>
      cases n with
      | zero => rfl
      | succ n => exact ih n

theorem mem_valuesSince_of_mem {n v : Nat} {actions : List Action} {block : List Nat}
    (hb : block ∈ (history actions).retired.rtake n) (hv : v ∈ block) :
    v ∈ valuesSince n actions.reverse := by
  rw [← flatten_rtake_append_current]
  exact List.mem_append_left _ (List.mem_flatten_of_mem hb hv)

theorem le_maxWord_of_mem_valuesSince {n v : Nat} {actions : List Action}
    (hv : v ∈ valuesSince n actions.reverse) : v ≤ Numeral.maxWord := by
  rw [← flatten_rtake_append_current] at hv
  rcases List.mem_append.1 hv with hv | hv
  · obtain ⟨block, hb, hv⟩ := List.mem_flatten.1 hv
    exact (le_maxWord_of_mem_history actions).1 block (List.mem_of_mem_drop hb) v hv
  · exact (le_maxWord_of_mem_history actions).2 v hv

section Capped

variable {s : Scale} {capacity : Nat} {fresh : RollingHistogram} {limit : UInt64}

theorem capped_maxWord (actions : List Action) (h : limit.toNat = Numeral.maxWord) :
    actions.map (Action.capped limit) = actions := by
  apply List.map_id''
  intro action
  cases action with
  | record value =>
    have hle : min value.toNat limit.toNat = value.toNat :=
      Nat.min_eq_left (h ▸ Nat.le_pred_of_lt value.toNat_lt)
    rw [Action.capped, UInt64.toNat_inj.1 ((UInt64.toNat_min value limit).trans hle)]
  | rotate => rfl

theorem tally_merge_of_confined (hg : Generations s capacity fresh [] [])
    (hs : s.limit < Numeral.maxWord) {actions : List Action}
    (hin : ∀ v ∈ valuesSince (capacity - 1) actions.reverse, s.Confines v) :
    Tally s (fresh.afterAll actions).merge (valuesSince (capacity - 1) actions.reverse) := by
  apply tally_merge hg hs.le
  intro block hb
  rw [Scale.takes, List.all_eq_true]
  intro v hv
  have hmem := mem_valuesSince_of_mem hb hv
  apply decide_eq_true
  exact ((Scale.highest_clamp_le_iff hs.le (le_maxWord_of_mem_valuesSince hmem)).2 (hin v hmem)).trans
    (Scale.highest_limit_le_reach hs)

theorem tally_merge_capped (hg : Generations s capacity fresh [] [])
    (hs : s.limit < Numeral.maxWord) (hlimit : s.limit = limit.toNat) (actions : List Action) :
    Tally s (fresh.afterAll (actions.map (Action.capped limit))).merge
      ((valuesSince (capacity - 1) actions.reverse).map (min · s.limit)) := by
  have hvalues : valuesSince (capacity - 1) (actions.map (Action.capped limit)).reverse =
      (valuesSince (capacity - 1) actions.reverse).map (min · s.limit) := by
    rw [← List.map_reverse, valuesSince_capped, hlimit]
  rw [← hvalues]
  apply tally_merge_of_confined hg hs
  rw [hvalues, List.forall_mem_map]
  intro v _
  exact .inl ((Nat.min_le_right v _).trans (Scale.le_highest hs.le))

end Capped

/-- A rolling histogram answers as if all values above the limit were recorded as the limit just if each
of them is in the slot of the limit or beyond the scale. The values between are what takes its answers
above the limit, and such a value is counted for more than one beyond the scale. -/
theorem merge_alike_capped_iff {limit : UInt64} {digits buckets : Nat} {fresh : RollingHistogram}
    (hc : create limit.toNat digits buckets = .ok fresh) (actions : List Action) :
    let kept := max buckets 1 - 1
    let h := fresh.afterAll actions
    ∃ s, Scale.create limit.toNat digits = .ok s ∧ s.limit < s.bound ∧
      (h.merge.Alike (fresh.afterAll (actions.map (Action.capped limit))).merge ↔
        ∀ v ∈ valuesSince kept actions.reverse, s.Confines v) ∧
      (h.merge.Within (s.highest s.limit) ↔
        ∀ v ∈ (((history actions).retired.rtake kept).filter s.takes).flatten ++
          (history actions).current, s.Confines v) ∧
      ∀ v w, v ≤ w → w ≤ Numeral.maxWord →
        ((Histogram.recorded s [w]).max < (Histogram.recorded s [v]).max ↔
          s.highest s.limit < v ∧ v < s.bound ∧ s.bound ≤ w) := by
  intro kept h
  obtain ⟨s, hs, hg⟩ := Generations.create hc
  have hlimit : s.limit = limit.toNat := Scale.limit_of_create hs
  have hword : s.limit ≤ Numeral.maxWord := hlimit ▸ Nat.le_pred_of_lt limit.toNat_lt
  refine ⟨s, hs, s.limit_lt_bound, ?_, ?_, ?_⟩
  · rcases Nat.lt_or_eq_of_le hword with hlt | heq
    · have hcapped := tally_merge_capped hg hlt hlimit actions
      constructor
      · intro hsame v hv
        have htotal := hsame.total_eq.trans (hcapped.total_eq.trans (List.length_map _))
        have hall := tally_merge hg hword (takes_of_total_merge hg hword htotal)
        -- the greatest answer tells that no value is above the limit
        have hmax : h.merge.max ≤ s.highest s.limit := by
          rw [hsame.max_eq, hcapped.max_le_iff, List.forall_mem_map]
          intro w _
          have hle := Nat.min_le_right w s.limit
          rw [Scale.clamp_of_lt_bound (hle.trans_lt s.limit_lt_bound)]
          exact Scale.highest_mono hle hword
        exact (Scale.highest_clamp_le_iff hword (le_maxWord_of_mem_valuesSince hv)).1
          ((hall.max_le_iff _).1 hmax v hv)
      · intro hin
        exact ((tally_merge_of_confined hg hlt hin).map fun v hv => (hin v hv).alike).alike hcapped
    · rw [capped_maxWord actions (hlimit ▸ heq)]
      refine iff_of_true ⟨rfl, rfl, rfl, rfl, fun _ => rfl, rfl, rfl⟩ fun v hv => .inl ?_
      have htop : s.highest s.limit = s.limit := if_pos heq
      rw [htop, heq]
      exact le_maxWord_of_mem_valuesSince hv
  · rw [(tally_merge_taken hg hword actions).within_iff hword]
    apply forall₂_congr
    intro v hv
    have hmem : v ∈ valuesSince kept actions.reverse := by
      rw [← flatten_rtake_append_current]
      exact (List.filter_sublist.flatten.append_right _).subset hv
    exact Scale.highest_clamp_le_iff hword (le_maxWord_of_mem_valuesSince hmem)
  · intro v w hle hw
    rw [max_recorded_singleton hword, max_recorded_singleton hword]
    exact Scale.highest_clamp_lt_iff hword hle hw

theorem merge_alike_capped_iff_slots :
    ∃ fresh s, create 5000 3 2 = .ok fresh ∧ Scale.create 5000 3 = .ok s ∧
      let capped := fresh.afterAll [.record 5000, .rotate, .record 5000]
      (fresh.afterAll [.record 5002, .rotate, .record 9000]).merge.Alike capped.merge ∧
      (fresh.afterAll [.record 5002, .rotate, .record 9000]).merge.Within 5003 ∧
      ¬(fresh.afterAll [.record 5004, .rotate, .record 9000]).merge.Alike capped.merge ∧
      (Histogram.recorded s [9000]).max < (Histogram.recorded s [5004]).max := by
  obtain ⟨fresh, hfresh⟩ : ∃ fresh, create (5000 : UInt64).toNat 3 2 = .ok fresh := ⟨_, rfl⟩
  obtain ⟨s, hs, -, halike, hwithin, hless⟩ :=
    merge_alike_capped_iff hfresh [.record 5002, .rotate, .record 9000]
  obtain ⟨s', hs', -, hunlike, -⟩ := merge_alike_capped_iff hfresh [.record 5004, .rotate, .record 9000]
  have hscale : Scale.create (5000 : UInt64).toNat 3 = .ok ⟨5000, 3, by decide, by decide⟩ := rfl
  obtain rfl := Except.ok.inj (hscale.symm.trans hs)
  obtain rfl := Except.ok.inj (hscale.symm.trans hs')
  refine ⟨fresh, _, hfresh, hs, halike.2 (by decide), hwithin.2 (by decide), fun hsame => ?_, ?_⟩
  · exact absurd (hunlike.1 hsame) (by decide)
  · exact (hless _ _ (by decide) (by decide)).2 (by decide)

theorem value_above_limit_kept :
    ∃ fresh s, create 1000 3 2 = .ok fresh ∧ Scale.create 1000 3 = .ok s ∧ s.highest 1000 = 1000 ∧
      let h := fresh.afterAll [.record 1500, .record 5000]
      let capped := fresh.afterAll [.record 1000, .record 1000]
      h.merge.max = 1500 ∧ capped.merge.max = 1000 ∧ ¬h.merge.Alike capped.merge ∧
      (Histogram.recorded s [5000]).max < (Histogram.recorded s [1500]).max := by
  refine ⟨_, _, rfl, rfl, ?_, ?_, ?_, ?_, ?_⟩
  · decide
  · decide
  · decide
  · intro hsame
    exact absurd hsame.max_eq (by decide)
  · decide

end RollingHistogram

end TrafficMonitor.Sketch
