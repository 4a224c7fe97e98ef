import TrafficMonitor.Proofs.Sketch.HeavyKeys

namespace TrafficMonitor.Sketch

open Text

namespace CountMin

variable {κ : Type}

theorem column_eq_mod (s : CountMin κ) (key : κ) (row : Nat) :
    s.column key row =
      ((s.hash key).toNat % 2 ^ 32 + row * ((s.hash key).toNat / 2 ^ 32 ||| 1)) % 2 ^ 64 % s.width := by
  have hmask : ((s.hash key).toNat &&& 4294967295) = (s.hash key).toNat % 2 ^ 32 :=
    Nat.and_two_pow_sub_one_eq_mod _ 32
  simp [column, UInt64.toNat_add, UInt64.toNat_mul, hmask, Nat.shiftRight_eq_div_pow]

theorem sharing_le_length (s : CountMin κ) (keys : List κ) (key : κ) (row : Nat) :
    s.sharing keys key row ≤ keys.length := List.countP_le_length

theorem sharing_perm (s : CountMin κ) {keys keys' : List κ} (h : keys'.Perm keys) (key : κ) :
    s.sharing keys' key = s.sharing keys key := by
  funext row
  exact h.countP_eq _

theorem sharing_eq_count [DecidableEq κ] {s : CountMin κ} {keys : List κ} {key : κ} {row : Nat}
    (h : ∀ other ∈ keys, s.column other row = s.column key row → other = key) :
    s.sharing keys key row = keys.count key := by
  apply List.countP_congr
  intro other ho
  rw [decide_eq_true_iff, beq_iff_eq]
  constructor
  · exact h other ho
  · rintro rfl
    rfl

section Run

variable {width depth : Nat} {hash : κ → UInt64} {keys : List κ}

theorem min?_sharing (hd : 0 < depth) (hk : keys.length ≤ Numeral.maxWord) (key : κ) :
    ((List.range depth).map ((empty width depth hash).sharing keys key)).min? =
      some (((empty width depth hash).addAll keys).estimate key) := by
  have hne : (List.range depth).map ((empty width depth hash).sharing keys key) ≠ [] := by
    intro h
    rw [List.map_eq_nil_iff, List.range_eq_nil] at h
    omega
  obtain ⟨least, hl⟩ := Option.isSome_iff_exists.1 (List.isSome_min?_of_ne_nil hne)
  rw [hl, Option.some_inj]
  apply eq_of_forall_le_iff
  intro m
  rw [le_estimate_addAll_iff hd hk, List.le_min?_iff hl]
  simp

theorem estimate_perm (hd : 0 < depth) (hk : keys.length ≤ Numeral.maxWord) {keys' : List κ}
    (h : keys'.Perm keys) (key : κ) :
    ((empty width depth hash).addAll keys').estimate key =
      ((empty width depth hash).addAll keys).estimate key := by
  apply Option.some.inj
  rw [← min?_sharing hd hk, ← min?_sharing hd (h.length_eq ▸ hk), sharing_perm _ h]

end Run

end CountMin

namespace TopK

theorem add_fst_eq_estimate {t : TopK} (hd : 0 < t.sketch.depth) (key : String) :
    (t.sketch.add key).1 = (t.add key).estimate key :=
  CountMin.add_fst_eq_estimate hd key

theorem estimate_eq_least_sharing {width depth capacity : Nat} {hash : String → UInt64}
    {keys : List String} (hw : 0 < width) (hd : 0 < depth) (hk : keys.length < 2 ^ 64)
    (key : String) :
    let s := CountMin.empty width depth hash
    let t := (empty s capacity).addAll keys
    ((List.range depth).map fun row =>
        keys.countP fun other => s.column other row = s.column key row).min? =
      some (t.estimate key) ∧
    keys.count key ≤ t.estimate key ∧ t.estimate key ≤ keys.length ∧
    (∀ keys', keys'.Perm keys → ((empty s capacity).addAll keys').estimate key = t.estimate key) ∧
    (∀ row < depth, (∀ other ∈ keys, other ≠ key → s.column other row ≠ s.column key row) →
      t.estimate key = keys.count key) ∧
    (∀ row, t.sketch.column key row = s.column key row ∧ s.column key row < width ∧
      s.column key row =
        ((hash key).toNat % 2 ^ 32 + row * ((hash key).toNat / 2 ^ 32 ||| 1)) % 2 ^ 64 % width) ∧
    (t.sketch.add key).1 = (t.add key).estimate key ∧
    (t.add key).candidates = enrol capacity ⟨key, (t.add key).estimate key⟩ t.candidates := by
  intro s t
  have hword : keys.length ≤ Numeral.maxWord := Nat.le_pred_of_lt hk
  have hestimate : t.estimate key = (s.addAll keys).estimate key := estimate_addAll s keys key
  have hwidth : s.width = width := Nat.max_eq_left hw
  obtain ⟨hcapacity, hsketch⟩ : t.capacity = capacity ∧ t.sketch = s.addAll keys :=
    addAll_shape (empty s capacity) keys
  obtain ⟨hdepth, hcolumn⟩ := CountMin.addAll_shape s keys
  have hpos : 0 < t.sketch.depth := by
    rw [hsketch]
    exact hdepth ▸ hd
  refine ⟨?_, ?_, ?_, ?_, ?_, ?_, add_fst_eq_estimate hpos key, ?_⟩
  · rw [hestimate]
    exact CountMin.min?_sharing hd hword key
  · rw [hestimate]
    exact CountMin.count_le_estimate hd hword key
  · rw [hestimate]
    exact (CountMin.estimate_le_sharing hword key hd).trans (CountMin.sharing_le_length s keys key 0)
  · intro keys' hperm
    rw [hestimate, estimate_addAll]
    exact CountMin.estimate_perm hd hword hperm key
  · intro row hrow hown
    rw [hestimate]
    apply CountMin.estimate_eq_count hword hrow
    apply CountMin.sharing_eq_count
    intro other ho hc
    by_contra hne
    exact hown other ho hne hc
  · intro row
    refine ⟨by rw [hsketch]; exact congrFun (congrFun hcolumn key) row, ?_, ?_⟩
    · exact hwidth ▸ s.column_lt key row
    · exact hwidth ▸ s.column_eq_mod key row
  · simpa only [hcapacity] using add_candidates hpos key

theorem estimate_eq_least_sharing_unseen :
    let s := CountMin.empty 3 2 fun key => if key = "/b" then 0x200000000 else 0
    ((empty s 1).addAll ["/a", "/b", "/a"]).estimate "/c" = 2 ∧
      ((empty s 1).addAll ["/b", "/a", "/a"]).estimate "/c" = 2 := by
  intro s
  obtain ⟨hmin, _, _, hperm, _⟩ := @estimate_eq_least_sharing 3 2 1
    (fun key => if key = "/b" then 0x200000000 else 0) ["/a", "/b", "/a"] (by decide) (by decide)
    (by decide) "/c"
  have hleast : ((List.range 2).map fun row =>
      ["/a", "/b", "/a"].countP fun other => s.column other row = s.column "/c" row).min? = some 2 := by
    decide
  have hestimate := Option.some.inj (hmin.symm.trans hleast)
  exact ⟨hestimate, (hperm _ (.swap _ _ _)).trans hestimate⟩

end TopK

end TrafficMonitor.Sketch
