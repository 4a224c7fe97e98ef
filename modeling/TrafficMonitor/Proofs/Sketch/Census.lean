import TrafficMonitor.Proofs.Sketch.Estimates

namespace TrafficMonitor.Sketch

open Text

namespace CountMin

variable {κ : Type}

def HasOwnCell (s : CountMin κ) (keys : List κ) (key : κ) : Prop :=
  ∃ row < s.depth, ∀ other ∈ keys, s.column other row = s.column key row → other = key

theorem HasOwnCell.mono {s : CountMin κ} {keys fewer : List κ} {key : κ}
    (h : s.HasOwnCell keys key) (hsub : fewer ⊆ keys) : s.HasOwnCell fewer key := by
  obtain ⟨row, hrow, hown⟩ := h
  exact ⟨row, hrow, fun other ho => hown other (hsub ho)⟩

theorem HasOwnCell.of_alone {s : CountMin κ} {keys : List κ} {key : κ} (hd : 0 < s.depth)
    (h : ∀ other ∈ keys, other = key) : s.HasOwnCell keys key :=
  ⟨0, hd, fun other ho _ => h other ho⟩

theorem HasOwnCell.estimate_eq [DecidableEq κ] {width depth : Nat} {hash : κ → UInt64}
    {keys : List κ} {key : κ} (h : (empty width depth hash).HasOwnCell keys key) :
    ((empty width depth hash).addAll keys).estimate key = min (keys.count key) Numeral.maxWord := by
  obtain ⟨row, hrow, hown⟩ := h
  have hd : 0 < depth := Nat.zero_lt_of_lt hrow
  apply Nat.le_antisymm
  · have hle : ((empty width depth hash).addAll keys).estimate key ≤
        min ((empty width depth hash).sharing keys key row) Numeral.maxWord :=
      (le_estimate_addAll_iff_le_min hd keys).1 (Nat.le_refl _) row hrow
    rwa [sharing_eq_count hown] at hle
  · apply (le_estimate_addAll_iff_le_min hd keys).2
    intro row _
    have hle := count_le_sharing (empty width depth hash) keys key row
    omega

end CountMin

structure Census (keys : List String) (es : List Element) : Prop where
  nodup : (es.map Element.key).Nodup
  mem_iff : ∀ key, key ∈ es.map Element.key ↔ key ∈ keys
  freq_eq : ∀ e ∈ es, e.freq = min (keys.count e.key) Numeral.maxWord

namespace Census

variable {keys keys' : List String} {es es' : List Element} {key : String}

theorem nil : Census [] [] := by
  constructor <;> simp

theorem perm (h : Census keys es) (hp : es.Perm es') : Census keys es' := by
  refine ⟨(hp.map Element.key).nodup h.nodup, fun key => ?_, fun e he => ?_⟩
  · rw [← h.mem_iff, (hp.map Element.key).mem_iff]
  · exact h.freq_eq e (hp.mem_iff.2 he)

theorem perm_keys (h : Census keys es) (hp : keys.Perm keys') : Census keys' es := by
  refine ⟨h.nodup, fun key => ?_, fun e he => ?_⟩
  · rw [h.mem_iff, hp.mem_iff]
  · rw [h.freq_eq e he, hp.count_eq]

theorem mem_of_mem (h : Census keys es) (h' : Census keys es') {e : Element} (he : e ∈ es) :
    e ∈ es' := by
  have hkey : e.key ∈ es'.map Element.key :=
    (h'.mem_iff e.key).2 ((h.mem_iff e.key).1 (List.mem_map_of_mem he))
  obtain ⟨e', he', hsame⟩ := List.mem_map.1 hkey
  have hfreq : e'.freq = e.freq := by
    rw [h'.freq_eq e' he', hsame, h.freq_eq e he]
  have heq : e' = e := by
    cases e
    cases e'
    simp_all
  exact heq ▸ he'

theorem unique (h : Census keys es) (h' : Census keys es') : es.Perm es' := by
  rw [List.perm_ext_iff_of_nodup (List.Nodup.of_map _ h.nodup) (List.Nodup.of_map _ h'.nodup)]
  exact fun e => ⟨fun he => h.mem_of_mem h' he, fun he => h'.mem_of_mem h he⟩

theorem renew {old : Element} {rest : List Element} {freq : Nat} (h : Census keys (old :: rest))
    (hkey : old.key = key) (hfreq : freq = min ((keys ++ [key]).count key) Numeral.maxWord) :
    Census (keys ++ [key]) (⟨key, freq⟩ :: rest) := by
  subst hkey
  have hout := (List.nodup_cons.1 h.nodup).1
  have hmem := (h.mem_iff old.key).1 List.mem_cons_self
  refine ⟨h.nodup, fun key => ?_, List.forall_mem_cons.2 ⟨hfreq, fun e he => ?_⟩⟩
  · rw [List.mem_append, List.mem_singleton, ← h.mem_iff]
    constructor
    · exact .inl
    · rintro (hk | rfl)
      · exact hk
      · exact List.mem_cons_self
  · rw [count_concat_of_ne keys (key_ne_of_notMem hout he)]
    exact h.freq_eq e (List.mem_cons_of_mem _ he)

theorem join {freq : Nat} (h : Census keys es) (hnew : key ∉ es.map Element.key)
    (hfreq : freq = min ((keys ++ [key]).count key) Numeral.maxWord) :
    Census (keys ++ [key]) (⟨key, freq⟩ :: es) := by
  refine ⟨List.nodup_cons.2 ⟨hnew, h.nodup⟩, fun other => ?_,
    List.forall_mem_cons.2 ⟨hfreq, fun e he => ?_⟩⟩
  · rw [List.map_cons, List.mem_cons, h.mem_iff, List.mem_append, List.mem_singleton, or_comm]
  · rw [count_concat_of_ne keys (key_ne_of_notMem hnew he)]
    exact h.freq_eq e he

theorem length_lt {capacity : Nat} (h : Census keys es) (hnew : key ∉ es.map Element.key)
    (hroom : ∀ distinct : List String, distinct.Nodup → distinct ⊆ keys ++ [key] →
      distinct.length ≤ capacity) : es.length < capacity := by
  have hle := hroom (key :: es.map Element.key) (List.nodup_cons.2 ⟨hnew, h.nodup⟩) (by
    intro other ho
    rcases List.mem_cons.1 ho with rfl | ho
    · exact List.mem_append_right _ List.mem_cons_self
    · exact List.mem_append_left _ ((h.mem_iff other).1 ho))
  rwa [List.length_cons, List.length_map] at hle

theorem enrol {capacity freq : Nat} (h : Census keys es)
    (hroom : ∀ distinct : List String, distinct.Nodup → distinct ⊆ keys ++ [key] →
      distinct.length ≤ capacity)
    (hfreq : freq = min ((keys ++ [key]).count key) Numeral.maxWord)
    (he : TopK.Enrolled capacity ⟨key, freq⟩ es es') : Census (keys ++ [key]) es' := by
  cases he with
  | renewed old rest hkey hes hes' => exact ((h.perm hes).renew hkey hfreq).perm hes'.symm
  | joined hnew _ hes' => exact (h.join hnew hfreq).perm hes'.symm
  | displaced weakest rest hnew hfull _ _ _ _ =>
    exact absurd (h.length_lt hnew hroom) (Nat.not_lt_of_le hfull)
  | refused hnew hfull _ _ => exact absurd (h.length_lt hnew hroom) (Nat.not_lt_of_le hfull)

end Census

namespace TopK

variable {width depth capacity : Nat} {hash : String → UInt64} {keys keys' : List String}

theorem census_addAll
    (hroom : ∀ distinct : List String, distinct.Nodup → distinct ⊆ keys → distinct.length ≤ capacity)
    (hown : ∀ key ∈ keys, (CountMin.empty width depth hash).HasOwnCell keys key) :
    Census keys ((empty (.empty width depth hash) capacity).addAll keys).candidates := by
  induction keys using List.reverseRecOn with
  | nil => exact .nil
  | append_singleton keys key ih =>
    have hsub : keys ⊆ keys ++ [key] := List.subset_append_left _ _
    have hbefore := ih (fun l hl hs => hroom l hl (List.Subset.trans hs hsub))
      fun k hk => (hown k (hsub hk)).mono hsub
    have hkey := hown key (List.mem_append_right _ List.mem_cons_self)
    have hdepth : 0 < depth := by
      obtain ⟨_, hlt, _⟩ := hkey
      exact Nat.zero_lt_of_lt hlt
    rw [candidates_addAll_concat hdepth]
    refine hbefore.enrol hroom ?_ (enrolled_enrol _ _ _)
    rw [estimate_addAll]
    exact hkey.estimate_eq

theorem ranksBefore_antisymm {a b : Element} (hab : ranksBefore a b) (hba : ranksBefore b a) :
    a = b := by
  rw [ranksBefore_iff] at hab hba
  have hfreq : a.freq = b.freq := by omega
  have hkey : a.key = b.key :=
    String.le_antisymm (hab.resolve_left (by omega)).2 (hba.resolve_left (by omega)).2
  cases a
  cases b
  simp_all

theorem elements_eq_of_census {t t' : TopK} (h' : Census keys t'.elements)
    (h : Census keys t.elements) : t'.elements = t.elements :=
  List.Perm.eq_of_pairwise (fun _ _ _ _ => ranksBefore_antisymm) t'.ranked_elements
    t.ranked_elements (h'.unique h)

theorem census_elements (hroom : keys.dedup.length ≤ capacity)
    (hown : ∀ key ∈ keys, (CountMin.empty width depth hash).HasOwnCell keys key) :
    Census keys ((empty (.empty width depth hash) capacity).addAll keys).elements := by
  have hdistinct (distinct : List String) (hd : distinct.Nodup) (hs : distinct ⊆ keys) :
      distinct.length ≤ capacity :=
    (List.subperm_of_subset hd fun _ hk => List.mem_dedup.2 (hs hk)).length_le.trans hroom
  exact (census_addAll hdistinct hown).perm (List.mergeSort_perm _ _).symm

theorem elements_addAll_perm (hp : keys'.Perm keys) (hroom : keys.dedup.length ≤ capacity)
    (hown : ∀ key ∈ keys, (CountMin.empty width depth hash).HasOwnCell keys key) :
    ((empty (.empty width depth hash) capacity).addAll keys').elements =
      ((empty (.empty width depth hash) capacity).addAll keys).elements := by
  have hroom' : keys'.dedup.length ≤ capacity := hp.dedup.length_eq ▸ hroom
  have hown' (key : String) (hk : key ∈ keys') :
      (CountMin.empty width depth hash).HasOwnCell keys' key :=
    (hown key (hp.subset hk)).mono hp.subset
  exact elements_eq_of_census ((census_elements hroom' hown').perm_keys hp) (census_elements hroom hown)

end TopK

end TrafficMonitor.Sketch
