import Mathlib.Data.List.Dedup
import Mathlib.Data.List.Perm.Subperm
import TrafficMonitor.Proofs.Sketch.Cells
import TrafficMonitor.Sketch.TopK

/-! Whatever keys share their cells, no key outside the top list was added more often than the list
says of any key in it. -/

namespace TrafficMonitor.Sketch

open Text

namespace TopK

theorem replaceFirst_perm {p : Element → Bool} {es : List Element} (new : Element)
    (h : ∃ e ∈ es, p e) :
    ∃ old rest, es.Perm (old :: rest) ∧ p old ∧ (replaceFirst p new es).Perm (new :: rest) := by
  induction es with
  | nil =>
    obtain ⟨e, he, _⟩ := h
    cases he
  | cons e es ih =>
    by_cases hp : p e
    · refine ⟨e, es, .refl _, hp, ?_⟩
      rw [replaceFirst, if_pos hp]
    · have hrest : ∃ e ∈ es, p e := by
        obtain ⟨x, hx, hpx⟩ := h
        rcases List.mem_cons.1 hx with rfl | hx
        · exact (hp hpx).elim
        · exact ⟨x, hx, hpx⟩
      obtain ⟨old, rest, hes, hold, hr⟩ := ih hrest
      refine ⟨old, e :: rest, (hes.cons e).trans (.swap old e rest), hold, ?_⟩
      rw [replaceFirst, if_neg hp]
      exact (hr.cons e).trans (.swap new e rest)

theorem lowest?_eq_some {es : List Element} {lowest : Nat} (h : lowest? es = some lowest) :
    (∃ e ∈ es, e.freq = lowest) ∧ ∀ e ∈ es, lowest ≤ e.freq := by
  obtain ⟨hm, hle⟩ := List.min?_eq_some_iff.1 h
  exact ⟨List.mem_map.1 hm, fun e he => hle e.freq (List.mem_map_of_mem he)⟩

inductive Enrolled (capacity : Nat) (new : Element) (es es' : List Element) : Prop
  | renewed (old : Element) (rest : List Element) (hkey : old.key = new.key)
      (hes : es.Perm (old :: rest)) (hes' : es'.Perm (new :: rest))
  | joined (hnew : new.key ∉ es.map Element.key) (hroom : es.length < capacity)
      (hes' : es'.Perm (new :: es))
  | displaced (weakest : Element) (rest : List Element) (hnew : new.key ∉ es.map Element.key)
      (hfull : capacity ≤ es.length) (hlowest : ∀ e ∈ es, weakest.freq ≤ e.freq)
      (hless : weakest.freq < new.freq)
      (hes : es.Perm (weakest :: rest)) (hes' : es'.Perm (new :: rest))
  | refused (hnew : new.key ∉ es.map Element.key) (hfull : capacity ≤ es.length)
      (hlowest : ∀ e ∈ es, new.freq ≤ e.freq) (hes' : es' = es)

theorem enrolled_enrol (capacity : Nat) (new : Element) (es : List Element) :
    Enrolled capacity new es (enrol capacity new es) := by
  rw [enrol]
  split
  case isTrue hany =>
    obtain ⟨old, rest, hes, hold, hr⟩ := replaceFirst_perm new (List.any_eq_true.1 hany)
    exact .renewed old rest (beq_iff_eq.1 hold) hes hr
  case isFalse hany =>
    have hnew : new.key ∉ es.map Element.key := by
      intro hm
      obtain ⟨e, he, hk⟩ := List.mem_map.1 hm
      exact hany (List.any_eq_true.2 ⟨e, he, beq_iff_eq.2 hk⟩)
    split
    case isTrue hroom => exact .joined hnew hroom (List.perm_append_singleton new es)
    case isFalse hroom =>
      have hfull := Nat.le_of_not_lt hroom
      split
      case h_1 hl =>
        have hnil : es = [] := by simpa [lowest?] using hl
        exact .refused hnew hfull (by simp [hnil]) rfl
      case h_2 lowest hl =>
        obtain ⟨⟨weak, hweak, hfreq⟩, hle⟩ := lowest?_eq_some hl
        split
        case isTrue hless =>
          obtain ⟨old, rest, hes, hold, hr⟩ := replaceFirst_perm (p := (·.freq == lowest)) new
            ⟨weak, hweak, beq_iff_eq.2 hfreq⟩
          have hlow : old.freq = lowest := beq_iff_eq.1 hold
          exact .displaced old rest hnew hfull (hlow ▸ hle) (hlow ▸ hless) hes hr
        case isFalse hless =>
          exact .refused hnew hfull (fun e he => (Nat.le_of_not_lt hless).trans (hle e he)) rfl

end TopK

structure Estimated (estimate : String → Nat) (keys : List String) (e : Element) : Prop where
  mem_keys : e.key ∈ keys
  count_le : keys.count e.key ≤ e.freq
  le_estimate : e.freq ≤ estimate e.key

/-- What the candidates are to the keys added so far, of which a sketch gives estimates. -/
structure Watched (capacity : Nat) (estimate : String → Nat) (keys : List String)
    (es : List Element) : Prop where
  nodup : (es.map Element.key).Nodup
  estimated : ∀ e ∈ es, Estimated estimate keys e
  length_le : es.length ≤ capacity
  all_of_room : es.length < capacity → ∀ key ∈ keys, key ∈ es.map Element.key
  outside_le : ∀ key ∉ es.map Element.key, ∀ e ∈ es, keys.count key ≤ e.freq

theorem count_concat_of_ne (keys : List String) {key other : String} (h : other ≠ key) :
    (keys ++ [key]).count other = keys.count other := by
  rw [List.count_append, List.count_singleton, if_neg (by simpa using h.symm), Nat.add_zero]

theorem key_ne_of_notMem {key : String} {es : List Element} (h : key ∉ es.map Element.key)
    {e : Element} (he : e ∈ es) : e.key ≠ key :=
  fun heq => h (heq ▸ List.mem_map_of_mem he)

section Step

variable {capacity : Nat} {estimate estimate' : String → Nat} {keys : List String} {key : String}
  {es es' : List Element}

theorem Estimated.keep {e : Element} (h : Estimated estimate keys e) (hne : e.key ≠ key)
    (hmono : ∀ k, estimate k ≤ estimate' k) : Estimated estimate' (keys ++ [key]) e where
  mem_keys := List.mem_append_left _ h.mem_keys
  count_le := (count_concat_of_ne keys hne).symm ▸ h.count_le
  le_estimate := h.le_estimate.trans (hmono e.key)

theorem Estimated.fresh (hcount : (keys ++ [key]).count key ≤ estimate' key) :
    Estimated estimate' (keys ++ [key]) ⟨key, estimate' key⟩ where
  mem_keys := List.mem_append_right _ List.mem_cons_self
  count_le := hcount
  le_estimate := Nat.le_refl _

namespace Watched

theorem nil (capacity : Nat) (estimate : String → Nat) : Watched capacity estimate [] [] := by
  constructor <;> simp

theorem perm (h : Watched capacity estimate keys es) (hp : es.Perm es') :
    Watched capacity estimate keys es' := by
  have hmem : ∀ e, e ∈ es' ↔ e ∈ es := fun e => hp.symm.mem_iff
  have hkey : ∀ k, k ∈ es'.map Element.key ↔ k ∈ es.map Element.key :=
    fun k => (hp.map Element.key).symm.mem_iff
  refine ⟨(hp.map Element.key).nodup h.nodup, ?_, hp.length_eq ▸ h.length_le, ?_, ?_⟩
  · exact fun e he => h.estimated e ((hmem e).1 he)
  · exact fun hl k hk => (hkey k).2 (h.all_of_room (hp.length_eq ▸ hl) k hk)
  · exact fun k hk e he => h.outside_le k (fun hm => hk ((hkey k).2 hm)) e ((hmem e).1 he)

theorem renew {old : Element} {rest : List Element}
    (h : Watched capacity estimate keys (old :: rest)) (hold : old.key = key)
    (hmono : ∀ k, estimate k ≤ estimate' k)
    (hcount : (keys ++ [key]).count key ≤ estimate' key) :
    Watched capacity estimate' (keys ++ [key]) (⟨key, estimate' key⟩ :: rest) := by
  subst hold
  obtain ⟨hout, _⟩ := List.nodup_cons.1 h.nodup
  obtain ⟨hestimated, hrest⟩ := List.forall_mem_cons.1 h.estimated
  have hfreq : old.freq ≤ estimate' old.key := hestimated.le_estimate.trans (hmono old.key)
  refine ⟨h.nodup, List.forall_mem_cons.2 ⟨.fresh hcount, ?_⟩, h.length_le, ?_, ?_⟩
  · exact fun e he => (hrest e he).keep (key_ne_of_notMem hout he) hmono
  · intro hroom k hk
    rcases List.mem_append.1 hk with hk | hk
    · exact h.all_of_room hroom k hk
    · rw [List.mem_singleton.1 hk]
      exact List.mem_cons_self
  · intro k hk
    obtain ⟨hle, hrestle⟩ := List.forall_mem_cons.1 (h.outside_le k hk)
    rw [count_concat_of_ne keys (List.ne_of_not_mem_cons hk)]
    exact List.forall_mem_cons.2 ⟨hle.trans hfreq, hrestle⟩

theorem join (h : Watched capacity estimate keys es) (hnew : key ∉ es.map Element.key)
    (hroom : es.length < capacity) (hmono : ∀ k, estimate k ≤ estimate' k)
    (hcount : (keys ++ [key]).count key ≤ estimate' key) :
    Watched capacity estimate' (keys ++ [key]) (⟨key, estimate' key⟩ :: es) := by
  have hall : ∀ k ∈ keys ++ [key], k ∈ key :: es.map Element.key := by
    intro k hk
    rcases List.mem_append.1 hk with hk | hk
    · exact List.mem_cons_of_mem _ (h.all_of_room hroom k hk)
    · rw [List.mem_singleton.1 hk]
      exact List.mem_cons_self
  refine ⟨List.nodup_cons.2 ⟨hnew, h.nodup⟩, List.forall_mem_cons.2 ⟨.fresh hcount, ?_⟩, hroom,
    fun _ => hall, ?_⟩
  · exact fun e he => (h.estimated e he).keep (key_ne_of_notMem hnew he) hmono
  · intro k hk e _
    rw [List.count_eq_zero_of_not_mem fun hm => hk (hall k hm)]
    exact Nat.zero_le _

theorem displace {weakest : Element} {rest : List Element}
    (h : Watched capacity estimate keys (weakest :: rest))
    (hnew : key ∉ (weakest :: rest).map Element.key) (hfull : capacity ≤ (weakest :: rest).length)
    (hlowest : ∀ e ∈ weakest :: rest, weakest.freq ≤ e.freq)
    (hless : weakest.freq < estimate' key)
    (hmono : ∀ k, estimate k ≤ estimate' k)
    (hcount : (keys ++ [key]).count key ≤ estimate' key) :
    Watched capacity estimate' (keys ++ [key]) (⟨key, estimate' key⟩ :: rest) := by
  have hout := List.not_mem_of_not_mem_cons hnew
  obtain ⟨hestimated, hrest⟩ := List.forall_mem_cons.1 h.estimated
  refine ⟨List.nodup_cons.2 ⟨hout, (List.nodup_cons.1 h.nodup).2⟩,
    List.forall_mem_cons.2 ⟨.fresh hcount, ?_⟩, h.length_le,
    fun hroom => (Nat.not_lt_of_le hfull hroom).elim, ?_⟩
  · exact fun e he => (hrest e he).keep (key_ne_of_notMem hout he) hmono
  · intro k hk
    rw [count_concat_of_ne keys (List.ne_of_not_mem_cons hk)]
    -- the key that leaves the list is bounded by its own frequency, all others as before
    have hle : keys.count k ≤ weakest.freq := by
      by_cases hw : k = weakest.key
      · exact hw ▸ hestimated.count_le
      · exact h.outside_le k (List.not_mem_cons_of_ne_of_not_mem hw (List.not_mem_of_not_mem_cons hk))
          weakest List.mem_cons_self
    refine List.forall_mem_cons.2 ⟨hle.trans hless.le, fun e he => ?_⟩
    exact hle.trans (hlowest e (List.mem_cons_of_mem _ he))

theorem refuse (h : Watched capacity estimate keys es) (hnew : key ∉ es.map Element.key)
    (hfull : capacity ≤ es.length) (hlowest : ∀ e ∈ es, estimate' key ≤ e.freq)
    (hmono : ∀ k, estimate k ≤ estimate' k)
    (hcount : (keys ++ [key]).count key ≤ estimate' key) :
    Watched capacity estimate' (keys ++ [key]) es := by
  refine ⟨h.nodup, ?_, h.length_le, fun hroom => (Nat.not_lt_of_le hfull hroom).elim, ?_⟩
  · exact fun e he => (h.estimated e he).keep (key_ne_of_notMem hnew he) hmono
  · intro k hk e he
    by_cases hkey : k = key
    · subst hkey
      exact hcount.trans (hlowest e he)
    · rw [count_concat_of_ne keys hkey]
      exact h.outside_le k hk e he

theorem enrol (h : Watched capacity estimate keys es) (hmono : ∀ k, estimate k ≤ estimate' k)
    (hcount : (keys ++ [key]).count key ≤ estimate' key)
    (he : TopK.Enrolled capacity ⟨key, estimate' key⟩ es es') :
    Watched capacity estimate' (keys ++ [key]) es' := by
  cases he with
  | renewed old rest hkey hes hes' => exact ((h.perm hes).renew hkey hmono hcount).perm hes'.symm
  | joined hnew hroom hes' => exact (h.join hnew hroom hmono hcount).perm hes'.symm
  | displaced weakest rest hnew hfull hlowest hless hes hes' =>
    have hkeys : key ∉ (weakest :: rest).map Element.key :=
      fun hm => hnew ((hes.map Element.key).mem_iff.2 hm)
    exact ((h.perm hes).displace hkeys (hes.length_eq ▸ hfull)
      (fun e he => hlowest e (hes.mem_iff.2 he)) hless hmono hcount).perm hes'.symm
  | refused hnew hfull hlowest hes' =>
    subst hes'
    exact h.refuse hnew hfull hlowest hmono hcount

end Watched

end Step

structure IsTop (n : Nat) (keys : List String) (top : List Element) : Prop where
  nodup : (top.map Element.key).Nodup
  mem_keys : ∀ e ∈ top, e.key ∈ keys
  length_eq : top.length = min n keys.dedup.length
  freq_eq : ∀ e ∈ top, e.freq = keys.count e.key
  outside_le : ∀ key ∉ top.map Element.key, ∀ e ∈ top, keys.count key ≤ e.freq
  ranked : top.Pairwise fun a b => TopK.ranksBefore a b

theorem Watched.length_eq {capacity : Nat} {estimate : String → Nat} {keys : List String}
    {es : List Element} (h : Watched capacity estimate keys es) :
    es.length = min capacity keys.dedup.length := by
  have hle : es.length ≤ keys.dedup.length := by
    rw [← es.length_map Element.key]
    refine (List.subperm_of_subset h.nodup fun key hk => ?_).length_le
    obtain ⟨e, he, rfl⟩ := List.mem_map.1 hk
    exact List.mem_dedup.2 (h.estimated e he).mem_keys
  rcases h.length_le.lt_or_eq with hlt | heq
  · have hge : keys.dedup.length ≤ es.length := by
      rw [← es.length_map Element.key]
      exact (List.subperm_of_subset keys.nodup_dedup fun key hk =>
        h.all_of_room hlt key (List.mem_dedup.1 hk)).length_le
    omega
  · omega

namespace TopK

theorem ranksBefore_iff {a b : Element} :
    ranksBefore a b ↔ b.freq < a.freq ∨ a.freq = b.freq ∧ a.key ≤ b.key := by
  simp only [ranksBefore, Bool.or_eq_true, Bool.and_eq_true, decide_eq_true_eq, beq_iff_eq]

theorem ranksBefore_trans (a b c : Element) (hab : ranksBefore a b) (hbc : ranksBefore b c) :
    ranksBefore a c := by
  rw [ranksBefore_iff] at *
  rcases hab with hab | ⟨hab, hkab⟩ <;> rcases hbc with hbc | ⟨hbc, hkbc⟩
  · exact .inl (by omega)
  · exact .inl (by omega)
  · exact .inl (by omega)
  · exact .inr ⟨hab.trans hbc, String.le_trans hkab hkbc⟩

theorem ranksBefore_total (a b : Element) : ranksBefore a b || ranksBefore b a := by
  rw [Bool.or_eq_true, ranksBefore_iff, ranksBefore_iff]
  rcases Nat.lt_trichotomy a.freq b.freq with hlt | heq | hgt
  · exact .inr (.inl hlt)
  · rcases String.le_total a.key b.key with hk | hk
    · exact .inl (.inr ⟨heq, hk⟩)
    · exact .inr (.inr ⟨heq.symm, hk⟩)
  · exact .inl (.inl hgt)

theorem ranked_elements (t : TopK) : t.elements.Pairwise fun a b => ranksBefore a b :=
  List.pairwise_mergeSort ranksBefore_trans ranksBefore_total t.candidates

def addAll (t : TopK) (keys : List String) : TopK := keys.foldl add t

theorem addAll_concat (t : TopK) (keys : List String) (key : String) :
    t.addAll (keys ++ [key]) = (t.addAll keys).add key := by
  simp only [addAll, List.foldl_append, List.foldl_cons, List.foldl_nil]

theorem addAll_shape (t : TopK) (keys : List String) :
    (t.addAll keys).capacity = t.capacity ∧ (t.addAll keys).sketch = t.sketch.addAll keys := by
  induction keys using List.reverseRecOn with
  | nil => exact ⟨rfl, rfl⟩
  | append_singleton keys key ih =>
    rw [addAll_concat, CountMin.addAll_concat, ← ih.2]
    exact ⟨ih.1, rfl⟩

theorem add_candidates {t : TopK} (hd : 0 < t.sketch.depth) (key : String) :
    (t.add key).candidates =
      enrol t.capacity ⟨key, (t.add key).estimate key⟩ t.candidates := by
  simp only [add, estimate, CountMin.add_fst_eq_estimate hd]

section Run

variable {width depth capacity : Nat} {hash : String → UInt64} {keys : List String}

theorem estimate_addAll (sketch : CountMin String) (keys : List String) (key : String) :
    ((empty sketch capacity).addAll keys).estimate key = (sketch.addAll keys).estimate key := by
  rw [estimate, (addAll_shape _ keys).2]
  rfl

theorem candidates_addAll_concat (hd : 0 < depth) (keys : List String) (key : String) :
    let t := empty (.empty width depth hash) capacity
    (t.addAll (keys ++ [key])).candidates =
      enrol capacity ⟨key, (t.addAll (keys ++ [key])).estimate key⟩ (t.addAll keys).candidates := by
  intro t
  obtain ⟨hcapacity, hsketch⟩ := addAll_shape t keys
  have hdepth : 0 < (t.addAll keys).sketch.depth := by
    rw [hsketch, (CountMin.addAll_shape _ keys).1]
    exact hd
  have hcandidates := add_candidates hdepth key
  rwa [hcapacity, ← addAll_concat] at hcandidates

theorem watched_addAll (hd : 0 < depth) (hk : keys.length ≤ Numeral.maxWord) :
    Watched capacity ((empty (.empty width depth hash) capacity).addAll keys).estimate keys
      ((empty (.empty width depth hash) capacity).addAll keys).candidates := by
  induction keys using List.reverseRecOn with
  | nil => exact .nil capacity _
  | append_singleton keys key ih =>
    have hbefore : keys.length ≤ Numeral.maxWord := by
      rw [List.length_append] at hk
      omega
    rw [candidates_addAll_concat hd]
    refine (ih hbefore).enrol (fun k => ?_) ?_ (enrolled_enrol _ _ _)
    · rw [estimate_addAll, estimate_addAll]
      exact CountMin.estimate_le_estimate_concat hd keys key k hk
    · rw [estimate_addAll]
      exact CountMin.count_le_estimate hd hk key

/-- A full list bounds the keys outside it, and any other list lists them all. Where no estimate is
in excess, the list is the exact one. -/
theorem no_heavy_key_missing (hd : 0 < depth) (hk : keys.length < 2 ^ 64) {t : TopK}
    (ht : t = (empty (.empty width depth hash) capacity).addAll keys) :
    (∀ e ∈ t.elements, keys.count e.key ≤ e.freq) ∧
    t.elements.length ≤ capacity ∧
    (t.elements.length = capacity → ∀ key ∉ t.elements.map Element.key, ∀ e ∈ t.elements,
      keys.count key ≤ e.freq) ∧
    (t.elements.length < capacity → ∀ key ∈ keys, key ∈ t.elements.map Element.key) ∧
    ((∀ key ∈ keys, t.estimate key = keys.count key) → IsTop capacity keys t.elements) := by
  subst ht
  have hword : keys.length ≤ Numeral.maxWord := Nat.le_pred_of_lt hk
  have h := (@watched_addAll width depth capacity hash keys hd hword).perm
    (List.mergeSort_perm _ ranksBefore).symm
  refine ⟨fun e he => (h.estimated e he).count_le, h.length_le, fun _ => h.outside_le,
    h.all_of_room, fun hexact => ?_⟩
  refine ⟨h.nodup, fun e he => (h.estimated e he).mem_keys, h.length_eq, fun e he => ?_,
    h.outside_le, ranked_elements _⟩
  obtain ⟨hmem, hle, hge⟩ := h.estimated e he
  exact Nat.le_antisymm (hexact e.key hmem ▸ hge) hle

theorem no_heavy_key_missing_displaced :
    ((empty (.empty 2 1 fun key => if key = "/a" then 0 else 1) 1).addAll
      ["/b", "/a", "/a"]).elements = [⟨"/a", 2⟩] := by
  have hown : ∀ key ∈ ["/b", "/a", "/a"],
      (CountMin.empty 2 1 fun key => if key = "/a" then 0 else 1).sharing ["/b", "/a", "/a"] key 0 =
        ["/b", "/a", "/a"].count key := by decide
  obtain ⟨_, _, _, _, htop⟩ := @no_heavy_key_missing 2 1 1 (fun key => if key = "/a" then 0 else 1)
    ["/b", "/a", "/a"] Nat.zero_lt_one (by decide) _ rfl
  have h := htop fun key hkey => by
    rw [estimate_addAll]
    exact CountMin.estimate_eq_count (by decide) Nat.zero_lt_one (hown key hkey)
  obtain ⟨⟨key, freq⟩, he⟩ := List.length_eq_one_iff.1 (h.length_eq.trans (by decide))
  rw [he] at h ⊢
  have hmem : key ∈ ["/b", "/a", "/a"] := h.mem_keys _ List.mem_cons_self
  have hfreq : freq = ["/b", "/a", "/a"].count key := h.freq_eq _ List.mem_cons_self
  have ha : key = "/a" := by
    by_contra hne
    have hb : key = "/b" := by simpa [hne] using hmem
    have hle : 2 ≤ freq := h.outside_le "/a" (by simpa using Ne.symm hne) _ List.mem_cons_self
    rw [hfreq, hb] at hle
    exact absurd hle (by decide)
  subst ha
  rw [hfreq]
  rfl

end Run

end TopK

end TrafficMonitor.Sketch
