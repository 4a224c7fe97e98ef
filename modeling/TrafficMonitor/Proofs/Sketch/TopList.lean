import TrafficMonitor.Proofs.Sketch.HeavyKeys

namespace TrafficMonitor.Sketch

open Text

namespace TopK

section Step

variable {capacity : Nat} {new : Element} {es es' : List Element}

theorem Enrolled.eq_or_mem (h : Enrolled capacity new es es') (hnodup : (es.map Element.key).Nodup)
    {e : Element} (he : e ∈ es') : e = new ∨ e ∈ es ∧ e.key ≠ new.key := by
  cases h with
  | renewed old rest hkey hes hes' =>
    have hout := (List.nodup_cons.1 ((hes.map Element.key).nodup hnodup)).1
    rcases List.mem_cons.1 (hes'.mem_iff.1 he) with rfl | hrest
    · exact .inl rfl
    · refine .inr ⟨hes.mem_iff.2 (List.mem_cons_of_mem _ hrest), ?_⟩
      exact hkey ▸ key_ne_of_notMem hout hrest
  | joined hnew _ hes' =>
    rcases List.mem_cons.1 (hes'.mem_iff.1 he) with rfl | hold
    · exact .inl rfl
    · exact .inr ⟨hold, key_ne_of_notMem hnew hold⟩
  | displaced weakest rest hnew _ _ _ hes hes' =>
    rcases List.mem_cons.1 (hes'.mem_iff.1 he) with rfl | hrest
    · exact .inl rfl
    · have hold := hes.mem_iff.2 (List.mem_cons_of_mem _ hrest)
      exact .inr ⟨hold, key_ne_of_notMem hnew hold⟩
  | refused hnew _ _ hes' =>
    rw [hes'] at he
    exact .inr ⟨he, key_ne_of_notMem hnew he⟩

theorem Enrolled.mem_keys (h : Enrolled capacity new es es') (hnodup : (es.map Element.key).Nodup)
    {key : String} (hkey : key ∈ es'.map Element.key) : key = new.key ∨ key ∈ es.map Element.key := by
  obtain ⟨e, he, rfl⟩ := List.mem_map.1 hkey
  rcases h.eq_or_mem hnodup he with rfl | ⟨hold, -⟩
  · exact .inl rfl
  · exact .inr (List.mem_map_of_mem hold)

theorem Enrolled.exists_weakest (h : Enrolled capacity new es es') (hfull : capacity ≤ es.length)
    (hout : new.key ∉ es.map Element.key) (hin : new.key ∈ es'.map Element.key) :
    ∃ weakest ∈ es, (∀ e ∈ es, weakest.freq ≤ e.freq) ∧ weakest.freq < new.freq := by
  cases h with
  | renewed old rest hkey hes _ =>
    exact absurd (hkey ▸ List.mem_map_of_mem (hes.mem_iff.2 List.mem_cons_self)) hout
  | joined _ hroom _ => exact absurd hroom (Nat.not_lt_of_le hfull)
  | displaced weakest rest _ _ hlowest hless hes _ =>
    exact ⟨weakest, hes.mem_iff.2 List.mem_cons_self, hlowest, hless⟩
  | refused _ _ _ hes' =>
    rw [hes'] at hin
    exact absurd hin hout

end Step

def LastRead (reading : List String → String → Nat) (keys : List String) (e : Element) : Prop :=
  ∃ before later, keys = before ++ e.key :: later ∧ e.key ∉ later ∧
    e.freq = reading (before ++ [e.key]) e.key

section LastRead

variable {reading : List String → String → Nat} {keys : List String} {key : String}

theorem LastRead.keep {e : Element} (h : LastRead reading keys e) (hne : e.key ≠ key) :
    LastRead reading (keys ++ [key]) e := by
  obtain ⟨before, later, rfl, hlast, hfreq⟩ := h
  refine ⟨before, later ++ [key], by simp, ?_, hfreq⟩
  simpa [hne] using hlast

theorem LastRead.fresh : LastRead reading (keys ++ [key]) ⟨key, reading (keys ++ [key]) key⟩ :=
  ⟨keys, [], rfl, List.not_mem_nil, rfl⟩

end LastRead

section Run

variable {width depth capacity : Nat} {hash : String → UInt64} {keys : List String}

theorem perm_elements (t : TopK) : t.elements.Perm t.candidates :=
  List.mergeSort_perm t.candidates ranksBefore

theorem strictly_ranked {t : TopK} (hnodup : (t.elements.map Element.key).Nodup) :
    t.elements.Pairwise fun a b => b.freq < a.freq ∨ a.freq = b.freq ∧ a.key < b.key := by
  refine (t.ranked_elements.and (List.pairwise_map.1 hnodup)).imp ?_
  rintro a b ⟨hranks, hkey⟩
  refine (ranksBefore_iff.1 hranks).imp_right fun ⟨hfreq, hle⟩ => ⟨hfreq, ?_⟩
  by_contra hlt
  exact hkey (String.le_antisymm hle (String.not_lt.1 hlt))

theorem enrolled_addAll (hd : 0 < depth) (keys : List String) (key : String) :
    let t := empty (.empty width depth hash) capacity
    Enrolled capacity ⟨key, (t.addAll (keys ++ [key])).estimate key⟩ (t.addAll keys).candidates
      (t.addAll (keys ++ [key])).candidates := by
  intro t
  rw [candidates_addAll_concat hd]
  exact enrolled_enrol _ _ _

theorem lastRead_addAll (hd : 0 < depth) (hk : keys.length ≤ Numeral.maxWord) :
    let t := empty (.empty width depth hash) capacity
    ∀ e ∈ (t.addAll keys).candidates, LastRead (fun keys => (t.addAll keys).estimate) keys e := by
  intro t
  induction keys using List.reverseRecOn with
  | nil =>
    intro e he
    cases he
  | append_singleton keys key ih =>
    have hbefore : keys.length ≤ Numeral.maxWord := by
      rw [List.length_append] at hk
      omega
    intro e he
    have hnodup := (@watched_addAll width depth capacity hash keys hd hbefore).nodup
    rcases (enrolled_addAll hd keys key).eq_or_mem hnodup he with rfl | ⟨hold, hne⟩
    · exact .fresh
    · exact (ih hbefore e hold).keep hne

theorem mem_of_mem_addAll (hd : 0 < depth) {more : List String}
    (hk : (keys ++ more).length ≤ Numeral.maxWord) :
    let t := empty (.empty width depth hash) capacity
    ∀ e ∈ (t.addAll (keys ++ more)).candidates, e.key ∉ more → e ∈ (t.addAll keys).candidates := by
  intro t
  induction more using List.reverseRecOn with
  | nil =>
    intro e he _
    rwa [List.append_nil] at he
  | append_singleton more key ih =>
    rw [← List.append_assoc, List.length_append] at hk
    have hbefore : (keys ++ more).length ≤ Numeral.maxWord := by omega
    intro e he hnot
    have hnodup := (@watched_addAll width depth capacity hash (keys ++ more) hd hbefore).nodup
    rw [← List.append_assoc] at he
    rcases (enrolled_addAll hd (keys ++ more) key).eq_or_mem hnodup he with rfl | ⟨hold, -⟩
    · exact absurd (List.mem_append_right more List.mem_cons_self) hnot
    · exact ih hbefore e hold fun hm => hnot (List.mem_append_left _ hm)

theorem exists_return (hd : 0 < depth) {more : List String} {key : String}
    (hk : (keys ++ more).length ≤ Numeral.maxWord) (hadded : key ∈ keys) :
    let t := empty (.empty width depth hash) capacity
    key ∉ (t.addAll keys).candidates.map Element.key →
    key ∈ (t.addAll (keys ++ more)).candidates.map Element.key →
    ∃ middle rest, more = middle ++ key :: rest ∧
      key ∉ (t.addAll (keys ++ middle)).candidates.map Element.key ∧
      ∃ weakest ∈ (t.addAll (keys ++ middle)).candidates,
        (∀ e ∈ (t.addAll (keys ++ middle)).candidates, weakest.freq ≤ e.freq) ∧
        weakest.freq < (t.addAll (keys ++ middle ++ [key])).estimate key := by
  intro t hout hin
  induction more using List.reverseRecOn with
  | nil =>
    rw [List.append_nil] at hin
    exact absurd hin hout
  | append_singleton more last ih =>
    rw [← List.append_assoc, List.length_append] at hk
    have hbefore : (keys ++ more).length ≤ Numeral.maxWord := by omega
    by_cases hlisted : key ∈ (t.addAll (keys ++ more)).candidates.map Element.key
    · obtain ⟨middle, rest, rfl, hreturn⟩ := ih hbefore hlisted
      exact ⟨middle, rest ++ [last], by simp, hreturn⟩
    · have hwatched := @watched_addAll width depth capacity hash (keys ++ more) hd hbefore
      have henrolled := @enrolled_addAll width depth capacity hash hd (keys ++ more) last
      rw [← List.append_assoc] at hin
      obtain rfl : key = last := (henrolled.mem_keys hwatched.nodup hin).resolve_right hlisted
      -- with a place left the list would hold every added key
      have hfull : capacity ≤ (t.addAll (keys ++ more)).candidates.length := by
        by_contra hroom
        exact hlisted (hwatched.all_of_room (Nat.lt_of_not_le hroom) key
          (List.mem_append_left _ hadded))
      exact ⟨more, [], rfl, hlisted, henrolled.exists_weakest hfull hlisted hin⟩

/-- The list holds as many of the added keys as it has places for, each once, by falling frequency
and then by key. A frequency dates from the last addition of its key and is not touched by those of
others; a key that was dropped gets back only by exceeding the weakest entry. -/
theorem top_list_of_additions (hd : 0 < depth) (hk : keys.length < 2 ^ 64) :
    let run := (empty (.empty width depth hash) capacity).addAll
    let listed := fun keys => (run keys).elements.map Element.key
    (listed keys).Nodup ∧
    (∀ e ∈ (run keys).elements, e.key ∈ keys) ∧
    (run keys).elements.length = min capacity keys.dedup.length ∧
    ((run keys).elements.Pairwise fun a b => b.freq < a.freq ∨ a.freq = b.freq ∧ a.key < b.key) ∧
    (∀ e ∈ (run keys).elements, ∃ before later, keys = before ++ e.key :: later ∧ e.key ∉ later ∧
      e.freq = (run (before ++ [e.key])).estimate e.key) ∧
    (∀ e ∈ (run keys).elements, e.freq ≤ (run keys).estimate e.key) ∧
    (∀ before later, keys = before ++ later →
      ∀ e ∈ (run keys).elements, e.key ∉ later → e ∈ (run before).elements) ∧
    (∀ before later, keys = before ++ later →
      ∀ key ∈ before, key ∉ listed before → key ∈ listed keys →
        ∃ middle rest, later = middle ++ key :: rest ∧ key ∉ listed (before ++ middle) ∧
          ∃ weakest ∈ (run (before ++ middle)).elements,
            (∀ e ∈ (run (before ++ middle)).elements, weakest.freq ≤ e.freq) ∧
            weakest.freq < (run (before ++ middle ++ [key])).estimate key) := by
  intro run listed
  have hword : keys.length ≤ Numeral.maxWord := Nat.le_pred_of_lt hk
  have hmem (keys : List String) (e : Element) :
      e ∈ (run keys).elements ↔ e ∈ (run keys).candidates := (perm_elements _).mem_iff
  have hlisted (keys : List String) (key : String) :
      key ∈ listed keys ↔ key ∈ (run keys).candidates.map Element.key :=
    ((perm_elements _).map Element.key).mem_iff
  have h := (@watched_addAll width depth capacity hash keys hd hword).perm (perm_elements _).symm
  refine ⟨h.nodup, fun e he => (h.estimated e he).mem_keys, h.length_eq, strictly_ranked h.nodup,
    fun e he => lastRead_addAll hd hword e ((hmem keys e).1 he),
    fun e he => (h.estimated e he).le_estimate, ?_, ?_⟩
  · rintro before later rfl e he hnot
    exact (hmem before e).2 (mem_of_mem_addAll hd hword e ((hmem _ e).1 he) hnot)
  · rintro before later rfl key hadded hout hin
    simp only [hlisted, hmem] at hout hin ⊢
    exact exists_return hd hword hadded hout hin

theorem top_list_of_additions_returned :
    let run := (empty (.empty 1 1 fun _ => 0) 1).addAll
    (run ["/a", "/b"]).elements = [⟨"/b", 2⟩] ∧ (run ["/a", "/b", "/a"]).elements = [⟨"/a", 3⟩] ∧
      ∃ weakest ∈ (run ["/a", "/b"]).elements,
        weakest.freq < (run ["/a", "/b", "/a"]).estimate "/a" := by
  intro run
  have hestimate (keys : List String) (hk : keys.length ≤ Numeral.maxWord) (key : String) :
      (run keys).estimate key = keys.length := by
    have hsharing : (CountMin.empty 1 1 fun _ => 0).sharing keys key 0 = keys.length := by
      refine List.countP_eq_length.2 fun other _ => decide_eq_true ?_
      rfl
    rw [estimate_addAll]
    refine eq_of_forall_le_iff fun m => ?_
    rw [CountMin.le_estimate_addAll_iff Nat.zero_lt_one hk]
    simp [hsharing]
  have hstep (keys : List String) (key : String) (hk : (keys ++ [key]).length ≤ Numeral.maxWord) :
      (run (keys ++ [key])).candidates =
        enrol 1 ⟨key, (keys ++ [key]).length⟩ (run keys).candidates := by
    rw [← hestimate _ hk key]
    exact candidates_addAll_concat Nat.zero_lt_one keys key
  have hfirst : (run ["/a"]).candidates = [⟨"/a", 1⟩] := hstep [] "/a" (by decide)
  have hsecond : (run ["/a", "/b"]).candidates = [⟨"/b", 2⟩] := by
    refine (hstep ["/a"] "/b" (by decide)).trans ?_
    rw [hfirst]
    decide
  have hthird : (run ["/a", "/b", "/a"]).candidates = [⟨"/a", 3⟩] := by
    refine (hstep ["/a", "/b"] "/a" (by decide)).trans ?_
    rw [hsecond]
    decide
  have hsorted (e : Element) : [e].mergeSort ranksBefore = [e] := List.mergeSort_singleton e
  have hbefore : (run ["/a", "/b"]).elements = [⟨"/b", 2⟩] := by rw [elements, hsecond, hsorted]
  have hafter : (run ["/a", "/b", "/a"]).elements = [⟨"/a", 3⟩] := by rw [elements, hthird, hsorted]
  obtain ⟨_, _, _, _, _, _, _, hreturn⟩ := @top_list_of_additions 1 1 1 (fun _ => 0)
    ["/a", "/b", "/a"] Nat.zero_lt_one (by decide)
  have hout : "/a" ∉ (run ["/a", "/b"]).elements.map Element.key := by
    rw [hbefore]
    decide
  have hin : "/a" ∈ (run ["/a", "/b", "/a"]).elements.map Element.key := by
    rw [hafter]
    decide
  obtain ⟨middle, rest, hlater, _, weakest, hweakest, _, hless⟩ :=
    hreturn ["/a", "/b"] ["/a"] rfl "/a" List.mem_cons_self hout hin
  obtain rfl : middle = [] := by
    cases middle with
    | nil => rfl
    | cons key middle => simp at hlater
  exact ⟨hbefore, hafter, weakest, hweakest, hless⟩

end Run

end TopK

end TrafficMonitor.Sketch
