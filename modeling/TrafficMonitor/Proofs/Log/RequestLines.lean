import TrafficMonitor.Proofs.Log.RequestPattern

namespace TrafficMonitor.Log.RequestLine

open Text Text.CharClass

structure BeginsAt (ts : List (List Char)) (n : Nat) : Prop where
  inside : n + 2 < ts.length
  target : ∃ path query, SplitsTarget ts[n + 1] path query
  protocol : "HTTP/".toList <+: ts[n + 2]

theorem isSome_target?_iff {target : List Char} :
    (target? target).isSome = true ↔ ∃ path query, SplitsTarget target path query := by
  cases hread : target? target with
  | none =>
    refine iff_of_false nofun ?_
    rintro ⟨path, query, hsplit⟩
    exact target?_eq_none hread path query hsplit
  | some read => exact iff_of_true rfl ⟨_, _, (target?_eq_some hread).1⟩

theorem isSome_protocol?_iff {n : Nat} {cs : List Char} :
    (protocol? (fromToken n cs)).isSome = true ↔ "HTTP/".toList <+: token n cs := by
  rw [protocol?, token]
  constructor
  · intro h
    split at h
    case isTrue hhttp =>
      obtain ⟨rest, hrest⟩ := List.isPrefixOf_iff_prefix.1 hhttp
      rw [← hrest, List.takeWhile_append_of_pos (List.all_eq_true.1 (by decide))]
      exact List.prefix_append _ _
    case isFalse => cases h
  · intro h
    rw [if_pos (List.isPrefixOf_iff_prefix.2 (h.trans (List.takeWhile_prefix _)))]
    rfl

theorem isSome_here?_iff {n : Nat} {cs : List Char} :
    (here? (fromToken n cs)).isSome = true ↔ BeginsAt (tokens cs) n := by
  have hparts : (here? (fromToken n cs)).isSome = true ↔
      (target? (token (n + 1) cs)).isSome = true ∧ (protocol? (fromToken (n + 2) cs)).isSome = true := by
    rw [here?_fromToken]
    cases target? (token (n + 1) cs) <;> simp
  rw [hparts, isSome_target?_iff, isSome_protocol?_iff]
  constructor
  · rintro ⟨htarget, hprotocol⟩
    have inside : n + 2 < (tokens cs).length := by
      refine lt_length_tokens_iff.2 fun hnil => ?_
      rw [token, hnil] at hprotocol
      exact absurd (List.prefix_nil.1 hprotocol) (by decide)
    refine ⟨inside, ?_, ?_⟩
    · rwa [getElem_tokens]
    · rwa [getElem_tokens]
  · rintro ⟨inside, htarget, hprotocol⟩
    rw [getElem_tokens] at htarget hprotocol
    exact ⟨htarget, hprotocol⟩

theorem here?_eq_none_iff {n : Nat} {cs : List Char} :
    here? (fromToken n cs) = none ↔ ¬BeginsAt (tokens cs) n := by
  rw [← isSome_here?_iff, Option.not_isSome_iff_eq_none]

theorem here?_of_beginsAt {n : Nat} {cs : List Char} (h : BeginsAt (tokens cs) n) :
    ∃ path query, SplitsTarget (token (n + 1) cs) path query ∧
      (∀ p q, SplitsTarget (token (n + 1) cs) p q → p.length ≤ path.length) ∧
      here? (fromToken n cs) = some ⟨.ofList (token n cs), .ofList path, .ofList query,
        .ofList ((fromToken (n + 2) cs).takeWhile (· ≠ '\n'))⟩ := by
  obtain ⟨line, hline⟩ := Option.isSome_iff_exists.1 (isSome_here?_iff.2 h)
  have hread := hline
  rw [here?_fromToken] at hread
  obtain ⟨⟨path, query⟩, htarget, hread⟩ := Option.bind_eq_some_iff.1 hread
  obtain ⟨protocol, hprotocol, rfl⟩ := Option.map_eq_some_iff.1 hread
  obtain ⟨hsplit, hlongest⟩ := target?_eq_some htarget
  refine ⟨path, query, hsplit, hlongest, ?_⟩
  rw [protocol?] at hprotocol
  split at hprotocol
  case isTrue =>
    cases hprotocol
    exact hline
  case isFalse => cases hprotocol

theorem getElem?_tokens_of_beginsAt {n : Nat} {cs : List Char} (h : BeginsAt (tokens cs) n) :
    (tokens cs)[n]? = some (token n cs) ∧ (tokens cs)[n + 1]? = some (token (n + 1) cs) := by
  have hinside := h.inside
  have hget (m : Nat) (hm : m < (tokens cs).length) : (tokens cs)[m]? = some (token m cs) := by
    rw [List.getElem?_eq_getElem hm, getElem_tokens]
  exact ⟨hget n (by omega), hget (n + 1) (by omega)⟩

/-- The reader answers as the pattern with the choices it prefers, and what these come to is told by the
tokens: nothing is read if no request line begins at any of them, and else the first one that begins, with
the longest path its target has and a protocol up to the end of its line. -/
theorem parse?_eq_first_beginning (s : String) :
    parse? s = (occurrences s.toList).head? ∧
    (parse? s = none ↔ ∀ n, ¬BeginsAt (tokens s.toList) n) ∧
    ∀ n, BeginsAt (tokens s.toList) n → (∀ m < n, ¬BeginsAt (tokens s.toList) m) →
      ∃ method target path query,
        (tokens s.toList)[n]? = some method ∧ (tokens s.toList)[n + 1]? = some target ∧
        SplitsTarget target path query ∧ (∀ p q, SplitsTarget target p q → p.length ≤ path.length) ∧
        parse? s = some ⟨.ofList method, .ofList path, .ofList query,
          .ofList ((fromToken (n + 2) s.toList).takeWhile (· ≠ '\n'))⟩ := by
  refine ⟨parse?_eq_head?_occurrences s, ?_, ?_⟩
  · rw [parse?, search?_eq_none_iff]
    exact forall_congr' fun n => here?_eq_none_iff
  · intro n h hfirst
    obtain ⟨path, query, hsplit, hlongest, hhere⟩ := here?_of_beginsAt h
    obtain ⟨hmethod, htarget⟩ := getElem?_tokens_of_beginsAt h
    have hsearch : parse? s = here? (fromToken n s.toList) :=
      search?_eq_of_first (isSome_here?_iff.2 h) fun m hm => here?_eq_none_iff.2 (hfirst m hm)
    exact ⟨_, _, path, query, hmethod, htarget, hsplit, hlongest, hsearch.trans hhere⟩

theorem parse?_eq_first_beginning_second :
    let s := "- GET /a&b?c&d HTTP/1.0"
    BeginsAt (tokens s.toList) 1 ∧ (∀ m < 1, ¬BeginsAt (tokens s.toList) m) ∧
      ∃ path query, SplitsTarget "/a&b?c&d".toList path query ∧ "/a&b".length ≤ path.length ∧
        parse? s = some ⟨"GET", .ofList path, .ofList query, "HTTP/1.0"⟩ := by
  intro s
  have htokens : tokens s.toList = ["-".toList, "GET".toList, "/a&b?c&d".toList, "HTTP/1.0".toList] := by
    decide
  have hsplit : SplitsTarget "/a&b?c&d".toList "/a&b".toList "?c&d".toList :=
    ⟨⟨by decide, by decide, (isQuery_iff _).1 (by decide)⟩, by decide⟩
  have hsecond : BeginsAt (tokens s.toList) 1 := by
    rw [htokens]
    exact ⟨by decide, ⟨_, _, hsplit⟩, by decide⟩
  have hfirst : ∀ m < 1, ¬BeginsAt (tokens s.toList) m := by
    intro m hm h
    obtain rfl : m = 0 := by omega
    rw [htokens] at h
    have hprotocol : "HTTP/".toList <+: "/a&b?c&d".toList := h.protocol
    exact absurd hprotocol (by decide)
  refine ⟨hsecond, hfirst, ?_⟩
  obtain ⟨method, target, path, query, hmethod, htarget, hpath, hlongest, hparse⟩ :=
    (parse?_eq_first_beginning s).2.2 1 hsecond hfirst
  rw [htokens] at hmethod htarget
  cases hmethod
  cases htarget
  have hlength : "/a&b".length ≤ path.length := hlongest _ _ hsplit
  have hprotocol : (fromToken 3 s.toList).takeWhile (· ≠ '\n') = "HTTP/1.0".toList := by decide
  rw [hprotocol, String.ofList_toList, String.ofList_toList] at hparse
  exact ⟨path, query, hpath, hlength, hparse⟩

end TrafficMonitor.Log.RequestLine
