import TrafficMonitor.Collector
import TrafficMonitor.Proofs.Log.RequestTokens

namespace TrafficMonitor.Log.RequestLine

open Text Text.CharClass

structure WellFormed (l : RequestLine) : Prop where
  method_ne_nil : l.method.toList ≠ []
  method : ∀ c ∈ l.method.toList, isSpace c = false
  path_ne_nil : l.path.toList ≠ []
  path : ∀ c ∈ l.path.toList, isSpace c = false
  noMark : '?' ∉ l.path.toList
  query : l.query.toList = [] ∨
    ∃ text, l.query.toList = '?' :: text ∧ ∀ c ∈ text, isSpace c = false
  protocol : "HTTP/".toList <+: l.protocol.toList
  oneLine : '\n' ∉ l.protocol.toList

def render (l : RequestLine) : String :=
  l.method ++ " " ++ l.path ++ l.query ++ " " ++ l.protocol

def NoEmptyPiece (query : List Char) : Prop := ∀ text, query = '?' :: text → [] ∉ text.splitOn '&'

theorem piecesFrom_iff (cs : List Char) :
    (piecesFrom true cs = true ↔ [] ∉ cs.splitOn '&') ∧
      (piecesFrom false cs = true ↔ [] ∉ (cs.splitOn '&').tail) := by
  induction cs with
  | nil => simp [piecesFrom]
  | cons c cs ih =>
    obtain ⟨piece, pieces, hsplit⟩ := List.exists_cons_of_ne_nil (List.splitOn_ne_nil '&' cs)
    by_cases hc : c = '&'
    · have hcons : (c :: cs).splitOn '&' = [] :: cs.splitOn '&' := by
        simp [List.splitOn_eq_splitOnP, List.splitOnP_cons_eq_if_modifyHead, hc]
      rw [hcons, piecesFrom, piecesFrom, if_pos hc, if_pos hc, List.tail_cons, ← ih.1]
      simp
    · have hcons : (c :: cs).splitOn '&' = (cs.splitOn '&').modifyHead (c :: ·) := by
        simp [List.splitOn_eq_splitOnP, List.splitOnP_cons_eq_if_modifyHead, hc]
      rw [hcons, piecesFrom_cons hc, piecesFrom_cons hc, ih.2, hsplit]
      simp

theorem WellFormed.isQuery_iff {l : RequestLine} (h : l.WellFormed) :
    IsQuery l.query.toList ↔ NoEmptyPiece l.query.toList := by
  rw [← RequestLine.isQuery_iff]
  rcases h.query with hnil | ⟨text, htext, -⟩
  · rw [hnil]
    exact iff_of_true rfl nofun
  · rw [htext]
    refine ((piecesFrom_iff text).1).trans ⟨?_, fun hpieces => hpieces text rfl⟩
    rintro hpieces text' heq
    cases heq
    exact hpieces

theorem SplitsTarget.exists_rest {l : RequestLine} (h : l.WellFormed) {path query : List Char}
    (hsplit : SplitsTarget (l.path.toList ++ l.query.toList) path query) :
    ∃ rest, l.path.toList = path ++ rest ∧ query = rest ++ l.query.toList := by
  have hnoMark := hsplit.1.noMark
  rcases List.append_eq_append_iff.1 hsplit.1.append_eq with ⟨rest, hpath, hquery⟩ | ⟨rest, hpath, hquery⟩
  · exact ⟨rest, hpath, hquery⟩
  · cases rest with
    | nil =>
      rw [List.append_nil] at hpath
      refine ⟨[], by rw [hpath, List.append_nil], hquery.symm⟩
    | cons c rest =>
      -- The path would run on into the query, over its question mark.
      rcases h.query with hnil | ⟨text, htext, -⟩
      · rw [hnil] at hquery
        cases hquery
      · rw [htext] at hquery
        obtain ⟨rfl, -⟩ := List.cons.inj hquery
        refine absurd ?_ hnoMark
        rw [hpath]
        exact List.mem_append_right _ List.mem_cons_self

theorem WellFormed.target?_eq_some {l : RequestLine} (h : l.WellFormed) (hquery : IsQuery l.query.toList) :
    target? (l.path.toList ++ l.query.toList) = some (l.path.toList, l.query.toList) := by
  refine target?_eq_some_iff.2 ⟨⟨⟨rfl, h.noMark, hquery⟩, h.path_ne_nil⟩, ?_⟩
  intro path query hsplit
  obtain ⟨rest, hpath, -⟩ := hsplit.exists_rest h
  rw [hpath, List.length_append]
  exact Nat.le_add_right _ _

theorem WellFormed.target?_eq_none {l : RequestLine} (h : l.WellFormed)
    (hquery : ¬IsQuery l.query.toList) (hamp : '&' ∉ l.path.toList) :
    target? (l.path.toList ++ l.query.toList) = none := by
  cases hread : target? (l.path.toList ++ l.query.toList) with
  | none => rfl
  | some read =>
    obtain ⟨hsplit, -⟩ := RequestLine.target?_eq_some hread
    obtain ⟨rest, hpath, hrest⟩ := hsplit.exists_rest h
    have hisQuery := hsplit.1.isQuery
    rw [hrest] at hisQuery
    cases rest with
    | nil => exact absurd hisQuery hquery
    | cons c rest =>
      -- A query that takes in an end of the path begins with a character the path has not.
      have hc : c ∈ l.path.toList := by
        rw [hpath]
        exact List.mem_append_right _ List.mem_cons_self
      rcases hisQuery.head_eq with rfl | rfl
      · exact absurd hc h.noMark
      · exact absurd hc hamp

theorem protocol?_eq_self {cs : List Char} (hhttp : "HTTP/".toList <+: cs) (hline : '\n' ∉ cs) :
    protocol? cs = some cs := by
  rw [protocol?, if_pos (List.isPrefixOf_iff_prefix.2 hhttp), List.takeWhile_eq_self_iff.2]
  intro c hc
  exact decide_eq_true fun heq => hline (heq ▸ hc)

theorem toList_render (l : RequestLine) : l.render.toList =
    l.method.toList ++ ' ' :: (l.path.toList ++ l.query.toList ++ ' ' :: l.protocol.toList) := by
  simp [render]

namespace WellFormed

variable {l : RequestLine} (h : l.WellFormed)

include h

theorem isInk_method : ∀ c ∈ l.method.toList, isInk c = true :=
  fun c hc => by rw [isInk, h.method c hc, Bool.not_false]

theorem isInk_target : ∀ c ∈ l.path.toList ++ l.query.toList, isInk c = true := by
  intro c hc
  have hspace : isSpace c = false := by
    rcases List.mem_append.1 hc with hpath | hquery
    · exact h.path c hpath
    · rcases h.query with hnil | ⟨text, htext, hink⟩
      · rw [hnil] at hquery
        cases hquery
      · rw [htext] at hquery
        rcases List.mem_cons.1 hquery with rfl | hmem
        · rfl
        · exact hink c hmem
  rw [isInk, hspace, Bool.not_false]

theorem target_ne_nil : l.path.toList ++ l.query.toList ≠ [] :=
  List.append_ne_nil_of_left_ne_nil h.path_ne_nil _

theorem fromToken_zero_protocol : fromToken 0 l.protocol.toList = l.protocol.toList := by
  obtain ⟨rest, hrest⟩ := h.protocol
  rw [← hrest]
  rfl

theorem fromToken_render (n : Nat) :
    fromToken (n + 2) l.render.toList = fromToken n l.protocol.toList := by
  rw [toList_render, fromToken_succ_append_word h.method_ne_nil h.isInk_method,
    fromToken_succ_append_word h.target_ne_nil h.isInk_target]

theorem here?_zero : here? (fromToken 0 l.render.toList) =
    (target? (l.path.toList ++ l.query.toList)).map fun (path, query) =>
      ⟨l.method, .ofList path, .ofList query, l.protocol⟩ := by
  have htarget : token 1 l.render.toList = l.path.toList ++ l.query.toList := by
    rw [toList_render, token, fromToken_succ_append_word h.method_ne_nil h.isInk_method]
    exact token_zero_append_word h.target_ne_nil h.isInk_target _
  have hmethod : token 0 l.render.toList = l.method.toList := by
    rw [toList_render]
    exact token_zero_append_word h.method_ne_nil h.isInk_method _
  rw [here?_fromToken, htarget, hmethod, h.fromToken_render 0, h.fromToken_zero_protocol,
    protocol?_eq_self h.protocol h.oneLine, String.ofList_toList, Option.map_eq_bind]
  simp only [Option.map_some, String.ofList_toList]
  rfl

theorem here?_succ (hword : ∀ c ∈ l.protocol.toList, isSpace c = false) (n : Nat) :
    here? (fromToken (n + 1) l.render.toList) = none := by
  have hne : l.protocol.toList ≠ [] := by
    intro hnil
    have hhttp := h.protocol
    rw [hnil] at hhttp
    exact absurd (List.prefix_nil.1 hhttp) (by decide)
  have hink : ∀ c ∈ l.protocol.toList, isInk c = true :=
    fun c hc => by rw [isInk, hword c hc, Bool.not_false]
  rw [here?_fromToken, h.fromToken_render (n + 1), fromToken_succ_word hne hink]
  cases target? (token (n + 1 + 1) l.render.toList) <;> rfl

theorem parse?_render (hquery : NoEmptyPiece l.query.toList) : parse? l.render = some l := by
  have hhere : here? (fromToken 0 l.render.toList) = some l := by
    rw [h.here?_zero, h.target?_eq_some (h.isQuery_iff.2 hquery)]
    simp only [Option.map_some, String.ofList_toList]
  rw [parse?, search?_eq_or, hhere]
  rfl

theorem parse?_render_eq_none (hquery : ¬NoEmptyPiece l.query.toList) (hamp : '&' ∉ l.path.toList)
    (hword : ∀ c ∈ l.protocol.toList, isSpace c = false) : parse? l.render = none := by
  rw [parse?, search?_eq_none_iff]
  intro n
  cases n with
  | zero =>
    rw [h.here?_zero, h.target?_eq_none (mt h.isQuery_iff.1 hquery) hamp]
    rfl
  | succ n => exact h.here?_succ hword n

end WellFormed

theorem isQuery_of_parse? {s : String} {line : RequestLine} (h : parse? s = some line) :
    IsQuery line.query.toList := by
  obtain ⟨n, hn⟩ := exists_of_search?_eq_some h
  rw [here?_fromToken] at hn
  obtain ⟨⟨path, query⟩, htarget, hline⟩ := Option.bind_eq_some_iff.1 hn
  obtain ⟨protocol, -, rfl⟩ := Option.map_eq_some_iff.1 hline
  rw [String.toList_ofList]
  exact (target?_eq_some htarget).1.1.isQuery

theorem sections_process (c : Collector) (r : Record) (now : Time.Instant) :
    (c.process r now).1.sections = Collector.countSection c.sections r.request := by
  obtain ⟨ring, hprocess⟩ := c.exists_process_eq r now
  rw [hprocess]
  rfl

/-- A well-formed request line is read back as its parts, and so counted for the section of its path,
exactly if its query has no empty piece. With one, nothing is read and no section is counted, unless an
ampersand in the path or a word behind the protocol gives the reader another place to split at. -/
theorem parse?_render_iff {l : RequestLine} (h : l.WellFormed) :
    (parse? l.render = some l ↔ NoEmptyPiece l.query.toList) ∧
    (NoEmptyPiece l.query.toList →
      ∀ (c : Collector) (r : Record) (now : Time.Instant), r.request = l.render →
        (c.process r now).1.sections = c.sections.add (sectionOf l.path)) ∧
    (¬NoEmptyPiece l.query.toList → '&' ∉ l.path.toList →
      (∀ x ∈ l.protocol.toList, isSpace x = false) →
      parse? l.render = none ∧
        ∀ (c : Collector) (r : Record) (now : Time.Instant), r.request = l.render →
          (c.process r now).1.sections = c.sections) := by
  refine ⟨⟨fun hparse => h.isQuery_iff.1 (isQuery_of_parse? hparse), h.parse?_render⟩, ?_, ?_⟩
  · intro hquery c r now hrequest
    rw [sections_process, hrequest, Collector.countSection, h.parse?_render hquery]
  · intro hquery hamp hword
    have hparse := h.parse?_render_eq_none hquery hamp hword
    refine ⟨hparse, fun c r now hrequest => ?_⟩
    rw [sections_process, hrequest, Collector.countSection, hparse]

theorem parse?_render_iff_pages :
    let l : RequestLine := ⟨"GET", "/pages/create", "?id=1&tab=a?b", "HTTP/1.1"⟩
    l.WellFormed ∧ parse? l.render = some l := by
  intro l
  have hquery : l.query.toList = '?' :: "id=1&tab=a?b".toList := by decide
  have h : l.WellFormed :=
    { method_ne_nil := by decide
      method := isSpace_eq_false_of_all (by decide)
      path_ne_nil := by decide
      path := isSpace_eq_false_of_all (by decide)
      noMark := by decide
      query := .inr ⟨_, hquery, isSpace_eq_false_of_all (by decide)⟩
      protocol := by decide
      oneLine := by decide }
  refine ⟨h, (parse?_render_iff h).1.2 ?_⟩
  intro text htext
  rw [hquery] at htext
  cases htext
  decide

theorem parse?_render_empty_piece :
    let l : RequestLine := ⟨"GET", "/pages/create", "?id=1&", "HTTP/1.1"⟩
    l.WellFormed ∧ parse? l.render = none := by
  intro l
  refine ⟨?_, by decide⟩
  exact
    { method_ne_nil := by decide
      method := isSpace_eq_false_of_all (by decide)
      path_ne_nil := by decide
      path := isSpace_eq_false_of_all (by decide)
      noMark := by decide
      query := .inr ⟨"id=1&".toList, by decide, isSpace_eq_false_of_all (by decide)⟩
      protocol := by decide
      oneLine := by decide }

end TrafficMonitor.Log.RequestLine
