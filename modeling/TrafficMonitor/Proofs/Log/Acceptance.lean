import TrafficMonitor.Collector
import TrafficMonitor.Proofs.Log.CombinedFormat

namespace TrafficMonitor.Log

open Time Text

namespace Record

inductive SizeShape : List Char → Prop
  | absent : SizeShape ['-']
  | number {ds : List Char} (ne_nil : ds ≠ []) (digits : ∀ x ∈ ds, CharClass.isDigit x = true) :
      SizeShape ds

theorem SizeShape.ne_nil {text : List Char} (h : SizeShape text) : text ≠ [] := by
  cases h with
  | absent => exact List.cons_ne_nil _ _
  | number ne_nil => exact ne_nil

theorem SizeShape.dash_or_digit {text : List Char} (h : SizeShape text) :
    ∀ c ∈ text, c = '-' ∨ CharClass.isDigit c = true := by
  cases h with
  | absent => exact fun c hc => .inl (List.mem_singleton.1 hc)
  | number _ digits => exact fun c hc => .inr (digits c hc)

theorem status?_eq_some {cs status rest : List Char} (h : status? cs = some (status, rest)) :
    StatusShape status ∧ cs = status ++ rest := by
  unfold status? at h
  split at h
  case h_1 =>
    cases h
    exact ⟨.absent, rfl⟩
  case h_2 =>
    split at h
    case isTrue hdigits =>
      cases h
      exact ⟨.code (List.all_eq_true.1 hdigits), rfl⟩
    case isFalse => cases h
  case h_3 => cases h

theorem size?_eq_some {cs size : List Char} (h : size? cs = some size) :
    SizeShape size ∧ ∃ tail, cs = size ++ tail := by
  unfold size? at h
  split at h
  case h_1 tail =>
    cases h
    exact ⟨.absent, tail, rfl⟩
  case h_2 =>
    dsimp only at h
    split at h
    case isTrue => cases h
    case isFalse hne =>
      cases h
      refine ⟨.number (by simpa using hne) fun c hc => List.mem_takeWhile_imp hc, ?_⟩
      exact ⟨cs.dropWhile CharClass.isDigit, List.takeWhile_append_dropWhile.symm⟩

theorem isSome_size?_append {size : List Char} (h : SizeShape size) (tail : List Char) :
    (size? (size ++ tail)).isSome = true := by
  cases h with
  | absent => rfl
  | number ne_nil digits =>
    obtain ⟨c, cs, rfl⟩ := List.exists_cons_of_ne_nil ne_nil
    have hc : CharClass.isDigit c = true := digits c List.mem_cons_self
    have hdash : c ≠ '-' := by
      rintro rfl
      exact absurd hc (by decide)
    simp [size?, hdash, hc]

theorem response?_eq_some {cs status size : List Char} (h : response? cs = some (status, size)) :
    StatusShape status ∧ SizeShape size ∧ ∃ tail, cs = ' ' :: (status ++ ' ' :: (size ++ tail)) := by
  simp only [response?, Option.bind_eq_bind, Option.bind_eq_some_iff] at h
  obtain ⟨cs₁, hopen, ⟨status', cs₂⟩, hstatus, cs₃, hspace, size', hsize, hread⟩ := h
  cases hread
  obtain rfl := Stamp.expect?_eq_some hopen
  obtain ⟨status_shape, rfl⟩ := status?_eq_some hstatus
  obtain rfl := Stamp.expect?_eq_some hspace
  obtain ⟨size_shape, tail, rfl⟩ := size?_eq_some hsize
  exact ⟨status_shape, size_shape, tail, rfl⟩

theorem isSome_response?_append {status size : List Char} (hstatus : StatusShape status)
    (hsize : SizeShape size) (tail : List Char) :
    (response? (' ' :: (status ++ ' ' :: (size ++ tail)))).isSome = true := by
  obtain ⟨size', hread⟩ := Option.isSome_iff_exists.1 (isSome_size?_append hsize tail)
  simp [response?, Stamp.expect?_cons, status?_append hstatus, hread]

theorem notMem_request {cs request : List Char} {response : List Char × List Char}
    (h : request? cs = some (request, response)) : '\n' ∉ request := by
  induction cs generalizing request with
  | nil => cases h
  | cons c cs ih =>
    rw [request?] at h
    split at h
    case isTrue => cases h
    case isFalse hc =>
      split at h
      case h_1 request' response' hcs =>
        cases h
        rw [List.mem_cons, not_or]
        exact ⟨Ne.symm hc, ih hcs⟩
      case h_2 =>
        split at h
        case isTrue =>
          obtain ⟨_, -, hread⟩ := Option.map_eq_some_iff.1 h
          cases hread
          exact List.not_mem_nil
        case isFalse => cases h

inductive CommonText : List Char → Prop
  | intro {o : Opening} {request status size : List Char} (opening : o.WellFormed)
      (oneLine : '\n' ∉ request) (status_shape : StatusShape status) (size_shape : SizeShape size) :
      CommonText (o.text ++ (request ++ '"' :: ' ' :: (status ++ ' ' :: size)))

inductive LineText : List Char → Prop
  | common {text : List Char} (h : CommonText text) : LineText text
  | combined {text : List Char} (h : CommonText text) {referrer agent : String}
      (referrer_oneLine : '\n' ∉ referrer.toList) (agent_oneLine : '\n' ∉ agent.toList) :
      LineText (text ++ (headers referrer agent).toList)

theorem LineText.exists_prefix {cs : List Char} (h : LineText cs) :
    ∃ text tail, cs = text ++ tail ∧ CommonText text := by
  cases h with
  | common h => exact ⟨cs, [], (List.append_nil _).symm, h⟩
  | combined h => exact ⟨_, _, rfl, h⟩

theorem LineText.getLast? {cs : List Char} (h : LineText cs) :
    ∀ c ∈ cs.getLast?, c = '"' ∨ c = '-' ∨ CharClass.isDigit c = true := by
  intro c hc
  cases h with
  | common h =>
    obtain @⟨o, request, status, size, _, _, _, hsize⟩ := h
    have hcs : o.text ++ (request ++ '"' :: ' ' :: (status ++ ' ' :: size)) =
        (o.text ++ (request ++ '"' :: ' ' :: (status ++ [' ']))) ++ size := by
      simp
    rw [hcs, List.getLast?_append_of_ne_nil _ hsize.ne_nil] at hc
    exact .inr (hsize.dash_or_digit c (List.mem_of_mem_getLast? hc))
  | @combined text _ referrer agent =>
    have hcs : text ++ (headers referrer agent).toList =
        (text ++ ' ' :: '"' :: (referrer.toList ++ '"' :: ' ' :: '"' :: agent.toList)) ++ ['"'] := by
      simp [headers_toList]
    rw [hcs, List.getLast?_append_of_ne_nil _ (List.cons_ne_nil _ _)] at hc
    exact .inl (Option.mem_some.1 hc).symm

theorem isSome_parse?_iff (line : String) : (parse? line).isSome = true ↔
    ∃ text tail, trimLineEnds line.toList = text ++ tail ∧ CommonText text := by
  constructor
  · intro h
    obtain ⟨r, hr⟩ := Option.isSome_iff_exists.1 h
    obtain ⟨o, rest, request, status, size, ho, htrim, hrequest, -⟩ := Opening.exists_of_parseChars? hr
    obtain ⟨response, rfl, hresponse⟩ := request?_eq_some hrequest
    obtain ⟨hstatus, hsize, tail, rfl⟩ := response?_eq_some hresponse
    refine ⟨_, tail, ?_, .intro ho (notMem_request hrequest) hstatus hsize⟩
    simp [htrim]
  · rintro ⟨text, tail, htrim, @⟨o, request, status, size, ho, hline, hstatus, hsize⟩⟩
    have hrest : trimLineEnds line.toList =
        o.text ++ (request ++ '"' :: ' ' :: (status ++ ' ' :: (size ++ tail))) := by
      simp [htrim]
    rw [parse?, Opening.parseChars?_text ho hrest, Option.isSome_map]
    exact isSome_request?_append hline (isSome_response?_append hstatus hsize tail)

theorem skippedLines_process (c : Collector) (r : Record) (now : Instant) :
    (c.process r now).1.skippedLines = c.skippedLines := by
  obtain ⟨ring, hprocess⟩ := c.exists_process_eq r now
  rw [hprocess]
  rfl

theorem skippedLines_handleLine (c : Collector) (line : String) (now : Instant) :
    (c.handleLine line now).1.skippedLines = c.skippedLines + 1 ↔ ¬(parse? line).isSome = true := by
  rw [Collector.handleLine]
  split
  case h_1 r hr => simp [hr, skippedLines_process]
  case h_2 hr => simp [hr, Collector.skip]

/-- A line is accepted exactly if it opens with a text in Common Log Format, whatever comes behind it,
and otherwise it is counted as skipped. So every line in the format is accepted, and so are others. -/
theorem accepts_iff_opens_in_format (line : String) :
    ((parse? line).isSome = true ↔
      ∃ text tail, trimLineEnds line.toList = text ++ tail ∧ CommonText text) ∧
    (LineText (trimLineEnds line.toList) → (parse? line).isSome = true) ∧
    ∀ (c : Collector) (now : Instant), (c.handleLine line now).1.skippedLines = c.skippedLines + 1 ↔
      ¬∃ text tail, trimLineEnds line.toList = text ++ tail ∧ CommonText text := by
  have haccepts := isSome_parse?_iff line
  refine ⟨haccepts, fun h => haccepts.2 h.exists_prefix, fun c now => ?_⟩
  rw [skippedLines_handleLine, haccepts]

theorem accepts_iff_opens_in_format_combined :
    let line := "::1 - - [02/Jan/2006:15:04:05 +0000] \"GET / HTTP/1.1\" 404 -" ++
      headers "-" "curl/8.0" ++ "\r\n"
    LineText (trimLineEnds line.toList) ∧ (parse? line).isSome = true := by
  intro line
  let o : Opening := ⟨"::1".toList, ['-'], ['-'], "02/Jan/2006:15:04:05 +0000".toList⟩
  have hdate : IsDate o.date := by
    have hrender : o.date = (Stamp.ofZoned ⟨⟨1136214245, 0⟩, 0⟩).render.toList := by decide +kernel
    rw [hrender]
    exact isDate_render (by decide +kernel)
  have hopening : o.WellFormed :=
    ⟨isField_of_all (by decide) (by decide), isField_of_all (by decide) (by decide),
      isField_of_all (by decide) (by decide), hdate⟩
  have hrequest : '\n' ∉ "GET / HTTP/1.1".toList := by decide
  have hstatus : StatusShape ['4', '0', '4'] := .code (List.all_eq_true.1 (by decide))
  have htrim : trimLineEnds line.toList =
      (o.text ++ ("GET / HTTP/1.1".toList ++ '"' :: ' ' :: (['4', '0', '4'] ++ ' ' :: ['-']))) ++
        (headers "-" "curl/8.0").toList := by
    decide +kernel
  have hline : LineText (trimLineEnds line.toList) := by
    rw [htrim]
    exact .combined (.intro hopening hrequest hstatus .absent) (by decide) (by decide)
  exact ⟨hline, (accepts_iff_opens_in_format line).2.1 hline⟩

theorem trailing_text_accepted :
    let line := "127.0.0.1 - frank [10/Oct/2000:13:55:36 -0700] \"GET /apache_pb.gif HTTP/1.0\" 200 2326abc"
    ¬((parse? line).isSome = true ↔ LineText (trimLineEnds line.toList)) := by
  intro line h
  have hline : (parse? line).isSome = true := by decide +kernel
  have hlast : 'c' ∈ (trimLineEnds line.toList).getLast? := by decide +kernel
  exact absurd ((h.1 hline).getLast? 'c' hlast) (by decide)

end Record

end TrafficMonitor.Log
