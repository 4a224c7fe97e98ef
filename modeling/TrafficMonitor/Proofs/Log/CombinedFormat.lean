import TrafficMonitor.Proofs.Log.CommonFormat

/-!
The combined format writes the referrer and the user agent behind the size. A line is read as if
they were not there, unless one of them holds what reads as a response: there the request then ends.
-/

namespace TrafficMonitor.Log

open Text

theorem Stamp.expect?_eq_some {c : Char} {cs rest : List Char} (h : expect? c cs = some rest) :
    cs = c :: rest := by
  cases cs with
  | nil => cases h
  | cons d cs =>
    rw [expect?] at h
    split at h
    case isTrue hd => rw [hd, Option.some.inj h]
    case isFalse => cases h

theorem Stamp.expect?_of_ne {c d : Char} (h : d ≠ c) (cs : List Char) : expect? c (d :: cs) = none :=
  if_neg h

namespace Record

theorem of_span_eq {p : Char → Bool} {cs xs ys : List Char} (h : cs.span p = (xs, ys)) :
    cs = xs ++ ys ∧ ∀ x ∈ xs, p x = true := by
  rw [List.span_eq_takeWhile_dropWhile, Prod.mk.injEq] at h
  obtain ⟨rfl, rfl⟩ := h
  exact ⟨List.takeWhile_append_dropWhile.symm, fun x hx => List.mem_takeWhile_imp hx⟩

theorem field?_eq_some {cs text rest : List Char} (h : field? cs = some (text, rest)) :
    IsField text ∧ cs = text ++ ' ' :: rest := by
  rw [field?] at h
  split at h
  case h_1 => cases h
  case h_2 hne hspan =>
    cases h
    obtain ⟨hcs, hspace⟩ := of_span_eq hspan
    refine ⟨⟨?_, fun c hc => by simpa using hspace c hc⟩, hcs⟩
    rintro rfl
    exact hne rfl
  case h_3 => cases h

theorem date?_eq_some {cs text rest : List Char} (h : date? cs = some (text, rest)) :
    IsDate text ∧ cs = text ++ rest := by
  rw [date?] at h
  split at h
  case h_1 => cases h
  case h_2 day space sign a b c d more hne hspan =>
    obtain ⟨hcs, hword⟩ := of_span_eq hspan
    split at h
    case isTrue hshape =>
      cases h
      simp only [Bool.and_eq_true, Bool.or_eq_true, beq_iff_eq] at hshape
      obtain ⟨⟨hspace, hsign⟩, hdigits⟩ := hshape
      refine ⟨.intro ?_ ?_ hspace hsign (List.all_eq_true.1 hdigits), ?_⟩
      · rintro rfl
        exact hne rfl
      · intro x hx
        simpa [IsDayChar, or_assoc] using hword x hx
      · rw [hcs, List.append_assoc]
        rfl
    case isFalse => cases h
  case h_3 => cases h

structure Opening where
  host : List Char
  identity : List Char
  user : List Char
  date : List Char

namespace Opening

structure WellFormed (o : Opening) : Prop where
  host_isField : IsField o.host
  identity_isField : IsField o.identity
  user_isField : IsField o.user
  date_isDate : IsDate o.date

def text (o : Opening) : List Char :=
  o.host ++ ' ' :: (o.identity ++ ' ' :: (o.user ++ ' ' :: '[' :: (o.date ++ [']', ' ', '"'])))

def record (o : Opening) (request status size : List Char) : Record where
  remoteAddr := String.ofList o.host
  identity := orEmpty o.identity
  userId := orEmpty o.user
  timestamp := (Stamp.parse? o.date).map Stamp.toZoned
  request := String.ofList request
  status := orZero maxStatus status
  size := orZero Numeral.maxWord size

theorem parseChars?_text {o : Opening} (h : o.WellFormed) {line rest : List Char}
    (hline : trimLineEnds line = o.text ++ rest) : parseChars? line =
      (request? rest).map fun (request, status, size) => o.record request status size := by
  have htext : o.text ++ rest = o.host ++ ' ' :: (o.identity ++ ' ' :: (o.user ++ ' ' :: '[' ::
      (o.date ++ ']' :: ' ' :: '"' :: rest))) := by
    simp [text]
  rw [parseChars?, hline, htext]
  simp only [field?_append h.host_isField, field?_append h.identity_isField,
    field?_append h.user_isField, Stamp.expect?_cons, date?_append h.date_isDate,
    Option.bind_eq_bind, Option.bind_some]
  cases request? rest <;> rfl

theorem exists_of_parseChars? {line : List Char} {r : Record} (h : parseChars? line = some r) :
    ∃ o rest request status size, WellFormed o ∧ trimLineEnds line = o.text ++ rest ∧
      request? rest = some (request, status, size) ∧ r = o.record request status size := by
  simp only [parseChars?, Option.bind_eq_bind, Option.bind_eq_some_iff] at h
  obtain ⟨⟨host, cs⟩, hhost, ⟨identity, cs'⟩, hidentity, ⟨user, cs''⟩, huser, cs₁, hopen, ⟨date, cs₂⟩,
    hdate, cs₃, hclose, cs₄, hspace, rest, hquote, ⟨request, status, size⟩, hrequest, hr⟩ := h
  obtain ⟨host_isField, hcs⟩ := field?_eq_some hhost
  obtain ⟨identity_isField, rfl⟩ := field?_eq_some hidentity
  obtain ⟨user_isField, rfl⟩ := field?_eq_some huser
  obtain rfl := Stamp.expect?_eq_some hopen
  obtain ⟨date_isDate, rfl⟩ := date?_eq_some hdate
  obtain rfl := Stamp.expect?_eq_some hclose
  obtain rfl := Stamp.expect?_eq_some hspace
  obtain rfl := Stamp.expect?_eq_some hquote
  refine ⟨⟨host, identity, user, date⟩, rest, request, status, size,
    ⟨host_isField, identity_isField, user_isField, date_isDate⟩, ?_, hrequest, (Option.some.inj hr).symm⟩
  simp [hcs, text]

end Opening

theorem takeWhile_append_cons {p : Char → Bool} {c : Char} (hc : p c = false) (cs more : List Char) :
    (cs ++ c :: more).takeWhile p = cs.takeWhile p := by
  induction cs with
  | nil => simp [hc]
  | cons a cs ih => cases ha : p a <;> simp [ha, ih]

theorem response?_eq (cs : List Char) : response? cs = (Stamp.expect? ' ' cs).bind fun cs =>
    (status? cs).bind fun read =>
      ((Stamp.expect? ' ' read.2).bind size?).map fun size => (read.1, size) := by
  simp only [response?, Option.bind_eq_bind, Option.map_eq_bind, Option.bind_assoc]
  rfl

section Response

variable {c : Char} (hdigit : CharClass.isDigit c = false) (hdash : c ≠ '-')
include hdigit hdash

theorem status?_append_cons (cs more : List Char) : status? (cs ++ c :: more) =
    (status? cs).map fun (status, rest) => (status, rest ++ c :: more) := by
  rcases cs with _ | ⟨a, _ | ⟨b, _ | ⟨d, rest⟩⟩⟩
  · rcases more with _ | ⟨x, _ | ⟨y, more⟩⟩ <;> simp [status?, hdash, hdigit]
  · by_cases ha : a = '-' <;> rcases more with _ | ⟨x, more⟩ <;> simp [status?, ha, hdigit]
  · by_cases ha : a = '-' <;> simp [status?, ha, hdigit]
  · by_cases ha : a = '-'
    · simp [status?, ha]
    · by_cases hall : [a, b, d].all CharClass.isDigit = true <;> simp [status?, hall]

theorem size?_append_cons (cs more : List Char) : size? (cs ++ c :: more) = size? cs := by
  have hrun := takeWhile_append_cons hdigit cs more
  cases cs with
  | nil => simp [size?, hdash, hdigit]
  | cons a cs =>
    rw [List.cons_append] at hrun
    by_cases ha : a = '-' <;> simp [size?, ha, hrun]

theorem response?_append_cons {more : List Char}
    (hspace : ∀ rest, Stamp.expect? ' ' (c :: more) = some rest → status? rest = none ∧ size? rest = none)
    (cs : List Char) : response? (cs ++ c :: more) = response? cs := by
  have hsize (rest : List Char) :
      (Stamp.expect? ' ' (rest ++ c :: more)).bind size? = (Stamp.expect? ' ' rest).bind size? := by
    rcases rest with _ | ⟨b, rest⟩
    · cases hc : Stamp.expect? ' ' (c :: more) with
      | none => rw [List.nil_append, hc]; rfl
      | some rest =>
        rw [List.nil_append, hc]
        exact (hspace rest hc).2
    · by_cases hb : b = ' '
      · rw [hb, List.cons_append, Stamp.expect?_cons, Stamp.expect?_cons]
        exact size?_append_cons hdigit hdash rest more
      · rw [List.cons_append, Stamp.expect?_of_ne hb, Stamp.expect?_of_ne hb]
  rcases cs with _ | ⟨a, cs⟩
  · rw [response?_eq, List.nil_append]
    cases hc : Stamp.expect? ' ' (c :: more) with
    | none => rfl
    | some rest =>
      rw [Option.bind_some, (hspace rest hc).1]
      rfl
  · rw [response?_eq, response?_eq, List.cons_append]
    by_cases ha : a = ' '
    · rw [ha, Stamp.expect?_cons, Stamp.expect?_cons, Option.bind_some, Option.bind_some,
        status?_append_cons hdigit hdash]
      cases status? cs with
      | none => rfl
      | some read => simp only [Option.map_some, Option.bind_some, hsize]
    · rw [Stamp.expect?_of_ne ha, Stamp.expect?_of_ne ha]

end Response

theorem response?_append_quote (cs more : List Char) : response? (cs ++ '"' :: more) = response? cs := by
  refine response?_append_cons (by decide) (by decide) (fun rest h => ?_) cs
  cases h

theorem response?_append_space_quote (cs more : List Char) :
    response? (cs ++ ' ' :: '"' :: more) = response? cs := by
  refine response?_append_cons (by decide) (by decide) (fun rest h => ?_) cs
  rw [Stamp.expect?_cons] at h
  cases h
  exact ⟨status?_append_cons (c := '"') (by decide) (by decide) [] more,
    size?_append_cons (c := '"') (by decide) (by decide) [] more⟩

theorem response?_append_lineEnd {c : Char} (hc : isLineEnd c = true) (cs more : List Char) :
    response? (cs ++ c :: more) = response? cs := by
  simp only [isLineEnd, Bool.or_eq_true, beq_iff_eq] at hc
  rcases hc with rfl | rfl <;>
  · refine response?_append_cons (by decide) (by decide) (fun rest h => ?_) cs
    cases h

theorem request?_eq_some {cs request status size : List Char}
    (h : request? cs = some (request, status, size)) :
    ∃ rest, cs = request ++ '"' :: rest ∧ response? rest = some (status, size) := by
  induction cs generalizing request with
  | nil => cases h
  | cons c cs ih =>
    rw [request?] at h
    split at h
    · cases h
    · split at h
      case h_1 request' response hcs =>
        cases h
        obtain ⟨rest, rfl, hrest⟩ := ih hcs
        exact ⟨rest, rfl, hrest⟩
      case h_2 =>
        split at h
        case isTrue hc =>
          obtain ⟨response, hresponse, hr⟩ := Option.map_eq_some_iff.1 h
          cases hr
          exact ⟨cs, by rw [hc]; rfl, hresponse⟩
        case isFalse => cases h

theorem request?_append_of_none {more : List Char} (hmore : request? more = none)
    (hresponse : ∀ cs, response? (cs ++ more) = response? cs) (cs : List Char) :
    request? (cs ++ more) = request? cs := by
  induction cs with
  | nil => exact hmore
  | cons c cs ih => simp only [List.cons_append, request?, ih, hresponse]

theorem request?_append_of_some {cs more request : List Char} {response : List Char × List Char}
    (hcs : '\n' ∉ cs) (hmore : request? more = some (request, response)) :
    request? (cs ++ more) = some (cs ++ request, response) := by
  induction cs with
  | nil => exact hmore
  | cons c cs ih =>
    rw [List.mem_cons, not_or] at hcs
    rw [List.cons_append, request?, if_neg (Ne.symm hcs.1), ih hcs.2]
    rfl

theorem isSome_request?_append {request response : List Char} (hrequest : '\n' ∉ request)
    (hresponse : (response? response).isSome = true) :
    (request? (request ++ '"' :: response)).isSome = true := by
  have hquote : (request? ('"' :: response)).isSome = true := by
    rw [request?, if_neg (by decide)]
    cases request? response <;> simp [hresponse]
  obtain ⟨⟨more, read⟩, hmore⟩ := Option.isSome_iff_exists.1 hquote
  rw [request?_append_of_some hrequest hmore]
  rfl

theorem isSome_request?_iff {cs : List Char} (hcs : '\n' ∉ cs) : (request? cs).isSome = true ↔
    ∃ before rest, cs = before ++ '"' :: rest ∧ (response? rest).isSome = true := by
  constructor
  · intro h
    obtain ⟨⟨request, status, size⟩, hrequest⟩ := Option.isSome_iff_exists.1 h
    obtain ⟨rest, hrest, hresponse⟩ := request?_eq_some hrequest
    exact ⟨request, rest, hrest, by rw [hresponse]; rfl⟩
  · rintro ⟨before, rest, rfl, hresponse⟩
    rw [List.mem_append, not_or] at hcs
    exact isSome_request?_append hcs.1 hresponse

/-- The text, which stands in quotes, opens with a response or has one behind a quote of its own. -/
def HoldsResponse (text : List Char) : Prop :=
  ∃ before rest, '"' :: text = before ++ '"' :: rest ∧ (response? rest).isSome = true

theorem holdsResponse_iff {text : List Char} (h : '\n' ∉ text) :
    HoldsResponse text ↔ (request? ('"' :: text)).isSome = true :=
  (isSome_request?_iff (by simpa using h)).symm

def headers (referrer agent : String) : String := " \"" ++ referrer ++ "\" \"" ++ agent ++ "\""

theorem headers_toList (referrer agent : String) : (headers referrer agent).toList =
    ' ' :: '"' :: (referrer.toList ++ '"' :: ' ' :: '"' :: (agent.toList ++ ['"'])) := by
  simp [headers, String.toList_append]

theorem response?_append_headers (referrer agent : String) (cs : List Char) :
    response? (cs ++ (headers referrer agent).toList) = response? cs := by
  rw [headers_toList, response?_append_space_quote]

theorem isSome_request?_headers {referrer agent : String} (hreferrer : '\n' ∉ referrer.toList)
    (hagent : '\n' ∉ agent.toList) : (request? (headers referrer agent).toList).isSome = true ↔
      HoldsResponse referrer.toList ∨ HoldsResponse agent.toList := by
  rw [holdsResponse_iff hreferrer, holdsResponse_iff hagent]
  have hclosed : request? ('"' :: agent.toList ++ ['"']) = request? ('"' :: agent.toList) :=
    request?_append_of_none (by decide) (fun cs => response?_append_quote cs []) _
  have hbetween : (request? ('"' :: ' ' :: '"' :: (agent.toList ++ ['"']))).isSome =
      (request? ('"' :: agent.toList)).isSome := by
    rw [← hclosed, List.cons_append]
    have hnone := response?_append_space_quote [] (agent.toList ++ ['"'])
    rw [List.nil_append] at hnone
    rw [request?, if_neg (by decide), hnone, request?, if_neg (by decide)]
    cases request? ('"' :: (agent.toList ++ ['"'])) <;> rfl
  have hopened (cs : List Char) : (request? (' ' :: cs)).isSome = (request? cs).isSome := by
    rw [request?, if_neg (by decide)]
    cases request? cs <;> rfl
  rw [headers_toList, hopened, ← hbetween, ← List.cons_append]
  cases hb : request? ('"' :: ' ' :: '"' :: (agent.toList ++ ['"'])) with
  | none => rw [request?_append_of_none hb fun cs => response?_append_quote cs _]; simp
  | some read => rw [request?_append_of_some (by simpa using hreferrer) hb]; simp

theorem trimLineEnds_headers (line referrer agent : String) :
    trimLineEnds (line ++ headers referrer agent).toList =
      line.toList ++ (headers referrer agent).toList := by
  have hlast : ∀ c ∈ (line.toList ++ (headers referrer agent).toList).getLast?, isLineEnd c = false := by
    have hquote : line.toList ++ (headers referrer agent).toList =
        (line.toList ++ ' ' :: '"' :: (referrer.toList ++ '"' :: ' ' :: '"' :: agent.toList)) ++ ['"'] := by
      simp [headers_toList]
    rw [hquote, List.getLast?_append_of_ne_nil _ (List.cons_ne_nil _ _)]
    simp [isLineEnd]
  have hnone : ∀ c ∈ ([] : List Char), isLineEnd c = true := fun c hc => absurd hc List.not_mem_nil
  have htrim := trimLineEnds_append hnone hlast
  rw [List.append_nil] at htrim
  rw [String.toList_append, htrim]

/-- The headers of a line in the combined format are ignored unless one of them holds a response. If
one does, the request runs on into the headers, and the last response in them is the one that is
read. -/
theorem headers_ignored_unless_response {line referrer agent : String} {r : Record}
    (hline : parse? line = some r) (hreferrer : '\n' ∉ referrer.toList)
    (hagent : '\n' ∉ agent.toList) :
    (¬HoldsResponse referrer.toList ∧ ¬HoldsResponse agent.toList →
      parse? (line ++ headers referrer agent) = some r) ∧
    (HoldsResponse referrer.toList ∨ HoldsResponse agent.toList → '\n' ∉ line.toList →
      ∃ before rest more status size,
        (headers referrer agent).toList = before ++ '"' :: rest ∧
        response? rest = some (status, size) ∧ more ≠ "" ∧
        parse? (line ++ headers referrer agent) = some { r with
          request := r.request ++ more
          status := orZero maxStatus status
          size := orZero Numeral.maxWord size }) := by
  obtain ⟨o, rest, request, status, size, ho, htrim, hrequest, rfl⟩ := Opening.exists_of_parseChars? hline
  have hends := trimLineEnds_append_dropped line.toList
  have hisEnd : ∀ c ∈ (line.toList.reverse.takeWhile isLineEnd).reverse, isLineEnd c = true :=
    fun c hc => List.mem_takeWhile_imp (List.mem_reverse.1 hc)
  generalize (line.toList.reverse.takeWhile isLineEnd).reverse = ends at hends hisEnd
  rw [htrim] at hends
  have hparse : parse? (line ++ headers referrer agent) =
      (request? (rest ++ (ends ++ (headers referrer agent).toList))).map
        fun (request, status, size) => o.record request status size := by
    apply Opening.parseChars?_text ho
    rw [trimLineEnds_headers, ← hends, List.append_assoc, List.append_assoc]
  constructor
  · rintro hnone
    have hheaders : request? (headers referrer agent).toList = none := by
      rw [← Option.not_isSome_iff_eq_none, isSome_request?_headers hreferrer hagent, not_or]
      exact hnone
    have hquote : '"' ∉ ends := fun h => absurd (hisEnd _ h) (by decide)
    have hmore : request? (ends ++ (headers referrer agent).toList) = none := by
      rw [request?_append_of_none hheaders (response?_append_headers referrer agent),
        request?_eq_none hquote]
    have hresponse (cs : List Char) :
        response? (cs ++ (ends ++ (headers referrer agent).toList)) = response? cs := by
      cases ends with
      | nil => exact response?_append_headers referrer agent cs
      | cons c ends => exact response?_append_lineEnd (hisEnd c List.mem_cons_self) cs _
    rw [hparse, request?_append_of_none hmore hresponse, hrequest]
    rfl
  · rintro hsome hfeed
    obtain ⟨⟨before, status', size'⟩, hheaders⟩ :=
      Option.isSome_iff_exists.1 ((isSome_request?_headers hreferrer hagent).2 hsome)
    obtain ⟨rest', hsplit, hresponse⟩ := request?_eq_some hheaders
    obtain ⟨after, rfl, -⟩ := request?_eq_some hrequest
    have hclean : '\n' ∉ request ++ '"' :: after ++ ends := by
      rw [← hends, List.append_assoc, List.mem_append, not_or] at hfeed
      exact hfeed.2
    refine ⟨before, rest', String.ofList ('"' :: after ++ ends ++ before), status', size', hsplit,
      hresponse, ?_, ?_⟩
    · intro hempty
      have := congrArg String.toList hempty
      simp at this
    · rw [hparse, ← List.append_assoc, request?_append_of_some hclean hheaders]
      simp [Opening.record, String.ofList_append]

theorem headers_ignored_unless_response_both :
    let line := "::1 - - [02/Jan/2006:15:04:05 +0000] \"GET / HTTP/1.1\" 404 17"
    ∃ r, parse? line = some r ∧ parse? (line ++ headers "http://a/" "b \\\"c\\\" 5") = some r ∧
      ∃ r', parse? (line ++ headers "http://a/" " - 7") = some r' ∧ r' ≠ r := by
  intro line
  obtain ⟨r, hr⟩ : ∃ r, parse? line = some r := Option.isSome_iff_exists.1 (by decide +kernel)
  have hreferrer : ¬HoldsResponse "http://a/".toList := by
    rw [holdsResponse_iff (by decide)]
    decide +kernel
  have hagent : ¬HoldsResponse "b \\\"c\\\" 5".toList := by
    rw [holdsResponse_iff (by decide)]
    decide +kernel
  have hresponse : HoldsResponse " - 7".toList := by
    rw [holdsResponse_iff (by decide)]
    decide +kernel
  have hline : '\n' ∉ "http://a/".toList := by decide
  have hline' : '\n' ∉ " - 7".toList := by decide
  refine ⟨r, hr, (headers_ignored_unless_response hr hline (by decide)).1 ⟨hreferrer, hagent⟩, ?_⟩
  obtain ⟨before, rest, more, status, size, hsplit, hread, hmore, hparse⟩ :=
    (headers_ignored_unless_response hr hline hline').2 (.inr hresponse) (by decide)
  refine ⟨_, hparse, fun h => hmore ?_⟩
  have hrequest := congrArg (fun r => r.request.toList) h
  simpa [String.toList_append] using hrequest

theorem escaped_quote_ends_request :
    let line := "::1 - - [02/Jan/2006:15:04:05 +0000] \"GET / HTTP/1.1\" 404 17"
    ∃ r, parse? line = some r ∧ r.request = "GET / HTTP/1.1" ∧ r.status = 404 ∧ r.size = 17 ∧
      parse? (line ++ headers "x\\\" 200 5" "curl/8.0") = some { r with
        request := "GET / HTTP/1.1\" 404 17 \"x\\"
        status := 200
        size := 5 } := by
  refine ⟨⟨"::1", "", "", some ⟨⟨1136214245, 0⟩, 0⟩, "GET / HTTP/1.1", 404, 17⟩, ?_⟩
  decide +kernel

end Record

end TrafficMonitor.Log
