import TrafficMonitor.Log.Record
import TrafficMonitor.Proofs.Log.Stamps
import TrafficMonitor.Proofs.Text.Tokens

namespace TrafficMonitor.Log

open Time Text

structure IsField (text : List Char) : Prop where
  ne_nil : text ≠ []
  isSpace : ∀ c ∈ text, CharClass.isSpace c = false

theorem isField_of_all {text : List Char} (hne : text ≠ [])
    (h : text.all (fun c => !CharClass.isSpace c) = true) : IsField text :=
  ⟨hne, fun c hc => by simpa using List.all_eq_true.1 h c hc⟩

def IsDayChar (c : Char) : Prop := CharClass.isWord c = true ∨ c = ':' ∨ c = '/'

inductive IsDate : List Char → Prop
  | intro {day : List Char} {space sign a b c d : Char} (ne_nil : day ≠ [])
      (word : ∀ x ∈ day, IsDayChar x)
      (isSpace : CharClass.isSpace space = true) (isSign : sign = '+' ∨ sign = '-')
      (digits : ∀ x ∈ [a, b, c, d], CharClass.isDigit x = true) :
      IsDate (day ++ [space, sign, a, b, c, d])

inductive IsStatus : List Char → Prop
  | absent : IsStatus ['-']
  | code {a b c : Char} (digits : ∀ x ∈ [a, b, c], x.isDigit = true) : IsStatus [a, b, c]

inductive IsSize : List Char → Prop
  | absent : IsSize ['-']
  | number {ds : List Char} (ne_nil : ds ≠ []) (digits : ∀ x ∈ ds, x.isDigit = true) : IsSize ds

inductive StatusShape : List Char → Prop
  | absent : StatusShape ['-']
  | code {a b c : Char} (digits : ∀ x ∈ [a, b, c], CharClass.isDigit x = true) : StatusShape [a, b, c]

theorem IsStatus.shape {text : List Char} (h : IsStatus text) : StatusShape text := by
  cases h with
  | absent => exact .absent
  | code digits => exact .code fun x hx => CharClass.isDigit_of_ascii (digits x hx)

theorem ne_dash_of_isDigit {c : Char} (h : c.isDigit = true) : c ≠ '-' := by
  rintro rfl
  contradiction

theorem IsStatus.isSize {text : List Char} (h : IsStatus text) : IsSize text := by
  cases h with
  | absent => exact .absent
  | code digits => exact .number (List.cons_ne_nil _ _) digits

theorem IsStatus.value_le {text : List Char} (h : IsStatus text) :
    Numeral.value text ≤ Record.maxStatus := by
  cases h with
  | absent => decide
  | code digits => exact (Numeral.value_lt digits).le.trans (show 10 ^ 3 ≤ Record.maxStatus by decide)

theorem IsSize.ne_nil {text : List Char} (h : IsSize text) : text ≠ [] := by
  cases h with
  | absent => exact List.cons_ne_nil _ _
  | number ne_nil => exact ne_nil

theorem IsSize.dash_or_digit {text : List Char} (h : IsSize text) :
    ∀ c ∈ text, c = '-' ∨ c.isDigit = true := by
  cases h with
  | absent => exact fun c hc => Or.inl (List.mem_singleton.1 hc)
  | number _ digits => exact fun c hc => Or.inr (digits c hc)

theorem isDayChar_of_mem_padded {width n : Nat} {c : Char}
    (h : c ∈ (Numeral.padded width n).toList) : IsDayChar c :=
  Or.inl (CharClass.isWord_of_isDigit (Numeral.isDigit_of_mem_padded h))

theorem isDayChar_of_mem_monthName {m : Nat} (hpos : 1 ≤ m) (hle : m ≤ 12) :
    ∀ c ∈ (Stamp.monthNames.getD (m - 1) "").toList, IsDayChar c := by
  have hword : (Stamp.monthNames.getD (m - 1) "").toList.all CharClass.isWord = true := by
    interval_cases m <;> decide +kernel
  exact fun c hc => Or.inl (List.all_eq_true.1 hword c hc)

theorem isDayChar_of_mem_dayText {s : Stamp} (hpos : 1 ≤ s.date.month) (hle : s.date.month ≤ 12) :
    ∀ c ∈ s.dayText, IsDayChar c := by
  have hcolon : IsDayChar ':' := Or.inr (Or.inl rfl)
  have hslash : IsDayChar '/' := Or.inr (Or.inr rfl)
  simp only [Stamp.dayText, List.forall_mem_append, List.forall_mem_cons]
  exact ⟨fun _ => isDayChar_of_mem_padded, hslash, isDayChar_of_mem_monthName hpos hle, hslash,
    fun _ => isDayChar_of_mem_padded, hcolon, fun _ => isDayChar_of_mem_padded, hcolon,
    fun _ => isDayChar_of_mem_padded, hcolon, fun _ => isDayChar_of_mem_padded⟩

theorem isDate_render {s : Stamp} (hs : s.isValid = true) : IsDate s.render.toList := by
  simp only [Stamp.isValid, Civil.isValid, Bool.and_eq_true, decide_eq_true_eq] at hs
  obtain ⟨⟨⟨⟨⟨⟨⟨⟨hmonth, hmonth'⟩, -⟩, -⟩, -⟩, -⟩, -⟩, hhours⟩, hminutes⟩ := hs
  obtain ⟨a, b, c, d, hours, minutes, hdigits⟩ := Stamp.exists_zone
    (show s.offsetHours < 10 ^ 2 by omega) (show s.offsetMinutes < 10 ^ 2 by omega)
  have hsign : (if s.westward then '-' else '+') = '+' ∨ (if s.westward then '-' else '+') = '-' := by
    cases s.westward <;> decide
  rw [Stamp.render_toList, hours, minutes]
  exact .intro (by simp [Stamp.dayText]) (isDayChar_of_mem_dayText hmonth hmonth') rfl hsign
    fun x hx => CharClass.isDigit_of_ascii (hdigits x hx)

namespace Record

theorem field?_append {text : List Char} (h : IsField text) (rest : List Char) :
    field? (text ++ ' ' :: rest) = some (text, rest) := by
  have hspan : (text ++ ' ' :: rest).span (fun c => !CharClass.isSpace c) = (text, ' ' :: rest) :=
    span_append (fun c hc => by simp [h.isSpace c hc]) rfl rest
  obtain ⟨c, cs, rfl⟩ := List.exists_cons_of_ne_nil h.ne_nil
  simp only [field?, hspan]

theorem date?_append {text : List Char} (h : IsDate text) (rest : List Char) :
    date? (text ++ rest) = some (text, rest) := by
  obtain @⟨day, space, sign, a, b, c, d, hne, hword, hspace, hsign, hdigits⟩ := h
  -- the white space ends the run, as it is no word character
  have hout : (CharClass.isWord space || space == ':' || space == '/') = false := by
    have hnot := CharClass.isWord_eq_false_of_isSpace hspace
    have hcolon : space ≠ ':' := by rintro rfl; exact absurd hspace (by decide)
    have hslash : space ≠ '/' := by rintro rfl; exact absurd hspace (by decide)
    simp [hnot, hcolon, hslash]
  have hspan := span_append (p := fun c => CharClass.isWord c || c == ':' || c == '/')
    (fun x hx => by simpa [IsDayChar, or_assoc] using hword x hx) hout (sign :: a :: b :: c :: d :: rest)
  obtain ⟨e, es, rfl⟩ := List.exists_cons_of_ne_nil hne
  have hall : [a, b, c, d].all CharClass.isDigit = true := List.all_eq_true.2 hdigits
  have hsigns : (sign == '+' || sign == '-') = true := by simpa using hsign
  rw [List.append_assoc]
  simp only [List.cons_append, List.nil_append] at hspan ⊢
  simp only [date?, hspan, hspace, hsigns, hall, Bool.and_self, if_true, List.cons_append]

theorem status?_append {text : List Char} (h : StatusShape text) (rest : List Char) :
    status? (text ++ rest) = some (text, rest) := by
  cases h with
  | absent => rfl
  | @code a b c digits =>
    have hne : a ≠ '-' := by
      rintro rfl
      exact absurd (digits '-' List.mem_cons_self) (by decide)
    have hall : [a, b, c].all CharClass.isDigit = true := List.all_eq_true.2 digits
    simp [status?, hall]

theorem size?_eq {text : List Char} (h : IsSize text) : size? text = some text := by
  cases h with
  | absent => rfl
  | number ne_nil digits =>
    obtain ⟨c, cs, rfl⟩ := List.exists_cons_of_ne_nil ne_nil
    have hne : c ≠ '-' := ne_dash_of_isDigit (digits c List.mem_cons_self)
    have hrun : (c :: cs).takeWhile CharClass.isDigit = c :: cs :=
      List.takeWhile_eq_self_iff.2 fun x hx => CharClass.isDigit_of_ascii (digits x hx)
    simp [size?, hne, hrun]

theorem response?_append {status size : List Char} (hstatus : IsStatus status) (hsize : IsSize size) :
    response? (' ' :: (status ++ ' ' :: size)) = some (status, size) := by
  simp only [response?, Stamp.expect?_cons, status?_append hstatus.shape, size?_eq hsize,
    Option.bind_eq_bind, Option.bind_some]

theorem request?_eq_none {cs : List Char} (h : '"' ∉ cs) : request? cs = none := by
  induction cs with
  | nil => rfl
  | cons c cs ih =>
    rw [List.mem_cons, not_or] at h
    simp [request?, ih h.2, Ne.symm h.1]

theorem request?_append {request response status size : List Char} (hline : '\n' ∉ request)
    (hquote : '"' ∉ response) (h : response? response = some (status, size)) :
    request? (request ++ '"' :: response) = some (request, status, size) := by
  -- by induction on the request: no quote follows the closing one, so the last quote that a response
  -- follows is that one, whatever quotes come before it
  induction request with
  | nil => simp [request?, request?_eq_none hquote, h]
  | cons c request ih =>
    rw [List.mem_cons, not_or] at hline
    simp [request?, ih hline.2, Ne.symm hline.1]

theorem orZero_eq {text : List Char} (h : IsSize text) (limit : Nat) : orZero limit text =
    if text = ['-'] ∨ limit < Numeral.value text then 0 else Numeral.value text := by
  cases h with
  | absent => rfl
  | number ne_nil digits =>
    have hdash : text ≠ ['-'] := by
      rintro rfl
      exact ne_dash_of_isDigit (digits '-' List.mem_cons_self) rfl
    have hall : text.all Char.isDigit = true := List.all_eq_true.2 digits
    have hread : Numeral.ofDigits? text = some (Numeral.value text) := by
      simp [Numeral.ofDigits?, hall, ne_nil]
    by_cases hle : Numeral.value text ≤ limit
    · simp [orZero, Numeral.ofDigitsUpTo?, hread, Option.filter_some, hdash, hle]
    · simp [orZero, Numeral.ofDigitsUpTo?, hread, Option.filter_some, hdash, hle]

end Record

structure Entry where
  host : String
  identity : String
  user : String
  date : String
  request : String
  status : String
  size : String
  host_isField : IsField host.toList
  identity_isField : IsField identity.toList
  user_isField : IsField user.toList
  date_isDate : IsDate date.toList
  request_oneLine : '\n' ∉ request.toList
  status_isStatus : IsStatus status.toList
  size_isSize : IsSize size.toList

namespace Entry

def render (e : Entry) : String :=
  e.host ++ " " ++ e.identity ++ " " ++ e.user ++ " [" ++ e.date ++ "] \"" ++ e.request ++ "\" " ++
    e.status ++ " " ++ e.size

def unlessDash (text : String) : String := if text = "-" then "" else text

def number (text : String) : Nat := Nat.ofDigitChars 10 text.toList 0

theorem render_toList (e : Entry) : e.render.toList =
    e.host.toList ++ ' ' :: (e.identity.toList ++ ' ' :: (e.user.toList ++ ' ' :: '[' ::
      (e.date.toList ++ ']' :: ' ' :: '"' :: (e.request.toList ++ '"' ::
        (' ' :: (e.status.toList ++ ' ' :: e.size.toList)))))) := by
  simp [render, String.toList_append]

theorem quote_notMem_response (e : Entry) :
    '"' ∉ ' ' :: (e.status.toList ++ ' ' :: e.size.toList) := by
  have hstatus : '"' ∉ e.status.toList := fun h =>
    absurd (e.status_isStatus.isSize.dash_or_digit _ h) (by decide)
  have hsize : '"' ∉ e.size.toList := fun h =>
    absurd (e.size_isSize.dash_or_digit _ h) (by decide)
  simp [hstatus, hsize]

theorem trimLineEnds_render (e : Entry) {ends : List Char} (hends : ∀ c ∈ ends, isLineEnd c = true) :
    trimLineEnds (e.render.toList ++ ends) = e.render.toList := by
  refine trimLineEnds_append hends fun c hc => ?_
  have hrender : e.render = (e.host ++ " " ++ e.identity ++ " " ++ e.user ++ " [" ++ e.date ++
    "] \"" ++ e.request ++ "\" " ++ e.status ++ " ") ++ e.size := rfl
  rw [hrender, String.toList_append, List.getLast?_append_of_ne_nil _ e.size_isSize.ne_nil] at hc
  have hchar := e.size_isSize.dash_or_digit c (List.mem_of_mem_getLast? hc)
  rw [Bool.eq_false_iff]
  intro hend
  simp only [isLineEnd, Bool.or_eq_true, beq_iff_eq] at hend
  rcases hend with rfl | rfl
  · exact absurd hchar (by decide)
  · exact absurd hchar (by decide)

theorem toList_eq_dash (text : String) : text.toList = ['-'] ↔ text = "-" := by
  rw [← String.toList_inj]
  rfl

theorem orEmpty_eq (text : String) : Record.orEmpty text.toList = unlessDash text := by
  simp [Record.orEmpty, unlessDash, toList_eq_dash]

theorem orZero_status (e : Entry) : Record.orZero Record.maxStatus e.status.toList =
    if e.status = "-" then 0 else number e.status := by
  have hle := e.status_isStatus.value_le
  rw [Record.orZero_eq e.status_isStatus.isSize]
  exact if_congr (by simp [toList_eq_dash, Nat.not_lt.2 hle]) rfl rfl

theorem orZero_size (e : Entry) : Record.orZero Numeral.maxWord e.size.toList =
    if e.size = "-" ∨ 2 ^ 64 - 1 < number e.size then 0 else number e.size := by
  rw [Record.orZero_eq e.size_isSize]
  exact if_congr (or_congr (toList_eq_dash _) Iff.rfl) rfl rfl

theorem parse?_render (e : Entry) (ends : String) (hends : ∀ c ∈ ends.toList, isLineEnd c = true) :
    Record.parse? (e.render ++ ends) = some {
      remoteAddr := e.host
      identity := unlessDash e.identity
      userId := unlessDash e.user
      timestamp := (Stamp.parse? e.date.toList).map Stamp.toZoned
      request := e.request
      status := if e.status = "-" then 0 else number e.status
      size := if e.size = "-" ∨ 2 ^ 64 - 1 < number e.size then 0 else number e.size } := by
  have hresponse := Record.response?_append e.status_isStatus e.size_isSize
  have hrequest := Record.request?_append e.request_oneLine e.quote_notMem_response hresponse
  rw [Record.parse?, String.toList_append, Record.parseChars?, trimLineEnds_render e hends,
    render_toList]
  simp only [Record.field?_append e.host_isField, Record.field?_append e.identity_isField,
    Record.field?_append e.user_isField, Stamp.expect?_cons, Record.date?_append e.date_isDate,
    hrequest, Option.bind_eq_bind, Option.bind_some, String.ofList_toList, orEmpty_eq, orZero_status,
    orZero_size]

/-- Parsing undoes formatting, line ends after the line included. A date that is the stamp of a
date-time is read as that date-time, to the whole second. -/
theorem parse_undoes_render (e : Entry) (ends : String)
    (hends : ∀ c ∈ ends.toList, isLineEnd c = true) :
    ∃ r, Record.parse? (e.render ++ ends) = some r ∧
      r.remoteAddr = e.host ∧
      r.identity = unlessDash e.identity ∧
      r.userId = unlessDash e.user ∧
      r.request = e.request ∧
      r.status = (if e.status = "-" then 0 else number e.status) ∧
      r.size = (if e.size = "-" ∨ 2 ^ 64 - 1 < number e.size then 0 else number e.size) ∧
      ∀ z : ZonedInstant, Stamp.Expressible z → e.date = (Stamp.ofZoned z).render →
        r.timestamp = some z.wholeSecond := by
  refine ⟨_, e.parse?_render ends hends, rfl, rfl, rfl, rfl, rfl, rfl, ?_⟩
  intro z hz hdate
  have hstamp := Stamp.parse?_render (Stamp.isValid_ofZoned hz) hz.year_nonneg hz.year_le
  rw [hdate, hstamp, Option.map_some, Stamp.toZoned_ofZoned hz]

def quoted : Entry where
  host := "::1"
  identity := "-"
  user := "frank"
  date := "10/Oct/2000:13:55:36 -0700"
  request := "GET /a\" 200 5"
  status := "404"
  size := "18446744073709551616"
  host_isField := isField_of_all (by decide) (by decide)
  identity_isField := isField_of_all (by decide) (by decide)
  user_isField := isField_of_all (by decide) (by decide)
  date_isDate := by
    have hdate : "10/Oct/2000:13:55:36 -0700" = (Stamp.ofZoned ⟨⟨971211336, 0⟩, -25200⟩).render := by
      decide +kernel
    rw [hdate]
    exact isDate_render (by decide +kernel)
  request_oneLine := by decide
  status_isStatus := .code (List.all_eq_true.1 (by decide))
  size_isSize := .number (by decide) (List.all_eq_true.1 (by decide))

theorem parse_undoes_render_quoted :
    ∃ r, Record.parse? ("::1 - frank [10/Oct/2000:13:55:36 -0700] \"GET /a\" 200 5\" 404 " ++
        "18446744073709551616" ++ "\r\n") = some r ∧
      r.identity = "" ∧ r.request = "GET /a\" 200 5" ∧ r.status = 404 ∧ r.size = 0 ∧
      r.timestamp = some ⟨⟨971211336, 0⟩, -25200⟩ := by
  have hz : Stamp.Expressible ⟨⟨971211336, 0⟩, -25200⟩ :=
    ⟨by decide, by decide, by decide, by decide, by decide⟩
  obtain ⟨r, hr, -, hidentity, -, hrequest, hstatus, hsize, htime⟩ :=
    parse_undoes_render quoted "\r\n" (List.all_eq_true.1 (by decide))
  exact ⟨r, hr, hidentity, hrequest, hstatus.trans (by decide +kernel), hsize.trans (by decide +kernel),
    htime _ hz (by decide +kernel)⟩

end Entry

end TrafficMonitor.Log
