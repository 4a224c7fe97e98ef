import TrafficMonitor.Report.Summary
import TrafficMonitor.Proofs.Text.Layout

namespace TrafficMonitor.Report

open Text Text.CharClass Sketch

structure Table where
  heading : List Char
  dashes : List Char
  rows : List (List Char)

def isDashes (line : List Char) : Bool := line.head? == some '-'

def isTotal (line : List Char) : Bool := "Total hits".toList.isPrefixOf line

def table? (report : String) : Option Table :=
  match (report.toList.splitOn '\n').span (!isDashes ·) with
  | (_, []) => none
  | (above, dashes :: below) =>
    match above.getLast?, below.span (!isTotal ·) with
    | some heading, (rows, _ :: _) => some ⟨heading, dashes, rows⟩
    | _, _ => none

def entry? (row : List Char) : Option Element :=
  match tokens row with
  | [name, hits] => (Numeral.ofDigits? hits).map fun freq => ⟨.ofList name, freq⟩
  | _ => none

def Table.of (sections : List Element) : Table :=
  let width := Summary.sectionWidth sections
  { heading := spaced "Section".toList (width - "Section".length + 2) "Hits".toList
    dashes := spaced (List.replicate width '-') 2 "----".toList
    rows := sections.map fun e =>
      spaced e.key.toList (width - e.key.length + 2) (toString e.freq).toList }

def Table.lines (table : Table) : List (List Char) := table.heading :: table.dashes :: table.rows

structure Table.Lists (table : Table) (sections : List Element) (width : Nat) : Prop where
  fields : table.rows.map tokens = sections.map fun e => [e.key.toList, (toString e.freq).toList]
  entries : table.rows.map entry? = sections.map some
  wide : ∀ e ∈ sections, e.key.length ≤ width
  aligned : ∀ line ∈ table.lines, secondColumn? line = some (width + 2)

theorem isTotal_spaced {left : List Char} (hleft : IsWord left) (n : Nat) (right : List Char) :
    isTotal (spaced left (n + 2) right) = false := by
  rw [isTotal, ← Bool.not_eq_true, List.isPrefixOf_iff_prefix]
  rintro ⟨rest, hrest⟩
  have hdrop := congrArg (List.dropWhile isInk) hrest
  have htotal : ("Total hits".toList ++ rest).dropWhile isInk = ' ' :: 'h' :: ("its".toList ++ rest) := rfl
  rw [hleft.dropWhile_spaced (n + 1), htotal] at hdrop
  simp [List.replicate_succ] at hdrop

namespace Summary

theorem foldl_max_le_iff {ns : List Nat} {m n : Nat} : ns.foldl max m ≤ n ↔ m ≤ n ∧ ∀ k ∈ ns, k ≤ n := by
  induction ns generalizing m with
  | nil => simp
  | cons k ns ih =>
    rw [List.foldl_cons, ih, Nat.max_le, List.forall_mem_cons, and_assoc]

theorem sectionWidth_le_iff {sections : List Element} {n : Nat} :
    sectionWidth sections ≤ n ↔ 7 ≤ n ∧ ∀ e ∈ sections, e.key.utf8ByteSize ≤ n := by
  rw [sectionWidth, foldl_max_le_iff, List.forall_mem_map]
  rfl

theorem row_eq_spaced (width : Nat) (left right : String) :
    (row width ' ' left right).toList =
      spaced left.toList (width - left.length + 2) right.toList := by
  simp [row, padRight, spaced, List.replicate_succ']

theorem dashes_eq_spaced (width : Nat) (right : String) :
    (row width '-' "" right).toList = spaced (List.replicate width '-') 2 right.toList := by
  simp [row, padRight, spaced]

theorem oneLine_triple {separator : String} (h : OneLine separator) (l m n : Nat) :
    OneLine (Numeral.padded 2 l ++ separator ++ Numeral.padded 2 m ++ separator ++ Numeral.padded 2 n) :=
  ((((oneLine_padded 2 l).append h).append (oneLine_padded 2 m)).append h).append (oneLine_padded 2 n)

theorem oneLine_shortText (t : Time.Instant) : OneLine t.shortText := by
  have hslash : OneLine "/" := by decide +kernel
  have hspace : OneLine " " := by decide +kernel
  have hcolon : OneLine ":" := by decide +kernel
  exact ((oneLine_triple hslash _ _ _).append hspace).append (oneLine_triple hcolon _ _ _)

theorem oneLine_heading (s : Summary) : OneLine s.heading := by
  have hopening : OneLine "===== SUMMARY [" := by decide +kernel
  have hclosing : OneLine "] =================>" := by decide +kernel
  exact (hopening.append (oneLine_shortText s.time)).append hclosing

theorem oneLine_totalLine (s : Summary) : OneLine s.totalLine := by
  have htotal : OneLine "Total hits:\t\t" := by decide +kernel
  exact htotal.append (isWord_number s.totalHits).notMem_newline

theorem isDashes_heading (s : Summary) : isDashes s.heading.toList = false := by
  have hopening (a b : String) : isDashes ("===== SUMMARY [" ++ a ++ b).toList = false := by
    rw [String.toList_append, String.toList_append]
    rfl
  exact hopening s.time.shortText _

theorem isTotal_totalLine (s : Summary) : isTotal s.totalLine.toList = true := by
  have htotal (a : String) : isTotal ("Total hits:\t\t" ++ a).toList = true := by
    rw [String.toList_append]
    rfl
  exact htotal (toString s.totalHits)

end Summary

theorem table?_eq_some {report : String} {above heading dashes total : List Char}
    {rows rest : List (List Char)}
    (hlines : report.toList.splitOn '\n' = above :: heading :: dashes :: (rows ++ total :: rest))
    (habove : ∀ line ∈ [above, heading], isDashes line = false) (hdashes : isDashes dashes = true)
    (hrows : ∀ row ∈ rows, isTotal row = false) (htotal : isTotal total = true) :
    table? report = some ⟨heading, dashes, rows⟩ := by
  have hcut : (above :: heading :: dashes :: (rows ++ total :: rest)).span (!isDashes ·) =
      ([above, heading], dashes :: (rows ++ total :: rest)) :=
    span_append (p := (!isDashes ·)) (fun line hline => by rw [habove line hline]; rfl)
      (by rw [hdashes]; rfl) _
  have hbelow : (rows ++ total :: rest).span (!isTotal ·) = (rows, total :: rest) :=
    span_append (p := (!isTotal ·)) (fun row hrow => by rw [hrows row hrow]; rfl)
      (by rw [htotal]; rfl) _
  rw [table?, hlines, hcut]
  simp only [hbelow]
  rfl

section Sections

variable {sections : List Element} (hnames : ∀ e ∈ sections, IsWord e.key.toList)

theorem sectionTable_eq (sections : List Element) :
    (Summary.sectionTable sections).map String.toList = (Table.of sections).lines := by
  rw [Summary.sectionTable, List.map_cons, List.map_cons, Summary.row_eq_spaced, Summary.dashes_eq_spaced,
    List.map_map]
  simp only [Table.lines, Table.of, List.cons.injEq, true_and]
  exact List.map_congr_left fun e _ => Summary.row_eq_spaced _ _ _

theorem seven_le_sectionWidth (sections : List Element) : 7 ≤ Summary.sectionWidth sections :=
  (Summary.sectionWidth_le_iff.1 le_rfl).1

theorem length_le_sectionWidth {e : Element} (he : e ∈ sections) :
    e.key.length ≤ Summary.sectionWidth sections :=
  (length_le_utf8ByteSize e.key).trans ((Summary.sectionWidth_le_iff.1 le_rfl).2 e he)

theorem isWord_dashes (sections : List Element) :
    IsWord (List.replicate (Summary.sectionWidth sections) '-') := by
  have hseven := seven_le_sectionWidth sections
  refine ⟨fun hnil => ?_, fun c hc => ?_⟩
  · have hzero := congrArg List.length hnil
    rw [List.length_replicate, List.length_nil] at hzero
    omega
  · rw [List.eq_of_mem_replicate hc]
    rfl

theorem isDashes_dashes (sections : List Element) : isDashes (Table.of sections).dashes = true := by
  obtain ⟨n, hn⟩ := Nat.exists_eq_add_of_le' (seven_le_sectionWidth sections)
  have hdashes : (Table.of sections).dashes = spaced (List.replicate (n + 7) '-') 2 "----".toList := by
    rw [← hn]
    rfl
  rw [hdashes]
  rfl

include hnames

theorem exists_spaced {line : List Char} (hline : line ∈ (Table.of sections).lines) :
    ∃ left right n, IsWord left ∧ IsWord right ∧ line = spaced left (n + 2) right ∧
      left.length + n = Summary.sectionWidth sections := by
  simp only [Table.lines, Table.of, List.mem_cons, List.mem_map] at hline
  rcases hline with rfl | rfl | ⟨e, he, rfl⟩
  · refine ⟨_, _, _, isWord_of_all (by decide) (by decide), isWord_of_all (by decide) (by decide), rfl, ?_⟩
    have hseven := seven_le_sectionWidth sections
    have hlength : "Section".toList.length = 7 ∧ "Section".length = 7 := by decide
    omega
  · exact ⟨_, _, 0, isWord_dashes sections, isWord_of_all (by decide) (by decide), rfl, by simp⟩
  · refine ⟨_, _, _, hnames e he, isWord_number e.freq, rfl, ?_⟩
    have hlength := length_le_sectionWidth he
    rw [String.length_toList]
    omega

theorem lists_of : (Table.of sections).Lists sections (Summary.sectionWidth sections) := by
  have hfields (e : Element) (he : e ∈ sections) (n : Nat) :
      tokens (spaced e.key.toList (n + 2) (toString e.freq).toList) =
        [e.key.toList, (toString e.freq).toList] :=
    tokens_spaced (hnames e he) (isWord_number e.freq) (n + 1)
  refine ⟨?fields, ?entries, ?wide, ?aligned⟩
  case fields =>
    rw [Table.of, List.map_map]
    exact List.map_congr_left fun e he => hfields e he _
  case entries =>
    rw [Table.of, List.map_map]
    refine List.map_congr_left fun e he => ?_
    rw [Function.comp_apply, entry?, hfields e he]
    simp only [Numeral.ofDigits?_toString, Option.map_some, String.ofList_toList]
  case wide => exact fun e he => length_le_sectionWidth he
  case aligned =>
    intro line hline
    obtain ⟨left, right, n, hleft, hright, rfl, hn⟩ := exists_spaced hnames hline
    rw [secondColumn?_spaced hleft hright (n + 1), ← hn]
    rfl

end Sections

theorem table?_text {s : Summary} (hnames : ∀ e ∈ s.topSections, IsWord e.key.toList) :
    table? s.text = some (Table.of s.topSections) := by
  have hlines : s.lines.map String.toList = s.heading.toList :: (Table.of s.topSections).lines ++
      [s.totalLine.toList] ++ s.details.map String.toList := by
    rw [Summary.lines, ← sectionTable_eq]
    simp
  have hdetails : s.details.map String.toList ≠ [] := by simp [Summary.details]
  have hnewline : ∀ line ∈ s.heading.toList :: (Table.of s.topSections).lines ++ [s.totalLine.toList],
      '\n' ∉ line := by
    intro line hline
    rcases List.mem_append.1 hline with hline | hline
    · rcases List.mem_cons.1 hline with hheading | hline
      · rw [hheading]
        exact s.oneLine_heading
      · obtain ⟨left, right, n, hleft, hright, rfl, -⟩ := exists_spaced hnames hline
        exact notMem_newline_spaced hleft hright (n + 2)
    · rw [List.mem_singleton.1 hline]
      exact s.oneLine_totalLine
  have hsplit : s.text.toList.splitOn '\n' = s.heading.toList :: (Table.of s.topSections).lines ++
      [s.totalLine.toList] ++ (['\n'].intercalate (s.details.map String.toList)).splitOn '\n' := by
    rw [Summary.text, String.toList_intercalate, hlines]
    exact splitOn_intercalate_append hnewline hdetails
  have hrows : ∀ row ∈ (Table.of s.topSections).rows, isTotal row = false := by
    intro row hrow
    obtain ⟨left, right, n, hleft, -, rfl, -⟩ := exists_spaced hnames
      (List.mem_cons_of_mem _ (List.mem_cons_of_mem _ hrow))
    exact isTotal_spaced hleft n _
  simp only [Table.lines, List.append_assoc, List.cons_append, List.nil_append] at hsplit
  refine table?_eq_some hsplit ?_ ?_ hrows s.isTotal_totalLine
  · intro line hline
    rcases List.mem_cons.1 hline with habove | hline
    · rw [habove]
      exact s.isDashes_heading
    · rw [List.mem_singleton.1 hline]
      rfl
  · exact isDashes_dashes s.topSections

theorem Summary.render_eq (s : Summary) :
    s.render = if ∀ e ∈ s.topSections, e.key.utf8ByteSize ≤ widestColumn then .ok s.text
      else .error .columnTooWide := by
  have hfits : sectionWidth s.topSections ≤ widestColumn ↔
      ∀ e ∈ s.topSections, e.key.utf8ByteSize ≤ widestColumn :=
    sectionWidth_le_iff.trans (and_iff_right (by decide))
  rw [render]
  simp only [hfits]

/-- A report of sections whose names are words has their table in it, a row for each with its name and
its hits and the second column in one place. There is a report exactly if no name has more bytes than a
column can be wide. -/
theorem sections_read_back (s : Summary) (hnames : ∀ e ∈ s.topSections, IsWord e.key.toList) :
    ((∀ e ∈ s.topSections, e.key.utf8ByteSize ≤ Summary.widestColumn) →
      ∃ report table width, s.render = .ok report ∧ table? report = some table ∧
        table.Lists s.topSections width) ∧
    (s.render = .error .columnTooWide ↔
      ∃ e ∈ s.topSections, Summary.widestColumn < e.key.utf8ByteSize) := by
  rw [Summary.render_eq]
  refine ⟨fun hfits => ?_, ?_⟩
  · exact ⟨s.text, _, _, if_pos hfits, table?_text hnames, lists_of hnames⟩
  · split
    case isTrue hfits => simpa using hfits
    case isFalse hwide => simpa using hwide

def Summary.ofSections (sections : List Element) : Summary where
  time := ⟨0, 0⟩
  totalHits := sections.foldl (fun hits e => hits + e.freq) 0
  skippedLines := 0
  topSections := sections
  distinctVisitors := 1
  sizes := .zero
  statuses := ⟨0, 0, 0, 0, 0⟩
  hitsPerQuantum := 0
  quantum := .ofSeconds 1
  averageHits := none
  window := .ofSeconds 120

theorem sections_read_back_multibyte :
    let s := Summary.ofSections [⟨"/größe", 1234⟩, ⟨"/日本", 7⟩]
    (∀ e ∈ s.topSections, IsWord e.key.toList) ∧
    (∀ e ∈ s.topSections, e.key.utf8ByteSize ≤ Summary.widestColumn) ∧
    ∃ report table width, s.render = .ok report ∧ table? report = some table ∧
      table.Lists s.topSections width := by
  intro s
  have hnames : ∀ e ∈ s.topSections, IsWord e.key.toList := by
    refine List.forall_mem_cons.2 ⟨?_, List.forall_mem_singleton.2 ?_⟩
    · exact isWord_of_all (by decide) (by decide)
    · exact isWord_of_all (by decide) (by decide)
  have hfits : ∀ e ∈ s.topSections, e.key.utf8ByteSize ≤ Summary.widestColumn := by decide
  exact ⟨hnames, hfits, (sections_read_back s hnames).1 hfits⟩

def wideName : String := .ofList ('/' :: List.replicate Summary.widestColumn 'a')

theorem utf8ByteSize_replicate (n : Nat) : (String.ofList (List.replicate n 'a')).utf8ByteSize = n := by
  induction n with
  | zero => rfl
  | succ n ih =>
    have hsize : 'a'.utf8Size = 1 := by decide
    rw [List.replicate_succ, utf8ByteSize_ofList_cons, ih, hsize, Nat.add_comm]

theorem isWord_wideName : IsWord wideName.toList := by
  rw [wideName, String.toList_ofList]
  refine ⟨List.cons_ne_nil _ _, fun c hc => ?_⟩
  rcases List.mem_cons.1 hc with rfl | hc
  · rfl
  · rw [List.eq_of_mem_replicate hc]
    rfl

theorem wide_section_not_laid_out :
    let s := Summary.ofSections [⟨wideName, 1⟩]
    (∀ e ∈ s.topSections, IsWord e.key.toList) ∧ s.render = .error .columnTooWide := by
  intro s
  have hslash : '/'.utf8Size = 1 := by decide
  have hsize : wideName.utf8ByteSize = 1 + Summary.widestColumn := by
    rw [wideName, utf8ByteSize_ofList_cons, utf8ByteSize_replicate, hslash]
  refine ⟨List.forall_mem_singleton.2 isWord_wideName, ?_⟩
  rw [Summary.render_eq, if_neg]
  intro hfits
  have hwide := hfits _ (List.mem_singleton.2 rfl)
  rw [hsize] at hwide
  omega

end TrafficMonitor.Report
