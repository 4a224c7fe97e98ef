import TrafficMonitor.Log.Section
import TrafficMonitor.Proofs.Text.Tokens
import TrafficMonitor.Text.Utf8

namespace TrafficMonitor.Log

open Text

def slashOffsets (text : String) : List Nat := text.toByteArray.data.toList.idxsOf 0x2F

def firstBytes? (text : String) (n : Nat) : Option String :=
  if h : String.Pos.Raw.IsValid text ⟨n⟩ then some (text.sliceTo ⟨⟨n⟩, h⟩).copy else none

def sectionBytes? (path : String) : Option String :=
  match slashOffsets path with
  | _ :: second :: _ => firstBytes? path second
  | _ => some rootSection

inductive Slashed : String → Prop
  | without {path : String} (hpath : '/' ∉ path.toList) : Slashed path
  | once {a b : String} (ha : '/' ∉ a.toList) (hb : '/' ∉ b.toList) : Slashed (a ++ "/" ++ b)
  | twice {a b : String} (c : String) (ha : '/' ∉ a.toList) (hb : '/' ∉ b.toList) :
      Slashed (a ++ "/" ++ b ++ "/" ++ c)

theorem exists_slash {text : String} (h : '/' ∈ text.toList) :
    ∃ a rest : String, '/' ∉ a.toList ∧ text = a ++ "/" ++ rest := by
  obtain ⟨a, rest, htext, ha⟩ := List.eq_append_cons_of_mem h
  refine ⟨.ofList a, .ofList rest, by rwa [String.toList_ofList], ?_⟩
  rw [← String.toList_inj, htext]
  simp

theorem slashed (path : String) : Slashed path := by
  by_cases hpath : '/' ∈ path.toList
  · obtain ⟨a, rest, ha, rfl⟩ := exists_slash hpath
    by_cases hrest : '/' ∈ rest.toList
    · obtain ⟨b, c, hb, rfl⟩ := exists_slash hrest
      have hassoc : a ++ "/" ++ (b ++ "/" ++ c) = a ++ "/" ++ b ++ "/" ++ c := by
        simp only [String.append_assoc]
      exact hassoc ▸ .twice c ha hb
    · exact .once ha hrest
  · exact .without hpath

section Bytes

theorem firstBytes?_append (s rest : String) : firstBytes? (s ++ rest) s.utf8ByteSize = some s := by
  have hvalid : String.Pos.Raw.IsValid (s ++ rest) ⟨s.utf8ByteSize⟩ :=
    String.Pos.Raw.isValid_iff_exists_append.2 ⟨s, rest, rfl, rfl⟩
  rw [firstBytes?, dif_pos hvalid]
  exact congrArg some ((String.Pos.splits _).eq_left ⟨rfl, rfl⟩)

theorem slash_mem_bytes {text : String} : 0x2F ∈ text.toByteArray.data.toList ↔ '/' ∈ text.toList := by
  have hascii : '/'.toNat < 0x80 := by decide
  rw [Utf8.bytes_eq, ← Utf8.mem_bytes_iff hascii]
  rfl

theorem slashOffsets_of_notMem {text : String} (h : '/' ∉ text.toList) : slashOffsets text = [] := by
  rw [slashOffsets, List.idxsOf_eq_nil_iff]
  rintro byte hbyte
  rw [beq_eq_false_iff_ne]
  rintro rfl
  exact h (slash_mem_bytes.1 hbyte)

theorem slashOffsets_append {a : String} (ha : '/' ∉ a.toList) (rest : String) :
    slashOffsets (a ++ "/" ++ rest) =
      a.utf8ByteSize :: (slashOffsets rest).map (· + (a ++ "/").utf8ByteSize) := by
  have hbytes (s t : String) : (s ++ t).toByteArray.data.toList =
      s.toByteArray.data.toList ++ t.toByteArray.data.toList := by simp
  have hslash : "/".toByteArray.data.toList = [0x2F] := by decide
  have hbefore : (a ++ "/").toByteArray.data.toList.idxsOf 0x2F = [a.utf8ByteSize] := by
    have hnone := slashOffsets_of_notMem ha
    rw [slashOffsets] at hnone
    rw [hbytes, hslash, List.idxsOf_append, hnone]
    simp
  rw [slashOffsets, hbytes, List.idxsOf_append, hbefore, List.idxsOf_start, slashOffsets]
  simp

end Bytes

theorem ne_slash_of_notMem {cs : List Char} (h : '/' ∉ cs) : ∀ c ∈ cs, decide (c ≠ '/') = true :=
  fun _ hc => decide_eq_true fun heq => h (heq ▸ hc)

theorem span_of_notMem {cs : List Char} (h : '/' ∉ cs) : cs.span (· ≠ '/') = (cs, []) := by
  rw [List.span_eq_takeWhile_dropWhile, List.takeWhile_eq_self_iff.2 (ne_slash_of_notMem h),
    List.dropWhile_eq_nil_iff.2 (ne_slash_of_notMem h)]

theorem span_slash {cs : List Char} (h : '/' ∉ cs) (rest : List Char) :
    (cs ++ '/' :: rest).span (· ≠ '/') = (cs, '/' :: rest) :=
  span_append (ne_slash_of_notMem h) rfl rest

section Readings

variable {a b : String} (ha : '/' ∉ a.toList) (hb : '/' ∉ b.toList)

theorem sectionOf_without {path : String} (h : '/' ∉ path.toList) : sectionOf path = "/" := by
  rw [sectionOf, sectionChars?, span_of_notMem h]
  rfl

include ha hb

theorem sectionOf_once : sectionOf (a ++ "/" ++ b) = "/" := by
  have hpath : (a ++ "/" ++ b).toList = a.toList ++ '/' :: b.toList := by simp
  rw [sectionOf, sectionChars?, hpath, span_slash ha]
  simp only [span_of_notMem hb]
  rfl

theorem sectionOf_twice (c : String) : sectionOf (a ++ "/" ++ b ++ "/" ++ c) = a ++ "/" ++ b := by
  have hpath : (a ++ "/" ++ b ++ "/" ++ c).toList = a.toList ++ '/' :: (b.toList ++ '/' :: c.toList) := by
    simp
  rw [sectionOf, sectionChars?, hpath, span_slash ha]
  simp only [span_slash hb]
  rw [Option.map_some, Option.getD_some, ← String.toList_inj]
  simp

theorem sectionBytes?_once : sectionBytes? (a ++ "/" ++ b) = some "/" := by
  rw [sectionBytes?, slashOffsets_append ha, slashOffsets_of_notMem hb]
  rfl

theorem sectionBytes?_twice (c : String) :
    sectionBytes? (a ++ "/" ++ b ++ "/" ++ c) = some (a ++ "/" ++ b) := by
  have hassoc : a ++ "/" ++ b ++ "/" ++ c = a ++ "/" ++ (b ++ "/" ++ c) := by
    simp only [String.append_assoc]
  have hlast : a ++ "/" ++ b ++ "/" ++ c = a ++ "/" ++ b ++ ("/" ++ c) := String.append_assoc
  have hsize : b.utf8ByteSize + (a ++ "/").utf8ByteSize = (a ++ "/" ++ b).utf8ByteSize := by
    rw [String.utf8ByteSize_append (s := a ++ "/"), Nat.add_comm]
  rw [sectionBytes?, hassoc, slashOffsets_append ha, slashOffsets_append hb, List.map_cons, hsize,
    ← hassoc, hlast]
  exact firstBytes?_append _ _

end Readings

theorem count_slash_once {a b : String} (ha : '/' ∉ a.toList) (hb : '/' ∉ b.toList) :
    (a ++ "/" ++ b).toList.count '/' = 1 := by
  simp [List.count_eq_zero.2 ha, List.count_eq_zero.2 hb]

theorem section_ends_before_second_slash (path : String) :
    (∀ a b c : String, '/' ∉ a.toList → '/' ∉ b.toList → path = a ++ "/" ++ b ++ "/" ++ c →
      sectionOf path = a ++ "/" ++ b) ∧
    (path.toList.count '/' < 2 → sectionOf path = "/") ∧
    sectionBytes? path = some (sectionOf path) ∧
    (sectionOf path ≠ "" ∧ (sectionOf path).toList.count '/' = 1) ∧
    (2 ≤ path.toList.count '/' → ∀ more : String, sectionOf (path ++ more) = sectionOf path) := by
  refine ⟨fun a b c ha hb hpath => hpath ▸ sectionOf_twice ha hb c, ?_⟩
  cases slashed path with
  | without hpath =>
    have hcount := List.count_eq_zero.2 hpath
    rw [sectionOf_without hpath, sectionBytes?, slashOffsets_of_notMem hpath, hcount]
    exact ⟨fun _ => rfl, rfl, by decide, fun h => absurd h (by decide)⟩
  | once ha hb =>
    rw [sectionOf_once ha hb, sectionBytes?_once ha hb, count_slash_once ha hb]
    exact ⟨fun _ => rfl, rfl, by decide, fun h => absurd h (by decide)⟩
  | @twice a b c ha hb =>
    have hcount := count_slash_once ha hb
    have hpath : (a ++ "/" ++ b ++ "/" ++ c).toList.count '/' = 2 + c.toList.count '/' := by
      rw [String.toList_append, String.toList_append, List.count_append, List.count_append, hcount]
      rfl
    rw [sectionOf_twice ha hb, sectionBytes?_twice ha hb, hpath]
    refine ⟨fun h => absurd h (by omega), rfl, ⟨?_, hcount⟩, fun _ more => ?_⟩
    · intro hempty
      rw [hempty] at hcount
      exact absurd hcount (by decide)
    · rw [String.append_assoc]
      exact sectionOf_twice ha hb (c ++ more)

theorem section_ends_before_second_slash_multibyte :
    let path := "/größe/日本"
    ('/' ∉ "größe".toList ∧ sectionOf path = "/größe" ∧ sectionBytes? path = some "/größe") ∧
    (2 ≤ path.toList.count '/' ∧ sectionOf (path ++ "/ß") = "/größe") ∧
    ("größe".toList.count '/' < 2 ∧ sectionOf "größe" = "/") := by
  intro path
  obtain ⟨hsection, -, hbytes, -, hmore⟩ := section_ends_before_second_slash path
  have hgroup : sectionOf path = "/größe" := hsection "" "größe" "日本" (by decide) (by decide) rfl
  refine ⟨⟨by decide, hgroup, hgroup ▸ hbytes⟩, ⟨by decide, ?_⟩, by decide, ?_⟩
  · rw [hmore (by decide), hgroup]
  · exact (section_ends_before_second_slash "größe").2.1 (by decide)

end TrafficMonitor.Log
