import TrafficMonitor.Proofs.Settings.Documents
import TrafficMonitor.Proofs.Toml.Documents

namespace TrafficMonitor.Settings

open Document Time Text

def reload? (s : Settings) : Option Settings :=
  (Toml.render? s.encode).bind fun text => (Toml.parse? text).bind decode

def Holds (s : Settings) : Prop := ∀ f ∈ fields, ∀ n, f.encode s = .whole n → n < 2 ^ 63

variable {s t : Settings}

theorem holds_iff : s.Holds ↔ s.sections < 2 ^ 63 ∧ s.reportingInterval.wholeSeconds < 2 ^ 63 ∧
    s.alertWindow.wholeSeconds < 2 ^ 63 ∧ s.quantum.wholeMillis < 2 ^ 63 ∧
    s.alertCheckQuanta < 2 ^ 63 ∧ s.sizeRotationThreshold < 2 ^ 63 ∧ s.sizeHistory < 2 ^ 63 ∧
    s.maxRecordableSize < 2 ^ 63 ∧ s.lineBuffer < 2 ^ 63 := by
  simp [Holds, fields, wordField, secondsField, countField, Numeral.maxWord]

theorem plain_encode (s : Settings) : ∀ f ∈ fields, Toml.Plain (f.encode s) := by
  simp [fields, wordField, secondsField, countField, Toml.Plain]

theorem bare_name {f : Field} (hf : f ∈ fields) : Toml.Bare f.name.toList := by
  have hnames : ∀ f ∈ fields, f.name.toList.all Toml.isBare && !f.name.toList.isEmpty := by decide
  obtain ⟨hall, hempty⟩ := Bool.and_eq_true_iff.1 (hnames f hf)
  exact ⟨List.all_eq_true.1 hall, fun h => by rw [h] at hempty; cases hempty⟩

theorem flat_encode (s : Settings) : Toml.Flat s.encode where
  bare := List.forall_mem_map.2 fun _ hf => bare_name hf
  nodup := by
    rw [encode, List.map_map]
    exact nodup_names
  plain := List.forall_mem_map.2 (plain_encode s)

theorem nonneg_of_encode {f : Field} (hf : f ∈ fields) {n : Int} (h : f.encode s = .whole n) :
    0 ≤ n := by
  simp only [fields, List.mem_cons, List.not_mem_nil, or_false] at hf
  rcases hf with rfl | rfl | rfl | rfl | rfl | rfl | rfl | rfl | rfl | rfl | rfl
  all_goals cases h
  all_goals exact Int.natCast_nonneg _

theorem isSome_scalarText?_iff {f : Field} (hf : f ∈ fields) :
    (Toml.scalarText? (f.encode s)).isSome ↔ ∀ n, f.encode s = .whole n → n < 2 ^ 63 := by
  cases hv : f.encode s with
  | whole n =>
    have hnonneg := nonneg_of_encode hf hv
    rw [Toml.scalarText?]
    constructor
    · rintro hsome k ⟨⟩
      by_contra hlarge
      rw [if_neg (fun h => hlarge h.2)] at hsome
      cases hsome
    · intro h
      rw [if_pos ⟨by omega, h n rfl⟩]
      rfl
  | text => exact ⟨fun _ n h => (by cases h), fun _ => rfl⟩
  | real => exact ⟨fun _ n h => (by cases h), fun _ => rfl⟩
  | flag => exact ⟨fun _ n h => (by cases h), fun _ => rfl⟩
  | moment => exact ⟨fun _ n h => (by cases h), fun _ => rfl⟩

theorem isSome_render?_iff_holds (s : Settings) : (Toml.render? s.encode).isSome ↔ s.Holds := by
  rw [Toml.isSome_render?_iff, encode, List.forall_mem_map]
  exact forall₂_congr fun f hf => isSome_scalarText?_iff hf

theorem reload?_eq_decode (h : s.Holds) : s.reload? = decode s.document := by
  obtain ⟨text, htext⟩ := Option.isSome_iff_exists.1 ((isSome_render?_iff_holds s).2 h)
  rw [reload?, htext, Option.bind_some, Toml.parse?_of_render? (flat_encode s) htext]
  rfl

theorem holds_of_reload? (h : s.reload? = some t) : s.Holds := by
  obtain ⟨text, htext, -⟩ := Option.bind_eq_some_iff.1 h
  exact (isSome_render?_iff_holds s).1 (Option.isSome_iff_exists.2 ⟨text, htext⟩)

theorem encode_whole (s : Settings) : s.whole.encode = s.encode := by
  simp [encode, fields, wordField, secondsField, countField, whole]

theorem reload?_eq_whole :
    (∀ s : Settings, s.Fits →
      decode s.document = some s.whole ∧ s.whole.encode = s.encode ∧ s.whole.whole = s.whole ∧
        ((Toml.render? s.encode).isSome ↔ s.Holds) ∧
        (s.Holds → s.reload? = some s.whole ∧ s.whole.reload? = some s.whole)) ∧
      ∀ v s, decode v = some s →
        s.Fits ∧ s.whole = s ∧ decode s.document = some s ∧ (s.Holds → s.reload? = some s) ∧
          ∀ t, decode s.document = some t ∨ s.reload? = some t → t.validate = s.validate := by
  have hreload {s : Settings} (hfits : s.Fits) (hholds : s.Holds) : s.reload? = some s.whole := by
    rw [reload?_eq_decode hholds, decode_document hfits]
  refine ⟨fun s hfits => ?_, fun v s hread => ?_⟩
  · have hsettled := hfits.settled_whole
    refine ⟨decode_document hfits, encode_whole s, hsettled.whole_eq, isSome_render?_iff_holds s,
      fun hholds => ⟨hreload hfits hholds, ?_⟩⟩
    rw [reload?, encode_whole]
    exact hreload hfits hholds
  · have hsettled := settled_of_decode hread
    have hsame : decode s.document = some s := by
      rw [decode_document hsettled.toFits, hsettled.whole_eq]
    refine ⟨hsettled.toFits, hsettled.whole_eq, hsame, fun hholds => ?_, fun t ht => ?_⟩
    · rw [reload?_eq_decode hholds, hsame]
    · have heq : t = s := by
        rcases ht with ht | ht
        · exact Option.some.inj (ht.symm.trans hsame)
        · rw [reload?_eq_decode (holds_of_reload? ht), hsame] at ht
          exact (Option.some.inj ht).symm
      rw [heq]

theorem reload?_eq_whole_cut :
    (Fits { Settings.default with reportingInterval := ⟨1500000000⟩, quantum := ⟨250999999⟩ } ∧
      Holds { Settings.default with reportingInterval := ⟨1500000000⟩, quantum := ⟨250999999⟩ } ∧
      reload? { Settings.default with reportingInterval := ⟨1500000000⟩, quantum := ⟨250999999⟩ } =
        some { Settings.default with reportingInterval := .ofSeconds 1, quantum := .ofMillis 250 }) ∧
      decode (.table [("sections", .scalar (.whole 3))]) = some { Settings.default with sections := 3 } ∧
      reload? { Settings.default with sections := 3 } = some { Settings.default with sections := 3 } := by
  have hfits : Fits { Settings.default with
      reportingInterval := ⟨1500000000⟩, quantum := ⟨250999999⟩ } := by
    constructor <;> decide
  have hholds : Holds { Settings.default with
      reportingInterval := ⟨1500000000⟩, quantum := ⟨250999999⟩ } := holds_iff.2 (by decide)
  have hread : decode (.table [("sections", .scalar (.whole 3))]) =
      some { Settings.default with sections := 3 } := rfl
  have hholds' : Holds { Settings.default with sections := 3 } := holds_iff.2 (by decide)
  exact ⟨⟨hfits, hholds, ((reload?_eq_whole.1 _ hfits).2.2.2.2 hholds).1⟩, hread,
    (reload?_eq_whole.2 _ _ hread).2.2.2.1 hholds'⟩

end TrafficMonitor.Settings
