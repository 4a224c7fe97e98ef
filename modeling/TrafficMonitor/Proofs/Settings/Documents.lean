import Mathlib.Data.List.Nodup
import TrafficMonitor.Settings.Codec

namespace TrafficMonitor.Settings

open Document Time Text

structure Fits (s : Settings) : Prop where
  sections : s.sections ≤ Numeral.maxWord
  reportingInterval : s.reportingInterval.wholeSeconds ≤ Numeral.maxWord
  alertWindow : s.alertWindow.wholeSeconds ≤ Numeral.maxWord
  alertCheckQuanta : s.alertCheckQuanta ≤ maxCheckQuanta
  sizeRotationThreshold : s.sizeRotationThreshold ≤ Numeral.maxWord
  sizeHistory : s.sizeHistory ≤ Numeral.maxWord
  maxRecordableSize : s.maxRecordableSize ≤ Numeral.maxWord
  lineBuffer : s.lineBuffer ≤ Numeral.maxWord

def whole (s : Settings) : Settings :=
  { s with
    reportingInterval := .ofSeconds s.reportingInterval.wholeSeconds
    alertWindow := .ofSeconds s.alertWindow.wholeSeconds
    quantum := .ofMillis (min s.quantum.wholeMillis Numeral.maxWord) }

def document (s : Settings) : Value :=
  .table (s.encode.map fun entry => (entry.1, .scalar entry.2))

structure Settled (s : Settings) : Prop extends Fits s where
  reportingInterval_whole : .ofSeconds s.reportingInterval.wholeSeconds = s.reportingInterval
  alertWindow_whole : .ofSeconds s.alertWindow.wholeSeconds = s.alertWindow
  quantum_whole : .ofMillis (min s.quantum.wholeMillis Numeral.maxWord) = s.quantum

@[simp] theorem wholeSeconds_ofSeconds (n : Nat) : (Duration.ofSeconds n).wholeSeconds = n :=
  Nat.mul_div_cancel n (by decide)

@[simp] theorem wholeMillis_ofMillis (n : Nat) : (Duration.ofMillis n).wholeMillis = n :=
  Nat.mul_div_cancel n (by decide)

variable {s t : Settings}

theorem Settled.whole_eq (h : s.Settled) : s.whole = s := by
  rw [whole, h.reportingInterval_whole, h.alertWindow_whole, h.quantum_whole]

theorem Fits.settled_whole (h : s.Fits) : s.whole.Settled where
  sections := h.sections
  reportingInterval := by simpa [whole] using h.reportingInterval
  alertWindow := by simpa [whole] using h.alertWindow
  alertCheckQuanta := h.alertCheckQuanta
  sizeRotationThreshold := h.sizeRotationThreshold
  sizeHistory := h.sizeHistory
  maxRecordableSize := h.maxRecordableSize
  lineBuffer := h.lineBuffer
  reportingInterval_whole := by simp [whole]
  alertWindow_whole := by simp [whole]
  quantum_whole := by simp [whole]

section Writing

theorem natural?_of_le {limit n : Nat} (h : n ≤ limit) :
    natural? limit (.scalar (.whole n)) = some n := by
  have hrange : 0 ≤ (n : Int) ∧ (n : Int) ≤ limit := ⟨Int.natCast_nonneg n, Int.ofNat_le.2 h⟩
  rw [natural?, if_pos hrange, Int.toNat_natCast]

theorem lookup_map {β : Type} {g : Field → β} {fs : List Field} (h : (fs.map Field.name).Nodup)
    {f : Field} (hf : f ∈ fs) : (fs.map fun f => (f.name, g f)).lookup f.name = some (g f) := by
  induction fs with
  | nil => cases hf
  | cons first fs ih =>
    obtain ⟨hout, hrest⟩ := List.nodup_cons.1 h
    rcases List.mem_cons.1 hf with rfl | hf
    · simp
    · have hne : f.name ≠ first.name := fun heq => hout (heq ▸ List.mem_map_of_mem hf)
      rw [List.map_cons, List.lookup_cons, beq_false_of_ne hne]
      exact ih hrest hf

theorem nodup_names : (fields.map Field.name).Nodup := by decide

theorem foldlM_congr {fs : List Field} {read read' : Settings → Field → Option Settings}
    (h : ∀ f ∈ fs, ∀ t, read t f = read' t f) (t : Settings) : fs.foldlM read t = fs.foldlM read' t := by
  induction fs generalizing t with
  | nil => rfl
  | cons f fs ih =>
    rw [List.foldlM_cons, List.foldlM_cons, h f List.mem_cons_self]
    exact congrArg _ (funext fun t => ih (fun f hf => h f (List.mem_cons_of_mem _ hf)) t)

theorem decode_document_eq (s : Settings) :
    decode s.document = fields.foldlM (fun t f => f.decode (.scalar (f.encode s)) t) default := by
  have hentries : s.encode.map (fun entry => (entry.1, Value.scalar entry.2)) =
      fields.map fun f => (f.name, Value.scalar (f.encode s)) := by
    rw [encode, List.map_map]
    rfl
  rw [document, decode, decodeTable, hentries]
  refine foldlM_congr (fun f hf t => ?_) default
  rw [lookup_map nodup_names hf]

theorem decode_document (h : s.Fits) : decode s.document = some s.whole := by
  have hquantum : min s.quantum.wholeMillis Numeral.maxWord ≤ Numeral.maxWord := Nat.min_le_right _ _
  rw [decode_document_eq]
  simp only [fields, wordField, secondsField, countField, text?, real?, natural?_of_le hquantum,
    natural?_of_le h.sections, natural?_of_le h.reportingInterval, natural?_of_le h.alertWindow,
    natural?_of_le h.alertCheckQuanta, natural?_of_le h.sizeRotationThreshold,
    natural?_of_le h.sizeHistory, natural?_of_le h.maxRecordableSize, natural?_of_le h.lineBuffer,
    List.foldlM_cons, List.foldlM_nil, Option.map_some, Option.bind_eq_bind, Option.bind_some]
  rfl

end Writing

section Reading

theorem le_of_natural? {limit n : Nat} {v : Value} (h : natural? limit v = some n) : n ≤ limit := by
  rw [natural?.eq_def] at h
  split at h
  · split at h
    case isTrue hrange =>
      obtain rfl := Option.some.inj h
      omega
    case isFalse => cases h
  · cases h

theorem settled_default : Settings.default.Settled :=
  ⟨by constructor <;> decide, by decide, by decide, by decide⟩

theorem Settled.read {f : Field} (hf : f ∈ fields) (h : t.Settled) {v : Value}
    (hread : f.decode v t = some s) : s.Settled := by
  simp only [fields, List.mem_cons, List.not_mem_nil, or_false] at hf
  rcases hf with rfl | rfl | rfl | rfl | rfl | rfl | rfl | rfl | rfl | rfl | rfl
  all_goals
    obtain ⟨x, hx, rfl⟩ := Option.map_eq_some_iff.1 hread
  · exact { h with }
  · exact { h with sections := le_of_natural? hx }
  · exact { h with
      reportingInterval := by simpa using le_of_natural? hx
      reportingInterval_whole := by simp }
  · exact { h with
      alertWindow := by simpa using le_of_natural? hx
      alertWindow_whole := by simp }
  · exact { h with }
  · exact { h with quantum_whole := by simp [Nat.min_eq_left (le_of_natural? hx)] }
  · exact { h with alertCheckQuanta := le_of_natural? hx }
  · exact { h with sizeRotationThreshold := le_of_natural? hx }
  · exact { h with sizeHistory := le_of_natural? hx }
  · exact { h with maxRecordableSize := le_of_natural? hx }
  · exact { h with lineBuffer := le_of_natural? hx }

theorem foldlM_invariant {P : Settings → Prop} {fs : List Field}
    {read : Settings → Field → Option Settings}
    (hstep : ∀ f ∈ fs, ∀ {t s}, P t → read t f = some s → P s) (ht : P t)
    (hread : fs.foldlM read t = some s) : P s := by
  induction fs generalizing t with
  | nil => exact Option.some.inj hread ▸ ht
  | cons f fs ih =>
    obtain ⟨t', hfirst, hrest⟩ := Option.bind_eq_some_iff.1 hread
    exact ih (fun f hf => hstep f (List.mem_cons_of_mem _ hf))
      (hstep f List.mem_cons_self ht hfirst) hrest

theorem Settled.decodeTable {entries : List (String × Value)} (h : t.Settled)
    (hread : decodeTable entries t = some s) : s.Settled := by
  refine foldlM_invariant (fun f hf t s ht hfield => ?_) h hread
  split at hfield
  · exact Option.some.inj hfield ▸ ht
  · exact ht.read hf hfield

theorem Settled.decodeList {fs : List Field} {values : List Value} (hfs : fs ⊆ fields) (h : t.Settled)
    (hread : decodeList fs values t = some s) : s.Settled := by
  induction fs generalizing values t with
  | nil =>
    cases values with
    | nil => exact Option.some.inj hread ▸ h
    | cons v values => cases hread
  | cons f fs ih =>
    cases values with
    | nil => exact Option.some.inj hread ▸ h
    | cons v values =>
      obtain ⟨hf, hfs⟩ := List.cons_subset.1 hfs
      obtain ⟨t', hfirst, hrest⟩ := Option.bind_eq_some_iff.1 hread
      exact ih hfs (h.read hf hfirst) hrest

theorem settled_of_decode {v : Value} (h : decode v = some s) : s.Settled := by
  cases v with
  | absent => cases h
  | scalar x => cases h
  | list values => exact settled_default.decodeList (List.Subset.refl _) h
  | table entries => exact settled_default.decodeTable h

end Reading

end TrafficMonitor.Settings
