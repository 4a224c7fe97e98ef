import TrafficMonitor.Follow.Follower
import TrafficMonitor.Proofs.Follow.Lines

namespace TrafficMonitor.Follow

namespace Follower

theorem read_unreadable {f : Follower} {cause : String} (hs : f.source = .unreadable cause) :
    f.read = { f with phase := .delivering (.error (.read f.path cause)) } := by
  simp only [read, hs]

theorem read_nil {f : Follower} (hs : f.source = .bytes []) :
    f.read = { f with phase := .parked } := by
  simp [read, hs, takeLine]

theorem read_open {f : Follower} {bs : List UInt8} (hs : f.source = .bytes bs) (hne : bs ≠ [])
    (hn : lineFeed ∉ bs) : f.read = { f with source := .bytes [], buffer := f.buffer ++ bs } := by
  simp [read, hs, takeLine_of_notMem hn, isComplete_of_notMem hn, hne]

theorem read_line {f : Follower} {xs ys : List UInt8} (hs : f.source = .bytes (xs ++ lineFeed :: ys))
    (hn : lineFeed ∉ xs) :
    f.read =
      { f with
        source := .bytes ys
        buffer := []
        phase := .delivering (.ok (lineText (f.buffer ++ (xs ++ [lineFeed])))) } := by
  simp [read, hs, takeLine_line hn, isComplete_line]

inductive Stepped (f : Follower) : Follower → Prop
  | broken {cause : String} (hp : f.phase = .reading) (hs : f.source = .unreadable cause) :
      Stepped f { f with phase := .delivering (.error (.read f.path cause)) }
  | atEnd (hp : f.phase = .reading) (hs : f.source = .bytes []) :
      Stepped f { f with phase := .parked }
  | started {bs : List UInt8} (hp : f.phase = .reading) (hs : f.source = .bytes bs)
      (hne : bs ≠ []) (hn : lineFeed ∉ bs) :
      Stepped f { f with source := .bytes [], buffer := f.buffer ++ bs }
  | line {xs ys : List UInt8} (hp : f.phase = .reading)
      (hs : f.source = .bytes (xs ++ lineFeed :: ys)) (hn : lineFeed ∉ xs) :
      Stepped f
        { f with
          source := .bytes ys
          buffer := []
          phase := .delivering (.ok (lineText (f.buffer ++ (xs ++ [lineFeed])))) }
  | dropped {item : Item} (hp : f.phase = .delivering item) (hc : f.cancelled = true) :
      Stepped f { f with phase := .stopped }
  | handed {item : Item} (hp : f.phase = .delivering item) (hc : f.cancelled = false)
      (hq : f.queue.length < f.capacity) :
      Stepped f { f with queue := f.queue ++ [item], phase := Phase.after item }
  | left (hp : f.phase = .parked) (hc : f.cancelled = true) : Stepped f { f with phase := .stopped }
  | woken {later : List Notice} (hp : f.phase = .parked) (hc : f.cancelled = false)
      (hn : f.notices = .change :: later) :
      Stepped f { f with notices := later, phase := .reading }
  | unwatched {cause : String} {later : List Notice} (hp : f.phase = .parked)
      (hc : f.cancelled = false) (hn : f.notices = .failure cause :: later) :
      Stepped f
        { f with notices := later, phase := .delivering (.error (.watch .waiting f.path cause)) }

theorem stepped_read {f : Follower} (hp : f.phase = .reading) : Stepped f f.read := by
  cases hs : f.source with
  | unreadable cause =>
    rw [read_unreadable hs]
    exact .broken hp hs
  | bytes bs =>
    by_cases hm : lineFeed ∈ bs
    · obtain ⟨xs, ys, rfl, hn⟩ := List.eq_append_cons_of_mem hm
      rw [read_line hs hn]
      exact .line hp hs hn
    · by_cases hne : bs = []
      · subst hne
        rw [read_nil hs]
        exact .atEnd hp hs
      · rw [read_open hs hne hm]
        exact .started hp hs hne hm

theorem stepped_of_step {f g : Follower} (h : f.step = some g) : Stepped f g := by
  rw [step] at h
  split at h
  case h_1 => cases h
  case h_2 hp =>
    cases h
    exact stepped_read hp
  case h_3 item hp =>
    split at h
    case isTrue hc =>
      cases h
      exact .dropped hp hc
    case isFalse hc =>
      split at h
      case isTrue hq =>
        cases h
        exact .handed hp (Bool.eq_false_iff.mpr hc) hq
      case isFalse => cases h
  case h_4 hp =>
    split at h
    case isTrue hc =>
      cases h
      exact .left hp hc
    case isFalse hc =>
      have hc' := Bool.eq_false_iff.mpr hc
      split at h
      case h_1 => cases h
      case h_2 later hn =>
        cases h
        exact .woken hp hc' hn
      case h_3 cause later hn =>
        cases h
        exact .unwatched hp hc' hn

end Follower

def handedOn (f g : Follower) : List Item := g.queue.drop f.queue.length

theorem Follower.queue_step {f g : Follower} (h : f.step = some g) :
    g.queue = f.queue ++ handedOn f g := by
  cases stepped_of_step h <;> simp [handedOn]

inductive Agrees (lines : List String) (handed : List Item) : Phase → Prop
  | reading (h : handed = lines.map .ok) : Agrees lines handed .reading
  | parked (h : handed = lines.map .ok) : Agrees lines handed .parked
  | line {line : String} (h : handed ++ [.ok line] = lines.map .ok) :
      Agrees lines handed (.delivering (.ok line))
  | failing {failure : Failure} (h : handed = lines.map .ok) :
      Agrees lines handed (.delivering (.error failure))
  | stopped (h : handed <+: lines.map .ok) : Agrees lines handed .stopped
  | failed {failure : Failure} (h : handed = lines.map .ok ++ [.error failure]) :
      Agrees lines handed .stopped

theorem Agrees.step {lines : List String} {handed : List Item} {f g : Follower}
    (ha : Agrees lines handed f.phase) (hs : f.step = some g) (hsource : g.source = f.source) :
    g.buffer = f.buffer ∧ Agrees lines (handed ++ handedOn f g) g.phase := by
  cases Follower.stepped_of_step hs with
  | broken hp =>
    rw [hp] at ha
    cases ha with
    | reading ha => exact ⟨rfl, by simpa [handedOn] using Agrees.failing ha⟩
  | atEnd hp =>
    rw [hp] at ha
    cases ha with
    | reading ha => exact ⟨rfl, by simpa [handedOn] using Agrees.parked ha⟩
  | started hp hbytes hne =>
    exact absurd (Source.bytes.inj (hsource.trans hbytes)).symm hne
  | line hp hbytes =>
    have hlength := congrArg List.length (Source.bytes.inj (hsource.trans hbytes))
    rw [List.length_append, List.length_cons] at hlength
    omega
  | dropped hp =>
    rw [hp] at ha
    refine ⟨rfl, .stopped ?_⟩
    cases ha with
    | line ha => exact ⟨_, by simpa [handedOn] using ha⟩
    | failing ha => simp [handedOn, ha]
  | handed hp =>
    rw [hp] at ha
    cases ha with
    | line ha => exact ⟨rfl, by simpa [handedOn, Follower.Phase.after] using Agrees.reading ha⟩
    | failing ha =>
      exact ⟨rfl, by
        simpa [handedOn, Follower.Phase.after] using Agrees.failed (congrArg (· ++ _) ha)⟩
  | left hp =>
    rw [hp] at ha
    cases ha with
    | parked ha => exact ⟨rfl, by simpa [handedOn] using Agrees.stopped (ha ▸ List.prefix_refl _)⟩
  | woken hp =>
    rw [hp] at ha
    cases ha with
    | parked ha => exact ⟨rfl, by simpa [handedOn] using Agrees.reading ha⟩
  | unwatched hp =>
    rw [hp] at ha
    cases ha with
    | parked ha => exact ⟨rfl, by simpa [handedOn] using Agrees.failing ha⟩

structure Tracks (written : List UInt8) (handed : List Item) (f : Follower)
    (finished rest : List UInt8) : Prop where
  written_eq : written = finished ++ (f.buffer ++ rest)
  ended : Ended finished
  buffer_open : lineFeed ∉ f.buffer
  rest_eq : ∀ bs, f.source = .bytes bs → rest = bs
  agrees : Agrees (completeLines finished) handed f.phase

namespace Tracks

variable {written : List UInt8} {handed : List Item} {f g : Follower} {finished rest : List UInt8}

theorem start (path : String) (source : Source) (capacity : Nat) (cancelled : Bool) :
    ∃ rest, Tracks (Follower.start path source capacity cancelled).unread []
      (.start path source capacity cancelled) [] rest := by
  refine ⟨(Follower.start path source capacity cancelled).unread, rfl, .inl rfl, ?_, ?_, .reading rfl⟩
  · exact List.not_mem_nil
  · intro bs hs
    simp [Follower.unread, hs]

theorem step_of_source_eq (h : Tracks written handed f finished rest) (hs : f.step = some g)
    (hsource : g.source = f.source) : Tracks written (handed ++ handedOn f g) g finished rest := by
  obtain ⟨hbuffer, ha⟩ := h.agrees.step hs hsource
  refine ⟨by rw [hbuffer, h.written_eq], h.ended, by rw [hbuffer]; exact h.buffer_open, ?_, ha⟩
  rw [hsource]
  exact h.rest_eq

theorem step (h : Tracks written handed f finished rest) (hs : f.step = some g) :
    ∃ finished rest, Tracks written (handed ++ handedOn f g) g finished rest := by
  cases Follower.stepped_of_step hs with
  | broken | atEnd | dropped | handed | left | woken | unwatched =>
    exact ⟨finished, rest, h.step_of_source_eq hs rfl⟩
  | @started bs hp hsource _ hn =>
    obtain ⟨hw, he, hb, hr, ha⟩ := h
    obtain rfl := hr bs hsource
    refine ⟨finished, [], by simpa using hw, he, by simp [hb, hn], ?_, ?_⟩
    · intro bs hbs
      exact Source.bytes.inj hbs
    · simpa [handedOn] using ha
  | @line xs ys hp hsource hn =>
    obtain ⟨hw, he, hb, hr, ha⟩ := h
    obtain rfl := hr _ hsource
    rw [hp] at ha
    cases ha with
    | reading ha =>
      have hx : lineFeed ∉ f.buffer ++ xs := by simp [hb, hn]
      have hl : completeLines (f.buffer ++ (xs ++ [lineFeed])) =
          [lineText (f.buffer ++ (xs ++ [lineFeed]))] := by
        simpa using completeLines_line hx
      refine ⟨finished ++ (f.buffer ++ (xs ++ [lineFeed])), ys, by simpa using hw,
        .inr ⟨finished ++ (f.buffer ++ xs), by simp⟩, List.not_mem_nil, ?_, ?_⟩
      · intro bs hbs
        exact Source.bytes.inj hbs
      · apply Agrees.line
        rw [completeLines_append he, hl, List.map_append, ← ha]
        simp [handedOn]

theorem grow (h : Tracks written handed f finished rest) (bytes : List UInt8) :
    Tracks (written ++ bytes) handed (f.grow bytes) finished (rest ++ bytes) := by
  obtain ⟨hw, he, hb, hr, ha⟩ := h
  cases hs : f.source with
  | unreadable cause =>
    have hg : f.grow bytes = f := by simp only [Follower.grow, hs]
    rw [hg]
    refine ⟨by simp [hw], he, hb, ?_, ha⟩
    intro bs hbs
    rw [hs] at hbs
    cases hbs
  | bytes bs =>
    obtain rfl := hr bs hs
    have hg : f.grow bytes = { f with source := .bytes (rest ++ bytes) } := by
      simp only [Follower.grow, hs]
    rw [hg]
    refine ⟨by simp [hw], he, hb, ?_, ha⟩
    intro bs hbs
    exact Source.bytes.inj hbs

theorem breakFile (h : Tracks written handed f finished rest) (cause : String) :
    Tracks written handed (f.breakFile cause) finished rest := by
  refine ⟨h.written_eq, h.ended, h.buffer_open, ?_, h.agrees⟩
  intro bs hbs
  cases hbs

theorem of_eq (h : Tracks written handed f finished rest) (hs : g.source = f.source)
    (hb : g.buffer = f.buffer) (hp : g.phase = f.phase) : Tracks written handed g finished rest := by
  refine ⟨by rw [hb, h.written_eq], h.ended, by rw [hb]; exact h.buffer_open, ?_, ?_⟩
  · rw [hs]
    exact h.rest_eq
  · rw [hp]
    exact h.agrees

theorem lines_read (h : Tracks written handed f finished rest) :
    completeLines (finished ++ f.buffer) = completeLines finished := by
  rw [completeLines_append h.ended, completeLines_of_notMem h.buffer_open, List.append_nil]

theorem lines_prefix (h : Tracks written handed f finished rest) :
    completeLines finished <+: completeLines written := by
  rw [h.written_eq, completeLines_append h.ended]
  exact List.prefix_append _ _

theorem handed_form (h : Tracks written handed f finished rest) :
    ∃ lines, lines <+: completeLines written ∧
      (handed = lines.map .ok ∨ ∃ failure, handed = lines.map .ok ++ [.error failure]) := by
  have hl := h.lines_prefix
  have ha := h.agrees
  generalize f.phase = phase at ha
  cases ha with
  | reading ha | parked ha | failing ha => exact ⟨_, hl, .inl ha⟩
  | failed ha => exact ⟨_, hl, .inr ⟨_, ha⟩⟩
  | stopped ha =>
    obtain ⟨lines, hp, hm⟩ := List.prefix_map_iff.mp ha
    exact ⟨lines, hp.trans hl, .inl hm⟩
  | line ha =>
    obtain ⟨lines, hp, hm⟩ := List.prefix_map_iff.mp ⟨_, ha⟩
    exact ⟨lines, hp.trans hl, .inl hm⟩

theorem nothing_behind_failure (h : Tracks written handed f finished rest)
    {before after : List Item} {failure : Failure}
    (he : handed = before ++ .error failure :: after) : after = [] := by
  have hlines : ∀ (lines : List String) (xs ys : List Item),
      lines.map .ok ≠ xs ++ .error failure :: ys := by
    intro lines xs ys hl
    have hm : .error failure ∈ lines.map (.ok : String → Item) := by simp [hl]
    obtain ⟨line, _, hline⟩ := List.mem_map.mp hm
    cases hline
  obtain ⟨lines, _, hl | ⟨last, hl⟩⟩ := h.handed_form
  · exact (hlines lines before after (hl.symm.trans he)).elim
  · rcases List.eq_nil_or_concat after with ha | ⟨init, item, rfl⟩
    · exact ha
    · have hc : lines.map .ok ++ [.error last] = (before ++ .error failure :: init) ++ [item] := by
        rw [← hl, he]
        simp
      exact (hlines lines before init (List.append_inj_left' hc rfl)).elim

end Tracks

end TrafficMonitor.Follow
