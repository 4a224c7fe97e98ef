import TrafficMonitor.Follow.Tailer
import TrafficMonitor.Proofs.Follow.Stream

/-! A follower that waits while no notice is on its way has read all there is. -/

namespace TrafficMonitor.Follow

namespace Follower

variable {f g : Follower}

theorem source_of_parked_step (hs : f.step = some g) (hp : g.phase = .parked) :
    f.source = .bytes [] := by
  cases stepped_of_step hs with
  | atEnd _ hsource => exact hsource
  | started hreading => exact absurd (hreading.symm.trans hp) nofun
  | @handed item =>
    cases item with
    | ok => exact absurd hp nofun
    | error => exact absurd hp nofun
  | broken | line | dropped | left | woken | unwatched => exact absurd hp nofun

theorem source_step (hs : f.step = some g) : g.source = f.source ∨
    ∃ bs bs', f.source = .bytes bs ∧ g.source = .bytes bs' ∧ bs'.length < bs.length := by
  cases stepped_of_step hs with
  | started _ hsource hne => exact .inr ⟨_, [], hsource, rfl, List.length_pos_iff.2 hne⟩
  | line _ hsource =>
    refine .inr ⟨_, _, hsource, rfl, ?_⟩
    rw [List.length_append, List.length_cons]
    omega
  | broken | atEnd | dropped | handed | left | woken | unwatched => exact .inl rfl

end Follower

structure Scene where
  written : List UInt8
  offset : Nat
  handed : List Item
  coming : List Notice
  follower : Follower

namespace Scene

def notices (s : Scene) : List Notice := s.follower.notices ++ s.coming

def opened (f : Follower) (early coming : List Notice) : Scene :=
  ⟨f.unread, 0, [], coming, { f with notices := early }⟩

def advance (s : Scene) (g : Follower) : Scene :=
  { s with
    offset := s.offset + (s.follower.unread.length - g.unread.length)
    handed := s.handed ++ handedOn s.follower g
    follower := g }

def append (s : Scene) (bytes : List UInt8) (raised : List Notice) : Scene :=
  { s with
    written := s.written ++ bytes
    coming := s.coming ++ raised
    follower := s.follower.grow bytes }

end Scene

/-- Every course of events around a follower from the opening of its file on. The watch is older than
that, so there may be notices from before. Each append raises a notice or more, and surplus notices
and failures come at any time. -/
inductive Attended (f₀ : Follower) : Scene → Prop
  | opened (early coming : List Notice) : Attended f₀ (.opened f₀ early coming)
  | step {s : Scene} {g : Follower} (h : Attended f₀ s) (hs : s.follower.step = some g) :
      Attended f₀ (s.advance g)
  | append {s : Scene} (bytes : List UInt8) (n : Notice) (more : List Notice) (h : Attended f₀ s) :
      Attended f₀ (s.append bytes (n :: more))
  | raise {s : Scene} (n : Notice) (h : Attended f₀ s) :
      Attended f₀ { s with coming := s.coming ++ [n] }
  | arrive {s : Scene} {n : Notice} {later : List Notice} (h : Attended f₀ s)
      (hn : s.coming = n :: later) :
      Attended f₀ { s with coming := later, follower := s.follower.notify n }
  | receive {s : Scene} {item : Item} {g : Follower} (h : Attended f₀ s)
      (hr : s.follower.receive = (some item, g)) : Attended f₀ { s with follower := g }
  | cancel {s : Scene} (h : Attended f₀ s) : Attended f₀ { s with follower := s.follower.cancel }
  | breakFile {s : Scene} (cause : String) (h : Attended f₀ s) :
      Attended f₀ { s with follower := s.follower.breakFile cause }

structure Awake (s : Scene) (finished rest : List UInt8) : Prop where
  tracks : Tracks s.written s.handed s.follower finished rest
  offset_add : s.offset + rest.length = s.written.length
  noticed : s.follower.phase = .parked → s.notices = [] → rest = []

namespace Awake

variable {s : Scene} {g : Follower} {finished rest : List UInt8}

theorem opened {t : Tailer} {f₀ : Follower} (ht : t.follow = .ok f₀) (early coming : List Notice) :
    ∃ rest, Awake (.opened f₀ early coming) [] rest := by
  obtain ⟨source, rfl⟩ := Tailer.exists_source_of_follow ht
  obtain ⟨rest, h⟩ := Tracks.start t.path source t.capacity t.cancelled
  have hrest : (Follower.start t.path source t.capacity t.cancelled).unread = rest := h.written_eq
  refine ⟨rest, h.of_eq rfl rfl rfl, ?_, nofun⟩
  simp [Scene.opened, hrest]

theorem step (h : Awake s finished rest) (hs : s.follower.step = some g) :
    ∃ finished rest, Awake (s.advance g) finished rest := by
  rcases Follower.source_step hs with hsource | ⟨bs, bs', hf, hg, hlt⟩
  · have hunread : g.unread = s.follower.unread := by simp only [Follower.unread, hsource]
    refine ⟨finished, rest, h.tracks.step_of_source_eq hs hsource, ?_, ?_⟩
    · simpa [Scene.advance, hunread] using h.offset_add
    · intro hp _
      exact h.tracks.rest_eq [] (Follower.source_of_parked_step hs hp)
  · obtain ⟨finished', rest', ht⟩ := h.tracks.step hs
    obtain rfl := h.tracks.rest_eq bs hf
    obtain rfl := ht.rest_eq bs' hg
    have hadd := h.offset_add
    refine ⟨finished', rest', ht, ?_, ?_⟩
    · simp only [Scene.advance, Follower.unread, hf, hg]
      omega
    · intro hp _
      have hnil := Source.bytes.inj (hf.symm.trans (Follower.source_of_parked_step hs hp))
      rw [hnil] at hlt
      exact absurd hlt (Nat.not_lt_zero _)

theorem append (h : Awake s finished rest) (bytes : List UInt8) (n : Notice) (more : List Notice) :
    Awake (s.append bytes (n :: more)) finished (rest ++ bytes) := by
  refine ⟨h.tracks.grow bytes, ?_, ?_⟩
  · have hadd := h.offset_add
    simp only [Scene.append, List.length_append]
    omega
  · intro _ hn
    simp [Scene.append, Scene.notices] at hn

theorem of_eq (h : Awake s finished rest) {f : Follower} {coming : List Notice}
    (ht : Tracks s.written s.handed f finished rest) (hp : f.phase = s.follower.phase)
    (hn : f.notices ++ coming = [] → s.notices = []) :
    Awake { s with coming := coming, follower := f } finished rest :=
  ⟨ht, h.offset_add, fun hparked hnone => h.noticed (hp.symm.trans hparked) (hn hnone)⟩

theorem read_eq (h : Awake s finished rest) :
    s.written.take s.offset = finished ++ s.follower.buffer := by
  have hwritten := h.tracks.written_eq
  have hlength := congrArg List.length hwritten
  have hadd := h.offset_add
  rw [← List.append_assoc] at hwritten
  rw [hwritten]
  apply List.take_left'
  simp only [List.length_append] at hlength ⊢
  omega

theorem tracks_read (h : Awake s finished rest) :
    Tracks (s.written.take s.offset) s.handed { s.follower with source := .bytes [] } finished [] := by
  refine ⟨by rw [h.read_eq, List.append_nil], h.tracks.ended, h.tracks.buffer_open, ?_, h.tracks.agrees⟩
  intro bs hbs
  exact Source.bytes.inj hbs

end Awake

section Course

variable {t : Tailer} {f₀ : Follower} {s : Scene}

theorem Attended.awake (ht : t.follow = .ok f₀) (h : Attended f₀ s) :
    ∃ finished rest, Awake s finished rest := by
  induction h with
  | opened early coming => exact ⟨[], Awake.opened ht early coming⟩
  | step h hs ih =>
    obtain ⟨finished, rest, ha⟩ := ih
    exact ha.step hs
  | append bytes n more h ih =>
    obtain ⟨finished, rest, ha⟩ := ih
    exact ⟨finished, _, ha.append bytes n more⟩
  | raise n h ih =>
    obtain ⟨finished, rest, ha⟩ := ih
    exact ⟨finished, rest, ha.of_eq ha.tracks rfl (by simp)⟩
  | arrive h hn ih =>
    obtain ⟨finished, rest, ha⟩ := ih
    exact ⟨finished, rest, ha.of_eq (ha.tracks.of_eq rfl rfl rfl) rfl (by simp [Follower.notify])⟩
  | receive h hr ih =>
    obtain ⟨finished, rest, ha⟩ := ih
    rw [(Follower.queue_receive hr).2]
    exact ⟨finished, rest, ha.of_eq (ha.tracks.of_eq rfl rfl rfl) rfl id⟩
  | cancel h ih =>
    obtain ⟨finished, rest, ha⟩ := ih
    exact ⟨finished, rest, ha.of_eq (ha.tracks.of_eq rfl rfl rfl) rfl id⟩
  | breakFile cause h ih =>
    obtain ⟨finished, rest, ha⟩ := ih
    exact ⟨finished, rest, ha.of_eq (ha.tracks.breakFile cause) rfl id⟩

/-- A follower that waits while no notice is queued or on its way has read every byte and handed on
every line. What it handed on is at every moment a prefix of the lines read, each of them once and in
order, with at most a failure behind them, however many notices there were. -/
theorem never_sleeps_on_unread (ht : t.follow = .ok f₀) (h : Attended f₀ s) :
    (s.follower.phase = .parked → s.notices = [] →
      s.offset = s.written.length ∧ s.handed = (completeLines s.written).map .ok) ∧
    ∃ lines, lines <+: completeLines (s.written.take s.offset) ∧
      (s.handed = lines.map .ok ∨ ∃ failure, s.handed = lines.map .ok ++ [.error failure]) := by
  obtain ⟨finished, rest, ha⟩ := h.awake ht
  constructor
  · intro hp hn
    obtain rfl := ha.noticed hp hn
    have hagrees := ha.tracks.agrees
    rw [hp] at hagrees
    cases hagrees with
    | parked hlines =>
      refine ⟨ha.offset_add, ?_⟩
      rw [hlines, ha.tracks.written_eq, List.append_nil, ha.tracks.lines_read]
  · exact ha.tracks_read.handed_form

theorem never_sleeps_on_unread_raced :
    let t : Tailer := ⟨"access.log", 1, .file [97, 10], true, false, none, false⟩
    ∃ f₀ s, t.follow = .ok f₀ ∧ Attended f₀ s ∧ s.follower.phase = .parked ∧ s.notices = [] ∧
      s.written = [97, 10, 98] ∧ s.offset = 3 ∧ s.handed = [.ok "a"] := by
  intro t
  obtain ⟨f₀, ht⟩ : ∃ f₀, t.follow = .ok f₀ := ⟨_, rfl⟩
  cases ht
  have h₀ : Attended (.start "access.log" (.bytes [97, 10]) 1 false) _ := .opened [.change] []
  have h₁ := ((h₀.step rfl).step rfl).step rfl
  have h₂ := (((h₁.append [98] .change []).step rfl).step rfl).step rfl
  have h₃ := (((h₂.arrive rfl).step rfl).step rfl)
  have hl : completeLines [97, 10, 98] = ["a"] := by decide
  obtain ⟨hoffset, hhanded⟩ := (never_sleeps_on_unread (t := t) rfl h₃).1 rfl rfl
  exact ⟨_, _, rfl, h₃, rfl, rfl, rfl, hoffset, hhanded.trans (congrArg (List.map Except.ok) hl)⟩

end Course

end TrafficMonitor.Follow
