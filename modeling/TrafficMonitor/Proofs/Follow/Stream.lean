import TrafficMonitor.Proofs.Follow.Tracking

/-! The stream of lines depends on the bytes of the file alone: neither on how they arrive nor on
when they are read. -/

namespace TrafficMonitor.Follow

namespace Follower

def inHand (f : Follower) : List Item :=
  match f.phase with
  | .delivering item => [item]
  | _ => []

def load (f : Follower) : Nat :=
  3 * f.unread.length + f.queue.length +
    match f.phase with
    | .delivering _ => 2
    | .parked => 1
    | .reading | .stopped => 0

theorem queue_receive {f g : Follower} {item : Item} (h : f.receive = (some item, g)) :
    f.queue = item :: g.queue ∧ g = { f with queue := g.queue } := by
  cases f with
  | mk path source buffer phase notices queue capacity cancelled =>
    cases queue with
    | nil => cases h
    | cons head tail =>
      cases h
      exact ⟨rfl, rfl⟩

end Follower

structure Journal where
  written : List UInt8
  handed : List Item
  received : List Item

structure Journal.Extends (j k : Journal) : Prop where
  written_eq : k.written = j.written
  handed_prefix : j.handed <+: k.handed

theorem Journal.Extends.trans {j k l : Journal} (hjk : j.Extends k) (hkl : k.Extends l) :
    j.Extends l :=
  ⟨hkl.written_eq.trans hjk.written_eq, hjk.handed_prefix.trans hkl.handed_prefix⟩

/-- Every course of events around a follower, as long as its file can be read and its watch does not
fail. Bytes, notices, deliveries and cancellation come in any order. -/
inductive Tailed (f₀ : Follower) : Journal → Follower → Prop
  | start : Tailed f₀ ⟨f₀.unread, [], []⟩ f₀
  | step {j : Journal} {f g : Follower} (h : Tailed f₀ j f) (hs : f.step = some g) :
      Tailed f₀ { j with handed := j.handed ++ handedOn f g } g
  | grow {j : Journal} {f : Follower} (bytes : List UInt8) (h : Tailed f₀ j f) :
      Tailed f₀ { j with written := j.written ++ bytes } (f.grow bytes)
  | notify {j : Journal} {f : Follower} (h : Tailed f₀ j f) : Tailed f₀ j (f.notify .change)
  | receive {j : Journal} {f g : Follower} {item : Item} (h : Tailed f₀ j f)
      (hr : f.receive = (some item, g)) :
      Tailed f₀ { j with received := j.received ++ [item] } g
  | cancel {j : Journal} {f : Follower} (h : Tailed f₀ j f) : Tailed f₀ j f.cancel

structure Sound (handed : List Item) (f : Follower) : Prop where
  readable : ∃ bs, f.source = .bytes bs
  watched : ∀ n ∈ f.notices, n = .change
  inHand_ok : ∀ item ∈ f.inHand, ∃ line, item = .ok line
  handed_ok : ∀ item ∈ handed, ∃ line, item = .ok line
  stopped : f.phase = .stopped → f.cancelled = true

namespace Sound

variable {handed : List Item} {f g : Follower}

theorem step (h : Sound handed f) (hs : f.step = some g) : Sound (handed ++ handedOn f g) g := by
  obtain ⟨⟨bs, hb⟩, hw, hi, hh, hc⟩ := h
  cases Follower.stepped_of_step hs with
  | broken hp hsource =>
    rw [hb] at hsource
    cases hsource
  | atEnd hp hsource => exact ⟨⟨bs, hb⟩, hw, by simp [Follower.inHand], by simpa [handedOn], by simp⟩
  | started hp hsource _ hn =>
    refine ⟨⟨[], rfl⟩, hw, ?_, by simpa [handedOn], ?_⟩
    · simp [Follower.inHand, hp]
    · simp [hp]
  | line hp hsource hn =>
    exact ⟨⟨_, rfl⟩, hw, by simp [Follower.inHand], by simpa [handedOn], by simp⟩
  | dropped hp hcancel =>
    exact ⟨⟨bs, hb⟩, hw, by simp [Follower.inHand], by simpa [handedOn], fun _ => hcancel⟩
  | @handed item hp hcancel hq =>
    obtain ⟨line, rfl⟩ := hi item (by simp [Follower.inHand, hp])
    refine ⟨⟨bs, hb⟩, hw, by simp [Follower.inHand, Follower.Phase.after], ?_, by
      simp [Follower.Phase.after]⟩
    intro item hm
    rw [List.mem_append] at hm
    rcases hm with hm | hm
    · exact hh item hm
    · exact ⟨line, by simpa [handedOn] using hm⟩
  | left hp hcancel =>
    exact ⟨⟨bs, hb⟩, hw, by simp [Follower.inHand], by simpa [handedOn], fun _ => hcancel⟩
  | woken hp hcancel hn =>
    refine ⟨⟨bs, hb⟩, ?_, by simp [Follower.inHand], by simpa [handedOn], by simp⟩
    intro n hm
    exact hw n (by simp [hn, hm])
  | @unwatched cause later hp hcancel hn =>
    have hf := hw (.failure cause) (by simp [hn])
    cases hf

theorem grow (h : Sound handed f) (bytes : List UInt8) : Sound handed (f.grow bytes) := by
  obtain ⟨⟨bs, hb⟩, hw, hi, hh, hc⟩ := h
  have hg : f.grow bytes = { f with source := .bytes (bs ++ bytes) } := by
    simp only [Follower.grow, hb]
  rw [hg]
  exact ⟨⟨_, rfl⟩, hw, hi, hh, hc⟩

theorem notify (h : Sound handed f) : Sound handed (f.notify .change) := by
  refine ⟨h.readable, ?_, h.inHand_ok, h.handed_ok, h.stopped⟩
  intro n hm
  rcases List.mem_append.mp hm with hm | hm
  · exact h.watched n hm
  · exact List.mem_singleton.mp hm

end Sound

theorem Tailed.capacity_eq {f₀ f : Follower} {j : Journal} (h : Tailed f₀ j f) :
    f.capacity = f₀.capacity := by
  induction h with
  | start => rfl
  | step h hs ih => cases Follower.stepped_of_step hs <;> exact ih
  | @grow j f bytes h ih =>
    rw [← ih, Follower.grow]
    split <;> rfl
  | notify h ih => exact ih
  | receive h hr ih =>
    rw [(Follower.queue_receive hr).2]
    exact ih
  | cancel h ih => exact ih

section Course

variable {path : String} {content : List UInt8} {capacity : Nat} {j : Journal} {f : Follower}

theorem Tailed.invariant (h : Tailed (.start path (.bytes content) capacity false) j f) :
    j.handed = j.received ++ f.queue ∧ Sound j.handed f ∧
      ∃ finished rest, Tracks j.written j.handed f finished rest := by
  induction h with
  | start =>
    refine ⟨rfl, ⟨⟨content, rfl⟩, ?_, ?_, ?_, ?_⟩, [], Tracks.start path (.bytes content) capacity false⟩
    · exact List.forall_mem_nil _
    · exact List.forall_mem_nil _
    · exact List.forall_mem_nil _
    · intro hp
      cases hp
  | step h hs ih =>
    obtain ⟨hq, hsound, finished, rest, ht⟩ := ih
    refine ⟨?_, hsound.step hs, ht.step hs⟩
    rw [Follower.queue_step hs, ← List.append_assoc, ← hq]
  | @grow j f bytes h ih =>
    obtain ⟨hq, hsound, finished, rest, ht⟩ := ih
    refine ⟨?_, hsound.grow bytes, finished, rest ++ bytes, ht.grow bytes⟩
    obtain ⟨bs, hb⟩ := hsound.readable
    simpa only [Follower.grow, hb] using hq
  | notify h ih =>
    obtain ⟨hq, hsound, finished, rest, ht⟩ := ih
    exact ⟨hq, hsound.notify, finished, rest, ht.of_eq rfl rfl rfl⟩
  | receive h hr ih =>
    obtain ⟨hq, hsound, finished, rest, ht⟩ := ih
    obtain ⟨hf, hg⟩ := Follower.queue_receive hr
    refine ⟨by rw [hq, hf, List.append_cons], ?_, finished, rest, ?_⟩
    · rw [hg]
      exact ⟨hsound.readable, hsound.watched, hsound.inHand_ok, hsound.handed_ok, hsound.stopped⟩
    · rw [hg]
      exact ht.of_eq rfl rfl rfl
  | cancel h ih =>
    obtain ⟨hq, hsound, finished, rest, ht⟩ := ih
    refine ⟨hq, ?_, finished, rest, ht.of_eq rfl rfl rfl⟩
    exact ⟨hsound.readable, hsound.watched, hsound.inHand_ok, hsound.handed_ok, fun _ => rfl⟩

theorem Tailed.handed_of_unread_nil
    (h : Tailed (.start path (.bytes content) capacity false) j f) (hc : f.cancelled = false)
    (hu : f.unread = []) : j.handed ++ f.inHand = (completeLines j.written).map .ok := by
  obtain ⟨_, hsound, finished, rest, ht⟩ := h.invariant
  obtain ⟨bs, hb⟩ := hsound.readable
  have hbs : bs = [] := by simpa only [Follower.unread, hb] using hu
  have hr : rest = [] := (ht.rest_eq bs hb).trans hbs
  have hw : completeLines j.written = completeLines finished := by
    rw [ht.written_eq, hr, List.append_nil, ht.lines_read]
  have ha := ht.agrees
  have hi := hsound.inHand_ok
  have hs := hsound.stopped
  rw [hw]
  simp only [Follower.inHand] at hi ⊢
  generalize f.phase = phase at ha hi hs
  cases ha with
  | reading ha | parked ha => simpa using ha
  | line ha => exact ha
  | @failing failure ha =>
    obtain ⟨line, hline⟩ := hi (.error failure) (List.mem_singleton_self _)
    cases hline
  | stopped | failed => simp [hs rfl] at hc

theorem Tailed.lighter_of_reading {f₀ : Follower} (h : Tailed f₀ j f) (hc : f.cancelled = false)
    (hp : f.phase = .reading) {bs : List UInt8} (hb : f.source = .bytes bs) (hne : bs ≠ []) :
    ∃ k g, Tailed f₀ k g ∧ g.cancelled = false ∧ j.Extends k ∧ g.load < f.load := by
  have hstep : f.step = some f.read := by simp only [Follower.step, hp]
  refine ⟨_, f.read, h.step hstep, ?_⟩
  by_cases hm : lineFeed ∈ bs
  · obtain ⟨xs, ys, rfl, hn⟩ := List.eq_append_cons_of_mem hm
    rw [Follower.read_line hb hn]
    refine ⟨hc, ⟨rfl, List.prefix_append _ _⟩, ?_⟩
    simp only [Follower.load, Follower.unread, hb, hp, List.length_append, List.length_cons]
    omega
  · rw [Follower.read_open hb hne hm]
    refine ⟨hc, ⟨rfl, List.prefix_append _ _⟩, ?_⟩
    have hlen := List.length_pos_iff.2 hne
    simp only [Follower.load, Follower.unread, hb, hp, List.length_nil]
    omega

theorem Tailed.lighter_of_delivering {f₀ : Follower} (h : Tailed f₀ j f) (hc : f.cancelled = false)
    (hpos : 0 < f.capacity) {item : Item} (hp : f.phase = .delivering item) :
    ∃ k g, Tailed f₀ k g ∧ g.cancelled = false ∧ j.Extends k ∧ g.load < f.load := by
  by_cases hroom : f.queue.length < f.capacity
  · have hstep : f.step =
        some { f with queue := f.queue ++ [item], phase := Follower.Phase.after item } := by
      simp [Follower.step, hp, hc, hroom]
    refine ⟨_, _, h.step hstep, hc, ⟨rfl, List.prefix_append _ _⟩, ?_⟩
    cases item <;>
      simp [Follower.load, Follower.unread, hp, Follower.Phase.after] <;> omega
  · obtain ⟨head, tail, hq⟩ := List.exists_cons_of_length_pos (l := f.queue) (by omega)
    have hr : f.receive = (some head, { f with queue := tail }) := by
      simp only [Follower.receive, hq, List.head?_cons, List.tail_cons]
    refine ⟨_, _, h.receive hr, hc, ⟨rfl, List.prefix_refl _⟩, ?_⟩
    simp only [Follower.load, Follower.unread, hq, List.length_cons]
    omega

theorem Tailed.lighter_of_parked {f₀ : Follower} (h : Tailed f₀ j f) (hc : f.cancelled = false)
    (hp : f.phase = .parked) (hwatched : ∀ n ∈ f.notices, n = .change) :
    ∃ k g, Tailed f₀ k g ∧ g.cancelled = false ∧ j.Extends k ∧ g.load < f.load := by
  obtain ⟨later, hn⟩ : ∃ later, f.notices ++ [.change] = .change :: later := by
    cases hn : f.notices with
    | nil => exact ⟨[], rfl⟩
    | cons n rest =>
      rw [hwatched n (by simp [hn])]
      exact ⟨rest ++ [.change], rfl⟩
  have hstep : (f.notify .change).step = some { f with notices := later, phase := .reading } := by
    simp [Follower.step, Follower.notify, hp, hc, hn]
  refine ⟨_, _, h.notify.step hstep, hc, ⟨rfl, List.prefix_append _ _⟩, ?_⟩
  simp only [Follower.load, Follower.unread, hp]
  omega

theorem Tailed.lighter (h : Tailed (.start path (.bytes content) capacity false) j f)
    (hc : f.cancelled = false) (hpos : 0 < capacity) (hleft : f.unread ≠ [] ∨ f.inHand ≠ []) :
    ∃ k g, Tailed (.start path (.bytes content) capacity false) k g ∧ g.cancelled = false ∧
      j.Extends k ∧ g.load < f.load := by
  obtain ⟨_, hsound, _⟩ := h.invariant
  obtain ⟨bs, hb⟩ := hsound.readable
  cases hp : f.phase with
  | reading =>
    have hne : bs ≠ [] := by simpa [Follower.unread, Follower.inHand, hb, hp] using hleft
    exact h.lighter_of_reading hc hp hb hne
  | delivering item => exact h.lighter_of_delivering hc (h.capacity_eq ▸ hpos) hp
  | parked => exact h.lighter_of_parked hc hp hsound.watched
  | stopped =>
    rw [hsound.stopped hp] at hc
    cases hc

theorem Tailed.finishes (h : Tailed (.start path (.bytes content) capacity false) j f)
    (hc : f.cancelled = false) (hpos : 0 < capacity) :
    ∃ k g, Tailed (.start path (.bytes content) capacity false) k g ∧ g.cancelled = false ∧
      j.Extends k ∧ g.unread = [] ∧ g.inHand = [] := by
  induction hload : f.load using Nat.strongRecOn generalizing j f with
  | ind load ih =>
    by_cases hleft : f.unread ≠ [] ∨ f.inHand ≠ []
    · obtain ⟨k, g, hk, hg, hjk, hlt⟩ := h.lighter hc hpos hleft
      obtain ⟨k', g', hk', hg', hkk', hend⟩ := ih g.load (hload ▸ hlt) hk hg rfl
      exact ⟨k', g', hk', hg', hjk.trans hkk', hend⟩
    · rw [not_or, Classical.not_not, Classical.not_not] at hleft
      exact ⟨j, f, h, hc, ⟨rfl, List.prefix_refl _⟩, hleft⟩

/-- What has been handed on is at every moment a prefix of the file's complete lines, whatever bytes
are still to come. Once all bytes are read it is all of them, but for one that waits for room. As
long as nobody cancels, all of them can still be handed on. -/
theorem stream_determined_by_bytes
    (h : Tailed (.start path (.bytes content) capacity false) j f) :
    j.handed = j.received ++ f.queue ∧
      (∀ more, j.handed <+: (completeLines (j.written ++ more)).map .ok) ∧
      (f.cancelled = false → f.unread = [] →
        j.handed ++ f.inHand = (completeLines j.written).map .ok) ∧
      (f.cancelled = false → 0 < capacity →
        ∃ k g, Tailed (.start path (.bytes content) capacity false) k g ∧ j.Extends k ∧
          k.handed = (completeLines j.written).map .ok) := by
  obtain ⟨hq, hsound, finished, rest, ht⟩ := h.invariant
  refine ⟨hq, ?_, h.handed_of_unread_nil, ?_⟩
  · intro more
    obtain ⟨lines, hp, hl | ⟨failure, hl⟩⟩ := (ht.grow more).handed_form
    · exact hl ▸ hp.map _
    · obtain ⟨line, hline⟩ := hsound.handed_ok (.error failure) (by simp [hl])
      cases hline
  · intro hc hpos
    obtain ⟨k, g, hk, hg, hjk, hu, hi⟩ := h.finishes hc hpos
    have hall := hk.handed_of_unread_nil hg hu
    rw [hi, List.append_nil, hjk.written_eq] at hall
    exact ⟨k, g, hk, hjk, hall⟩

theorem Tailed.handed_spelled (h : Tailed (.start path (.bytes content) capacity false) j f)
    (hc : f.cancelled = false) (hu : f.unread = []) {returns : Nat} {lines : List String}
    (hw : j.written = spelled returns lines) (hfeed : ∀ line ∈ lines, '\n' ∉ line.toList)
    (hlast : ∀ line ∈ lines, ∀ c ∈ line.toList.getLast?, Text.isLineEnd c = false) :
    j.handed ++ f.inHand = lines.map .ok := by
  rw [h.handed_of_unread_nil hc hu, hw, completeLines_spelled returns hfeed hlast]

end Course

theorem stream_determined_by_bytes_split :
    ∃ j f, Tailed (.start "access.log" (.bytes [104, 97, 108]) 1 false) j f ∧
      f.cancelled = false ∧ f.unread = [] ∧ j.written = [104, 97, 108, 102, 13, 10] ∧
      j.handed = [.ok "half"] := by
  have h₁ : Tailed (.start "access.log" (.bytes [104, 97, 108]) 1 false) _ _ := .start
  have h₂ := (h₁.step rfl).grow [102, 13]
  have h₃ := ((h₂.step rfl).step rfl).grow [10]
  have h₄ := ((h₃.notify.step rfl).step rfl).step rfl
  have hl := (stream_determined_by_bytes h₄).2.2.1 rfl rfl
  have hw : completeLines [104, 97, 108, 102, 13, 10] = ["half"] := by decide
  refine ⟨_, _, h₄, rfl, rfl, rfl, ?_⟩
  rw [← List.append_nil (Journal.handed _)]
  exact hl.trans (congrArg (List.map Except.ok) hw)

end TrafficMonitor.Follow
