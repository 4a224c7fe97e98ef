import TrafficMonitor.Proofs.Intake

namespace TrafficMonitor

open Follow

namespace Follow.Follower

def ahead (f : Follower) : Nat :=
  f.unread.length +
    match f.phase with
    | .reading => 3
    | .delivering _ => 2
    | .parked => 1
    | .stopped => 0

theorem exists_step {f : Follower} (hc : f.cancelled = true) (hp : f.isStopped = false) :
    ∃ g, f.step = some g := by
  rw [← Option.isSome_iff_exists]
  cases hphase : f.phase with
  | reading => simp only [step, hphase, Option.isSome_some]
  | delivering item => simp only [step, hphase, hc, if_true, Option.isSome_some]
  | parked => simp only [step, hphase, hc, if_true, Option.isSome_some]
  | stopped => simp [isStopped, hphase] at hp

theorem ahead_queue (f : Follower) (queue : List Item) : { f with queue }.ahead = f.ahead := rfl

theorem ahead_step {f g : Follower} (hc : f.cancelled = true) (hs : f.step = some g) :
    g.ahead < f.ahead ∧ g.queue = f.queue ∧ g.cancelled = true := by
  cases stepped_of_step hs with
  | broken hp hsource => exact ⟨by simp [ahead, hp, unread], rfl, hc⟩
  | atEnd hp hsource => exact ⟨by simp [ahead, hp, unread], rfl, hc⟩
  | started hp hsource hne hn =>
    have hlen := List.length_pos_iff.2 hne
    refine ⟨?_, rfl, hc⟩
    simp only [ahead, hp, unread, hsource, List.length_nil]
    omega
  | line hp hsource hn =>
    refine ⟨?_, rfl, hc⟩
    simp only [ahead, hp, unread, hsource, List.length_append, List.length_cons]
    omega
  | dropped hp hc => exact ⟨by simp [ahead, hp, unread], rfl, hc⟩
  | handed hp hc' hq => simp [hc] at hc'
  | left hp hc => exact ⟨by simp [ahead, hp, unread], rfl, hc⟩
  | woken hp hc' hn => simp [hc] at hc'
  | unwatched hp hc' hn => simp [hc] at hc'

end Follow.Follower

def Stage.ahead : Stage → Nat
  | .taking => 3
  | .closing _ => 2
  | .draining _ => 1
  | .ended _ | .crashed _ => 0

theorem Stage.over_of_ahead {stage : Stage} (h : stage.ahead = 0) :
    (∃ result, stage = .ended result) ∨ ∃ fault, stage = .crashed fault := by
  cases stage with
  | ended result => exact .inl ⟨result, rfl⟩
  | crashed fault => exact .inr ⟨fault, rfl⟩
  | taking | closing | draining => cases h

namespace Pipeline

variable {σ : Type} {h : Handler σ} {p : Pipeline σ}

def ahead (p : Pipeline σ) : Nat :=
  p.follower.ahead + p.follower.queue.length + p.stage.ahead

theorem ahead_handle_le (h : Handler σ) (p : Pipeline σ) (line : String) :
    (p.handle h line).ahead ≤ p.ahead := by
  rw [ahead, ahead, handle_follower]
  rcases p.handle_stage h line with hs | ⟨fault, hs⟩
  · exact Nat.le_of_eq (by rw [hs])
  · rw [hs]
    exact Nat.add_le_add_left (Nat.zero_le _) _

theorem exists_consume (hc : p.follower.cancelled = true)
    (hs : p.follower.isStopped = true ∨ ∀ result, p.stage ≠ .closing result)
    (hend : 0 < p.stage.ahead) :
    ∃ q, p.consume h = some q ∧ q.ahead < p.ahead ∧ q.follower.cancelled = true := by
  cases hstage : p.stage with
  | taking =>
    refine ⟨_, consume_cancelled hstage hc, ?_, hc⟩
    simp only [ahead, hstage, Stage.ahead]
    omega
  | closing result =>
    have hstopped : p.follower.isStopped = true := hs.resolve_right fun hn => hn result hstage
    refine ⟨{ p with stage := .draining result }, ?_, ?_, hc⟩
    · simp [consume_closing hstage, hc, hstopped]
    · simp only [ahead, hstage, Stage.ahead]
      omega
  | draining result =>
    cases hq : p.follower.queue with
    | nil =>
      refine ⟨_, consume_finished hstage hq, ?_, hc⟩
      simp only [ahead, Follower.ahead_queue, hstage, hq, Stage.ahead]
      omega
    | cons item rest =>
      cases item with
      | ok line =>
        refine ⟨_, consume_drained hstage hq, ?_, by rw [handle_follower]; exact hc⟩
        refine Nat.lt_of_le_of_lt (ahead_handle_le h _ line) ?_
        simp only [ahead, Follower.ahead_queue, hstage, hq, Stage.ahead, List.length_cons]
        omega
      | error failure =>
        refine ⟨_, consume_refused hstage hq, ?_, hc⟩
        simp only [ahead, Follower.ahead_queue, hstage, hq, Stage.ahead, List.length_cons]
        omega
  | ended result => simp [hstage, Stage.ahead] at hend
  | crashed fault => simp [hstage, Stage.ahead] at hend

end Pipeline

end TrafficMonitor
