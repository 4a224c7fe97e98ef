import Mathlib.Data.List.Induction
import TrafficMonitor.Follow.Tailer

/-! What the calls that open a tailer answer while its file comes and goes: the first takes the watch
with it, whether or not it finds a file. -/

namespace TrafficMonitor.Follow

namespace Tailer

inductive Act where
  | start
  | append (bytes : List UInt8)
  | remove
  | cancel
  | receive
  deriving DecidableEq

end Tailer

open Tailer

def Target.after : Target → Act → Target
  | .file content, .append bytes => .file (content ++ bytes)
  | .missing, .append bytes => .file bytes
  | .directory, .append _ => .directory
  | _, .remove => .missing
  | target, .start | target, .cancel | target, .receive => target

namespace Tailer

def step (t : Tailer) : Act → List (Except (Halt Failure) Unit) × Tailer
  | .start => ([t.start.1], t.start.2)
  | .append bytes => ([], t.append bytes)
  | .remove => ([], t.remove)
  | .cancel => ([], t.cancel)
  | .receive => ([], t.receive.2)

def run (t : Tailer) (acts : List Act) : List (Except (Halt Failure) Unit) × Tailer :=
  acts.foldl (fun acc act => (acc.1 ++ (acc.2.step act).1, (acc.2.step act).2)) ([], t)

theorem run_concat (t : Tailer) (acts : List Act) (act : Act) :
    t.run (acts ++ [act]) =
      ((t.run acts).1 ++ ((t.run acts).2.step act).1, ((t.run acts).2.step act).2) := by
  simp [run]

structure Moves (act : Act) (t s : Tailer) : Prop where
  path_eq : s.path = t.path
  capacity_eq : s.capacity = t.capacity
  target_eq : s.target = t.target.after act
  watched_eq : s.watched = (t.watched && act != .start)
  cancelled_eq : s.cancelled = (t.cancelled || act == .cancel)

theorem moves_start (t : Tailer) : Moves .start t t.start.2 := by
  have htarget : t.target.after .start = t.target := by cases t.target <;> rfl
  rw [start]
  split <;> exact ⟨rfl, rfl, htarget.symm, by simp, by simp⟩

theorem moves_append (t : Tailer) (bytes : List UInt8) : Moves (.append bytes) t (t.append bytes) := by
  rw [append]
  cases h : t.target with
  | missing => exact ⟨rfl, rfl, by rw [h]; rfl, by simp, by simp⟩
  | directory => exact ⟨rfl, rfl, by rw [h]; rfl, by simp, by simp⟩
  | file content => exact ⟨rfl, rfl, by rw [h]; rfl, by simp, by simp⟩

theorem moves_receive (t : Tailer) : Moves .receive t t.receive.2 := by
  have htarget : t.target.after .receive = t.target := by cases t.target <;> rfl
  rw [receive]
  split <;> exact ⟨rfl, rfl, htarget.symm, by simp, by simp⟩

theorem moves_step (t : Tailer) (act : Act) : Moves act t (t.step act).2 := by
  cases act with
  | start => exact moves_start t
  | append bytes => exact moves_append t bytes
  | remove => exact ⟨rfl, rfl, by cases h : t.target <;> rfl, by simp [step, remove], by simp [step, remove]⟩
  | cancel =>
    have htarget : t.target.after .cancel = t.target := by cases t.target <;> rfl
    exact ⟨rfl, rfl, htarget.symm, by simp [step, cancel], by simp [step, cancel]⟩
  | receive => exact moves_receive t

structure Stands (path : String) (capacity : Nat) (target : Target) (acts : List Act) (t : Tailer) :
    Prop where
  path_eq : t.path = path
  capacity_eq : t.capacity = max capacity 1
  target_eq : t.target = acts.foldl Target.after target
  watched_eq : t.watched = !acts.contains .start
  cancelled_eq : t.cancelled = acts.contains .cancel

section Run

variable {path : String} {capacity : Nat} {target : Target} {acts : List Act} {t : Tailer}

theorem stands_create (h : create path capacity target = .ok t) :
    Stands path capacity target [] t := by
  cases target with
  | missing => cases h
  | directory =>
    obtain rfl := Except.ok.inj h
    exact ⟨rfl, rfl, rfl, rfl, rfl⟩
  | file content =>
    obtain rfl := Except.ok.inj h
    exact ⟨rfl, rfl, rfl, rfl, rfl⟩

theorem Stands.step (h : Stands path capacity target acts t) (act : Act) :
    Stands path capacity target (acts ++ [act]) (t.step act).2 := by
  have hmoves := moves_step t act
  refine ⟨hmoves.path_eq.trans h.path_eq, hmoves.capacity_eq.trans h.capacity_eq, ?_, ?_, ?_⟩
  · rw [List.foldl_append, ← h.target_eq]
    exact hmoves.target_eq
  · rw [hmoves.watched_eq, h.watched_eq, List.contains_append, Bool.not_or]
    cases act <;> rfl
  · rw [hmoves.cancelled_eq, h.cancelled_eq, List.contains_append]
    cases act <;> rfl

theorem stands_run (h : create path capacity target = .ok t) (acts : List Act) :
    Stands path capacity target acts (t.run acts).2 := by
  induction acts using List.reverseRecOn with
  | nil => exact stands_create h
  | append_singleton acts act ih =>
    rw [run_concat]
    exact ih.step act

def firstAnswer (path : String) (capacity : Nat) (target : Target) : Except (Halt Failure) Unit :=
  (opening path (max capacity 1) target).map fun _ => ()

theorem opening_of_missing (path : String) (capacity : Nat) :
    opening path capacity .missing = .error (.refused (.openFile path noFile)) := rfl

theorem opening_of_found {source : Source} (hfound : source? target = some source) :
    opening path (max capacity 1) target =
      if capacity ≤ longestQueue then .ok source else .error (.broken .queueTooLong) := by
  have hroom : max capacity 1 ≤ longestQueue ↔ capacity ≤ longestQueue :=
    Nat.max_le.trans (and_iff_left (by decide))
  rw [opening, hfound]
  simp only [hroom]

theorem source?_eq_none_iff : source? target = none ↔ target = .missing := by
  cases target <;> simp [source?]

theorem firstAnswer_ne_alreadyOpened :
    firstAnswer path capacity target ≠ .error (.refused (.alreadyOpened path)) := by
  cases hsource : source? target with
  | none => simp [firstAnswer, source?_eq_none_iff.1 hsource, opening_of_missing, Except.map]
  | some source =>
    rw [firstAnswer, opening_of_found hsource]
    split <;> simp [Except.map]

theorem firstAnswer_eq_missing_iff :
    firstAnswer path capacity target = .error (.refused (.openFile path noFile)) ↔
      target = .missing := by
  rw [← source?_eq_none_iff]
  cases hsource : source? target with
  | none => simp [firstAnswer, source?_eq_none_iff.1 hsource, opening_of_missing, Except.map]
  | some source =>
    rw [firstAnswer, opening_of_found hsource]
    split <;> simp [Except.map]

theorem firstAnswer_eq_ok_iff :
    firstAnswer path capacity target = .ok () ↔ target ≠ .missing ∧ capacity ≤ longestQueue := by
  rw [Ne, ← source?_eq_none_iff]
  cases hsource : source? target with
  | none => simp [firstAnswer, source?_eq_none_iff.1 hsource, opening_of_missing, Except.map]
  | some source =>
    rw [firstAnswer, opening_of_found hsource]
    split
    case isTrue hroom => simpa [Except.map] using hroom
    case isFalse hlong => simpa [Except.map] using hlong

theorem start_of_unwatched (h : t.watched = false) :
    t.start.1 = .error (.refused (.alreadyOpened t.path)) := by
  simp [start, follow, h]

theorem start_of_watched (h : t.watched = true) :
    t.start.1 = (opening t.path t.capacity t.target).map fun _ => () := by
  cases hopening : opening t.path t.capacity t.target <;> simp [start, follow, h, hopening, Except.map]

theorem follower_start_of_watched {source : Source} (h : t.watched = true)
    (hsource : opening t.path t.capacity t.target = .ok source) :
    t.start.2.follower = some (.start t.path source t.capacity t.cancelled) := by
  simp [start, follow, h, hsource, Except.map]

theorem answers_of_unopened (h : .start ∉ acts) : (t.run acts).1 = [] := by
  induction acts using List.reverseRecOn with
  | nil => rfl
  | append_singleton acts act ih =>
    rw [run_concat, ih fun hm => h (List.mem_append_left _ hm)]
    cases act with
    | start => exact absurd (List.mem_append_right acts List.mem_cons_self) h
    | append bytes => rfl
    | remove => rfl
    | cancel => rfl
    | receive => rfl

theorem answers_eq (h : create path capacity target = .ok t) {before : List Act}
    (hfirst : .start ∉ before) (later : List Act) :
    (t.run (before ++ .start :: later)).1 =
      firstAnswer path capacity (before.foldl Target.after target) ::
        List.replicate (later.count .start) (.error (.refused (.alreadyOpened path))) := by
  have hstands := stands_run h before
  induction later using List.reverseRecOn with
  | nil =>
    have hwatched : (t.run before).2.watched = true := by simpa [hfirst] using hstands.watched_eq
    rw [run_concat, answers_of_unopened hfirst, step, start_of_watched hwatched, hstands.path_eq,
      hstands.capacity_eq, hstands.target_eq]
    rfl
  | append_singleton later act ih =>
    have hsplit : before ++ .start :: (later ++ [act]) = (before ++ .start :: later) ++ [act] := by simp
    have hstands := stands_run h (before ++ .start :: later)
    have hunwatched : (t.run (before ++ .start :: later)).2.watched = false := by
      simpa using hstands.watched_eq
    rw [hsplit, run_concat, ih, List.count_append]
    cases act with
    | start =>
      rw [step, start_of_unwatched hunwatched, hstands.path_eq]
      simp [List.replicate_succ']
    | append bytes => simp [step]
    | remove => simp [step]
    | cancel => simp [step]
    | receive => simp [step]

theorem ok_mem_answers_iff (h : create path capacity target = .ok t) {before : List Act}
    (hfirst : .start ∉ before) (later : List Act) :
    .ok () ∈ (t.run (before ++ .start :: later)).1 ↔
      before.foldl Target.after target ≠ .missing ∧ capacity ≤ longestQueue := by
  have hanswer : firstAnswer path capacity (before.foldl Target.after target) = .ok () ↔ _ :=
    firstAnswer_eq_ok_iff
  rw [answers_eq h hfirst, List.mem_cons, ← hanswer]
  constructor
  · rintro (hfound | hlater)
    · exact hfound.symm
    · cases List.eq_of_mem_replicate hlater
  · exact fun hfound => .inl hfound.symm

namespace Stands

variable {s : Tailer}

theorem watched_of_unopened (h : Stands path capacity target acts s) (hnot : .start ∉ acts) :
    s.watched = true := by
  simpa [hnot] using h.watched_eq

theorem start_of_unopened (h : Stands path capacity target acts s) (hnot : .start ∉ acts) :
    s.start.1 = firstAnswer path capacity (acts.foldl Target.after target) := by
  rw [start_of_watched (h.watched_of_unopened hnot), h.path_eq, h.capacity_eq, h.target_eq]
  rfl

theorem start_eq_alreadyOpened_iff (h : Stands path capacity target acts s) :
    s.start.1 = .error (.refused (.alreadyOpened path)) ↔ .start ∈ acts := by
  constructor
  · intro hanswer
    by_contra hnot
    rw [h.start_of_unopened hnot] at hanswer
    exact firstAnswer_ne_alreadyOpened hanswer
  · intro hopened
    have hunwatched : s.watched = false := by simpa [hopened] using h.watched_eq
    rw [start_of_unwatched hunwatched, h.path_eq]

theorem follower_start {content : List UInt8} (h : Stands path capacity target acts s)
    (hnot : .start ∉ acts) (hfile : acts.foldl Target.after target = .file content)
    (hroom : capacity ≤ longestQueue) :
    s.start.2.follower =
      some (.start path (.bytes content) (max capacity 1) (acts.contains .cancel)) := by
  have hfound : source? (acts.foldl Target.after target) = some (.bytes content) :=
    congrArg source? hfile
  have hsource : opening s.path s.capacity s.target = .ok (.bytes content) := by
    rw [h.capacity_eq, h.target_eq, opening_of_found hfound, if_pos hroom]
  rw [follower_start_of_watched (h.watched_of_unopened hnot) hsource, h.path_eq, h.capacity_eq,
    h.cancelled_eq]

end Stands

theorem opened_iff_served_iff (h : create path capacity target = .ok t) (acts : List Act) :
    (.start ∈ acts ↔ .ok () ∈ (t.run acts).1) ↔
      ¬∃ before later, acts = before ++ .start :: later ∧ .start ∉ before ∧
        (before.foldl Target.after target = .missing ∨ longestQueue < capacity) := by
  by_cases hopened : .start ∈ acts
  · obtain ⟨before, later, rfl, hfirst⟩ := List.eq_append_cons_of_mem hopened
    rw [iff_true_left hopened]
    constructor
    · rintro hok ⟨before', later', hacts, hfirst', hfailed⟩
      rw [hacts, ok_mem_answers_iff h hfirst'] at hok
      exact hfailed.elim hok.1 (Nat.not_lt.2 hok.2)
    · intro hnone
      refine (ok_mem_answers_iff h hfirst later).2 ⟨fun hmissing => ?_, Nat.not_lt.1 fun hlong => ?_⟩
      · exact hnone ⟨before, later, rfl, hfirst, .inl hmissing⟩
      · exact hnone ⟨before, later, rfl, hfirst, .inr hlong⟩
  · rw [iff_false_left hopened, answers_of_unopened hopened]
    constructor
    · rintro - ⟨before, later, rfl, -⟩
      exact hopened (by simp)
    · exact fun _ => List.not_mem_nil

/-- A tailer serves one call that opens it. That call finds the file or not, and reads a file from its
first byte; all calls after it are refused, also where it found no file or its queue was too long. Just
then a call is refused although none has succeeded. -/
theorem one_open_served (h : create path capacity target = .ok t) (acts : List Act) :
    let answers := (t.run acts).1
    let s := (t.run acts).2
    let file := acts.foldl Target.after target
    let refused : Except (Halt Failure) Unit := .error (.refused (.alreadyOpened path))
    (.start ∉ acts → answers = [] ∧ s.watched = true ∧
      (s.start.1 = .error (.refused (.openFile path noFile)) ↔ file = .missing) ∧
      (s.start.1 = .ok () ↔ file ≠ .missing ∧ capacity ≤ longestQueue) ∧
      ∀ content, file = .file content → capacity ≤ longestQueue → s.start.2.follower =
        some (.start path (.bytes content) (max capacity 1) (acts.contains .cancel))) ∧
    (s.start.1 = refused ↔ .start ∈ acts) ∧
    (∀ before later, acts = before ++ .start :: later → .start ∉ before →
      answers = firstAnswer path capacity (before.foldl Target.after target) ::
        List.replicate (later.count .start) refused) ∧
    ((s.start.1 = refused ↔ .ok () ∈ answers) ↔
      ¬∃ before later, acts = before ++ .start :: later ∧ .start ∉ before ∧
        (before.foldl Target.after target = .missing ∨ longestQueue < capacity)) := by
  intro answers s file refused
  have hstands : Stands path capacity target acts s := stands_run h acts
  refine ⟨fun hnot => ⟨answers_of_unopened hnot, hstands.watched_of_unopened hnot, ?_, ?_, ?_⟩,
    hstands.start_eq_alreadyOpened_iff, ?_, ?_⟩
  · rw [hstands.start_of_unopened hnot]
    exact firstAnswer_eq_missing_iff
  · rw [hstands.start_of_unopened hnot]
    exact firstAnswer_eq_ok_iff
  · intro content hfile hroom
    exact hstands.follower_start hnot hfile hroom
  · rintro before later rfl hfirst
    exact answers_eq h hfirst later
  · rw [hstands.start_eq_alreadyOpened_iff]
    exact opened_iff_served_iff h acts

theorem one_open_served_missing :
    ∃ t, create "access.log" 4 (.file []) = .ok t ∧
      (t.run [.remove, .start, .append [97, 10], .start]).1 =
        [.error (.refused (.openFile "access.log" noFile)),
          .error (.refused (.alreadyOpened "access.log"))] := by
  refine ⟨_, rfl, ?_⟩
  obtain ⟨_, _, hanswers, _⟩ := @one_open_served "access.log" 4 (.file []) _ rfl
    [.remove, .start, .append [97, 10], .start]
  exact hanswers [.remove] [.append [97, 10], .start] rfl (by decide)

theorem failed_open_refuses_the_next :
    ∃ t, create "access.log" 4 (.file []) = .ok t ∧
      .ok () ∉ (t.run [.remove, .start]).1 ∧
      (t.run [.remove, .start]).2.start.1 = .error (.refused (.alreadyOpened "access.log")) ∧
      .ok () ∉ (t.run [.remove, .start, .append [97, 10]]).1 ∧
      (t.run [.remove, .start, .append [97, 10]]).2.start.1 =
        .error (.refused (.alreadyOpened "access.log")) := by
  have hfailed : .ok () ∉
      [(.error (.refused (.openFile "access.log" noFile)) : Except (Halt Failure) Unit)] := by simp
  exact ⟨_, rfl, hfailed, rfl, hfailed, rfl⟩

end Run

end Tailer

end TrafficMonitor.Follow
