import Mathlib.Algebra.Group.Nat.Defs
import SuperShare.Session.Connections

/-!
# The backoff

How long the client waits before it connects again: in the loop of a connection task, which ends
only with a failure of its first attempt, and in `connect_with_retry`, which has no such case. The
seconds are those of the source's durations.
-/

namespace SuperShare

/-- What the loop of a connection task sees. -/
inductive LoopEvent where
  | succeeded | failed | timedOut
  /-- The control channel of the connection closes. -/
  | lost
  /-- The sleep before the next attempt is over. -/
  | awake
  deriving DecidableEq

/-- A result of an attempt that is not a connection. -/
def LoopEvent.isFailure : LoopEvent → Bool
  | failed | timedOut => true
  | succeeded | lost | awake => false

/-- A result of an attempt that is a connection. -/
def LoopEvent.isSuccess : LoopEvent → Bool
  | succeeded => true
  | failed | timedOut | lost | awake => false

namespace ConnTask

/-- The event can be seen in the phase of the task. -/
def Possible (task : ConnTask) : LoopEvent → Prop
  | .succeeded | .failed | .timedOut => task.phase = .attempting
  | .lost => task.phase = .connected
  | .awake => task.phase = .sleeping

instance (task : ConnTask) (event : LoopEvent) : Decidable (task.Possible event) :=
  match event with
  | .succeeded | .failed | .timedOut | .lost | .awake => inferInstanceAs (Decidable (_ = _))

/-- The task after an event of its loop, and the seconds that it then sleeps, if it does. -/
def react (task : ConnTask) : LoopEvent → ConnTask × Option ℕ
  | .succeeded => ({ task with phase := .connected, firstAttempt := false, backoff := 1 }, none)
  | .failed | .timedOut =>
      if task.firstAttempt then ({ task with phase := .ended }, none)
      else (task.retryLater, some task.backoff)
  | .lost => (task.retryLater, some task.backoff)
  | .awake => ({ task with phase := .attempting }, none)

end ConnTask

/-- The failures since the last success, in a history with the newest event first. -/
def failuresSince (history : List LoopEvent) : ℕ :=
  Run.sinceReset LoopEvent.isSuccess LoopEvent.isFailure history

/-- The seconds before the attempt that follows `k` failures in a row. -/
def backoffDelay (k : ℕ) : ℕ := min (2 ^ k) maxBackoff

/-- Doubling a delay, up to the maximum, gives the next. -/
theorem backoffDelay_succ (k : ℕ) : min (backoffDelay k * 2) maxBackoff = backoffDelay (k + 1) := by
  simp only [backoffDelay, maxBackoff, Nat.pow_succ]
  omega

/-- No delay is longer than the maximum. -/
theorem backoffDelay_le (k : ℕ) : backoffDelay k ≤ maxBackoff := Nat.min_le_right _ _

namespace ConnTask

/-- What holds of a task with a history: only at the first attempt is there none, and after it
the backoff is that of the failures since the last success. -/
structure Paced (task : ConnTask) (history : List LoopEvent) : Prop where
  start : history = [] → task.phase = .attempting ∧ task.firstAttempt = true
  first : task.firstAttempt = true → task.phase ≠ .ended → history = []
  backoff : task.firstAttempt = false → task.backoff =
    backoffDelay (if task.phase = .connected then failuresSince history
      else failuresSince history + 1)

/-- A task that goes to sleep doubles its backoff. -/
theorem paced_retryLater {task : ConnTask} {event : LoopEvent} {history : List LoopEvent}
    (hfirst : task.firstAttempt = false)
    (hbackoff : task.backoff = backoffDelay (failuresSince (event :: history))) :
    task.retryLater.Paced (event :: history) where
  start := nofun
  first h := absurd h (by simp [retryLater, hfirst])
  backoff _ := by
    rw [if_neg (by simp [retryLater]), ← backoffDelay_succ, ← hbackoff]
    rfl

/-- Only without a history is an attempt the first. -/
theorem Paced.firstAttempt_iff {task : ConnTask} {history : List LoopEvent}
    (h : task.Paced history) (hphase : task.phase ≠ .ended) :
    task.firstAttempt = true ↔ history = [] :=
  ⟨fun hfirst => h.first hfirst hphase, fun hnil => (h.start hnil).2⟩

/-- What an event of the loop does to a task as it should: if it sleeps, then as long as the
failures up to now say, and it ends only with its first event. -/
structure GoodReaction (task : ConnTask) (history : List LoopEvent) (event : LoopEvent) :
    Prop where
  sleeps : (task.react event).1.phase = .sleeping ↔ (task.react event).2.isSome = true
  delay : ∀ seconds ∈ (task.react event).2,
    seconds = min (2 ^ failuresSince (event :: history)) 30 ∧ seconds ≤ 30
  attempts : (task.react event).1.phase = .attempting → event = .awake
  ends : (task.react event).1.phase = .ended ↔ history = [] ∧ event.isFailure = true

/-- A sleep is good when it takes the delay for the failures up to now. -/
theorem goodReaction_sleep {task : ConnTask} {history : List LoopEvent} {event : LoopEvent}
    (hreact : task.react event = (task.retryLater, some task.backoff))
    (hbackoff : task.backoff = backoffDelay (failuresSince (event :: history)))
    (hends : ¬ (history = [] ∧ event.isFailure = true)) : task.GoodReaction history event where
  sleeps := by simp [hreact, retryLater]
  delay := by
    rw [hreact]
    rintro seconds ⟨⟩
    exact ⟨hbackoff, hbackoff ▸ backoffDelay_le _⟩
  attempts := by simp [hreact, retryLater]
  ends := by simpa [hreact, retryLater] using hends

/-- Failures, with an error or a time-out, are handled alike. -/
theorem react_of_isFailure {event : LoopEvent} (h : event.isFailure = true) (task : ConnTask) :
    task.react event = if task.firstAttempt then ({ task with phase := .ended }, none)
      else (task.retryLater, some task.backoff) := by
  cases event with
  | failed | timedOut => rfl
  | succeeded | lost | awake => cases h

/-- A failure is the result of an attempt. -/
theorem phase_of_isFailure {event : LoopEvent} (h : event.isFailure = true) {task : ConnTask}
    (hpossible : task.Possible event) : task.phase = .attempting := by
  cases event with
  | failed | timedOut => exact hpossible
  | succeeded | lost | awake => cases h

/-- A failure is counted. -/
theorem failuresSince_of_isFailure {event : LoopEvent} (h : event.isFailure = true)
    (history : List LoopEvent) :
    failuresSince (event :: history) = failuresSince history + 1 := by
  cases event with
  | failed | timedOut => rfl
  | succeeded | lost | awake => cases h

/-- Failure step: the first attempt ends the task, any other makes it sleep. -/
theorem Paced.react_failure {task : ConnTask} {history : List LoopEvent} (h : task.Paced history)
    {event : LoopEvent} (hfailure : event.isFailure = true) (hpossible : task.Possible event) :
    (task.react event).1.Paced (event :: history) ∧ task.GoodReaction history event := by
  have hphase : task.phase = .attempting := phase_of_isFailure hfailure hpossible
  have hfirst := h.firstAttempt_iff (by simp [hphase])
  have hreact := react_of_isFailure hfailure task
  cases hattempt : task.firstAttempt with
  | true =>
    rw [hattempt, if_pos rfl] at hreact
    refine ⟨?_, by simp [hreact], by simp [hreact], by simp [hreact], ?_⟩
    · rw [hreact]
      exact ⟨nofun, fun _ hended => absurd rfl hended, by simp⟩
    · simp [hreact, hfailure, hfirst.mp hattempt]
  | false =>
    rw [hattempt, if_neg Bool.false_ne_true] at hreact
    have hbackoff : task.backoff = backoffDelay (failuresSince (event :: history)) := by
      rw [h.backoff hattempt, if_neg (by simp [hphase]), failuresSince_of_isFailure hfailure]
    have hhistory : history ≠ [] := fun hnil => by simp [hfirst.mpr hnil] at hattempt
    refine ⟨?_, goodReaction_sleep hreact hbackoff fun hends => hhistory hends.1⟩
    rw [hreact]
    exact paced_retryLater hattempt hbackoff

/-- Loop step: every event keeps the pace and does to the task as it should. -/
theorem Paced.react {task : ConnTask} {history : List LoopEvent} (h : task.Paced history)
    {event : LoopEvent} (hpossible : task.Possible event) :
    (task.react event).1.Paced (event :: history) ∧ task.GoodReaction history event := by
  cases event with
  | succeeded =>
    refine ⟨⟨nofun, nofun, fun _ => rfl⟩, ?_⟩
    exact ⟨by simp [ConnTask.react], by simp [ConnTask.react], by simp [ConnTask.react],
      by simp [ConnTask.react, LoopEvent.isFailure]⟩
  | failed => exact h.react_failure rfl hpossible
  | timedOut => exact h.react_failure rfl hpossible
  | lost =>
    have hphase : task.phase = .connected := hpossible
    have hattempt : task.firstAttempt = false := by
      by_contra hfirst
      have hnil := h.first (by simpa using hfirst) (by simp [hphase])
      simp [(h.start hnil).1] at hphase
    have hbackoff : task.backoff = backoffDelay (failuresSince (.lost :: history)) := by
      rw [h.backoff hattempt, if_pos hphase]
      rfl
    exact ⟨paced_retryLater hattempt hbackoff,
      goodReaction_sleep rfl hbackoff (by simp [LoopEvent.isFailure])⟩
  | awake =>
    have hphase : task.phase = .sleeping := hpossible
    refine ⟨⟨nofun, fun hfirst _ => ?_, fun hattempt => ?_⟩, ?_⟩
    · have hnil := h.first hfirst (by simp [hphase])
      simp [(h.start hnil).1] at hphase
    · have hbackoff := h.backoff hattempt
      rw [if_neg (by simp [hphase])] at hbackoff
      exact hbackoff
    · exact ⟨by simp [ConnTask.react], by simp [ConnTask.react], by simp [ConnTask.react],
        by simp [ConnTask.react, LoopEvent.isFailure]⟩

/-- Loop run: every event of a run does to the task as it should. -/
theorem Paced.run {task : ConnTask} {history : List LoopEvent} (h : task.Paced history)
    {before after : List LoopEvent} {event : LoopEvent}
    (hpossible : Run.Along (fun task event => (ConnTask.react task event).1) Possible task
      (before ++ event :: after)) :
    (before.foldl (fun task event => (ConnTask.react task event).1) task).GoodReaction
      (before.reverse ++ history) event := by
  induction before generalizing task history with
  | nil => exact (h.react hpossible.1).2
  | cons first before ih =>
    have hrest := ih (h.react hpossible.1).1 hpossible.2
    rwa [List.reverse_cons, List.append_assoc]

end ConnTask

/-! ## The tasks of the handler -/

/-- What an event of the handler is for the loop of a task. -/
def ConnEvent.loopEvent (number : ℕ) : ConnEvent → Option LoopEvent
  | connected n _ => if n = number then some .succeeded else none
  | failed n _ => if n = number then some .failed else none
  | timedOut n => if n = number then some .timedOut else none
  | connectionLost n => if n = number then some .lost else none
  | reconnect n => if n = number then some .awake else none
  | _ => none

namespace ConnectionTasks

variable {s : ConnectionTasks} {number : ℕ} {task : ConnTask}

/-- A task of the handler stays as it is, or reacts to a possible event of its loop. -/
def Moves (number : ℕ) (task : ConnTask) (event : ConnEvent) (tasks : List ConnTask) : Prop :=
  tasks[number]? = some task ∨
    ∃ e, event.loopEvent number = some e ∧ task.Possible e ∧
      tasks[number]? = some (task.react e).1

/-- Setting the task with a number moves it, and no other. -/
theorem moves_set (hget : s.tasks[number]? = some task) {n : ℕ} {phase : ConnPhase}
    {found moved : ConnTask} (hfound : s.task? n phase = some found) {event : ConnEvent}
    (hmoved : n = number → ∃ e, event.loopEvent number = some e ∧ found.Possible e ∧
      moved = (found.react e).1) : Moves number task event (s.tasks.set n moved) := by
  by_cases hn : n = number
  · subst hn
    obtain ⟨hsame, -⟩ := task?_eq_some hfound
    obtain rfl : task = found := Option.some.inj (hget.symm.trans hsame)
    obtain ⟨e, hevent, hpossible, rfl⟩ := hmoved rfl
    refine .inr ⟨e, hevent, hpossible, ?_⟩
    exact List.getElem?_set_self (List.getElem?_eq_some_iff.mp hget).1
  · left
    rwa [List.getElem?_set_ne hn]

/-- A failed attempt is that of the loop. -/
theorem tasks_attemptFailed (s : ConnectionTasks) (n : ℕ) (task : ConnTask) (error : String) :
    (s.attemptFailed n task error).tasks = s.tasks.set n (task.react .failed).1 := by
  simp only [attemptFailed, ConnTask.react]
  split <;> rfl

/-- **Tasks and loops.** Each step of the handler or of a task leaves a connection task alone, or
is the step of its loop. -/
theorem step_moves (hget : s.tasks[number]? = some task) (event : ConnEvent) :
    Moves number task event (s.step event).tasks := by
  have hspawn : ∀ serverAddress, (s.tasks ++ [ConnTask.start serverAddress])[number]? =
      some task := fun serverAddress => by
    rw [List.getElem?_append_left (List.getElem?_eq_some_iff.mp hget).1, hget]
  cases event with
  | connectClient serverAddress trusted =>
    left
    simp only [step, spawn]
    split
    · exact hget
    · split
      · exact hspawn serverAddress
      · exact hget
  | pairAndConnect serverAddress =>
    left
    simp only [step]
    split <;> exact hget
  | paired result =>
    left
    simp only [step, spawn]
    split
    · exact hspawn _
    · exact hget
    · exact hget
  | disconnectClient =>
    left
    simp only [step]
    split <;> exact hget
  | connected n screen =>
    simp only [step]
    split
    · next found hfound =>
      exact moves_set hget hfound fun hn =>
        ⟨.succeeded, if_pos hn, (task?_eq_some hfound).2, rfl⟩
    · exact .inl hget
  | failed n error =>
    simp only [step]
    split
    · next found hfound =>
      rw [tasks_attemptFailed]
      exact moves_set hget hfound fun hn => ⟨.failed, if_pos hn, (task?_eq_some hfound).2, rfl⟩
    · exact .inl hget
  | timedOut n =>
    simp only [step]
    split
    · next found hfound =>
      rw [tasks_attemptFailed]
      exact moves_set hget hfound fun hn =>
        ⟨.timedOut, if_pos hn, (task?_eq_some hfound).2, rfl⟩
    · exact .inl hget
  | injectEnter n => exact .inl hget
  | connectionLost n =>
    simp only [step]
    split
    · next found hfound =>
      exact moves_set hget hfound fun hn => ⟨.lost, if_pos hn, (task?_eq_some hfound).2, rfl⟩
    · exact .inl hget
  | reconnect n =>
    simp only [step]
    split
    · next found hfound =>
      exact moves_set hget hfound fun hn => ⟨.awake, if_pos hn, (task?_eq_some hfound).2, rfl⟩
    · exact .inl hget
  | inject connection => exact .inl hget
  | dataClosed connection => exact .inl hget

end ConnectionTasks

/-! ## `connect_with_retry` -/

end SuperShare
