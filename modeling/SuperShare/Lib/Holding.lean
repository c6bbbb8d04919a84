import Mathlib.Data.Set.Defs
import Mathlib.Logic.Function.Basic

/-!
# Tasks that hold each other

A task that waits for messages ends once nobody who could send it one still runs. `turn` gives
a task the chance to end. Tasks each of which is held by another of them run on, in whatever order
the tasks have their turns.
-/

namespace Holding

variable {τ : Type} [DecidableEq τ] {holders : τ → List τ}

/-- A task ends in its turn if none of its holders runs. -/
def turn (holders : τ → List τ) (running : τ → Bool) (task : τ) : τ → Bool :=
  if (holders task).any running then running else Function.update running task false

/-- Each of the tasks has a holder among them. -/
def Supported (holders : τ → List τ) (kept : Set τ) : Prop :=
  ∀ task ∈ kept, ∃ holder ∈ holders task, holder ∈ kept

/-- A turn does not end a task that has a running holder. -/
theorem Supported.turn {kept : Set τ} (h : Supported holders kept) {running : τ → Bool}
    (hrunning : ∀ task ∈ kept, running task = true) (other : τ) :
    ∀ task ∈ kept, turn holders running other task = true := by
  intro task htask
  unfold Holding.turn
  split
  · exact hrunning task htask
  · rename_i hnone
    have hne : task ≠ other := by
      rintro rfl
      obtain ⟨holder, hholder, hkept⟩ := h task htask
      exact hnone (List.any_eq_true.mpr ⟨holder, hholder, hrunning holder hkept⟩)
    rw [Function.update_of_ne hne]
    exact hrunning task htask

/-- Supported tasks run on, whatever turns are taken. -/
theorem Supported.run {kept : Set τ} (h : Supported holders kept) {running : τ → Bool}
    (hrunning : ∀ task ∈ kept, running task = true) (turns : List τ) :
    ∀ task ∈ kept, turns.foldl (Holding.turn holders) running task = true := by
  induction turns generalizing running with
  | nil => exact hrunning
  | cons other turns ih => exact ih (h.turn hrunning other)

/-- A task that has ended does not run after a turn. -/
theorem turn_le {running : τ → Bool} {other task : τ}
    (h : turn holders running other task = true) : running task = true := by
  unfold turn at h
  split at h
  · exact h
  · by_cases hsame : task = other
    · rw [hsame, Function.update_self] at h
      exact absurd h Bool.false_ne_true
    · rwa [Function.update_of_ne hsame] at h

/-- Where fewer tasks run, fewer run after a turn. -/
theorem turn_mono {fewer running : τ → Bool}
    (hfewer : ∀ task, fewer task = true → running task = true) {other task : τ}
    (h : turn holders fewer other task = true) : turn holders running other task = true := by
  unfold turn at h ⊢
  by_cases hheld : (holders other).any fewer = true
  · rw [if_pos hheld] at h
    obtain ⟨holder, hholder, hruns⟩ := List.any_eq_true.mp hheld
    rw [if_pos (List.any_eq_true.mpr ⟨holder, hholder, hfewer holder hruns⟩)]
    exact hfewer task h
  · rw [if_neg hheld] at h
    by_cases hsame : task = other
    · rw [hsame, Function.update_self] at h
      exact absurd h Bool.false_ne_true
    · rw [Function.update_of_ne hsame] at h
      split
      · exact hfewer task h
      · rw [Function.update_of_ne hsame]
        exact hfewer task h

/-- A task runs on, whatever turns are taken. -/
def RunsOn (holders : τ → List τ) (running : τ → Bool) (task : τ) : Prop :=
  ∀ turns : List τ, turns.foldl (turn holders) running task = true

/-- A task that has ended does not run after any turns. -/
theorem foldl_turn_le {running : τ → Bool} (turns : List τ) {task : τ}
    (h : turns.foldl (turn holders) running task = true) : running task = true := by
  induction turns generalizing running with
  | nil => exact h
  | cons other turns ih => exact turn_le (ih h)

/-- Where fewer tasks run, fewer run after the same turns. -/
theorem foldl_turn_mono {fewer running : τ → Bool}
    (hfewer : ∀ task, fewer task = true → running task = true) (turns : List τ) {task : τ}
    (h : turns.foldl (turn holders) fewer task = true) :
    turns.foldl (turn holders) running task = true := by
  induction turns generalizing fewer running with
  | nil => exact hfewer task h
  | cons other turns ih => exact ih (fun _ => turn_mono hfewer) h

/-- Tasks each of which can end can all end in one run. -/
theorem exists_turns_all_ended {running : τ → Bool} {tasks : List τ}
    (h : ∀ task ∈ tasks, ¬ RunsOn holders running task) :
    ∃ turns : List τ, ∀ task ∈ tasks, turns.foldl (turn holders) running task = false := by
  induction tasks with
  | nil => exact ⟨[], by simp⟩
  | cons task tasks ih =>
    obtain ⟨hhead, htail⟩ := List.forall_mem_cons.mp h
    obtain ⟨first, hfirst⟩ := ih htail
    obtain ⟨second, hsecond⟩ := not_forall.mp hhead
    have hle : ∀ other, first.foldl (turn holders) running other = true → running other = true :=
      fun _ => foldl_turn_le first
    refine ⟨first ++ second, List.forall_mem_cons.mpr ⟨?_, fun other hother => ?_⟩⟩
    · rw [List.foldl_append, Bool.eq_false_iff]
      exact fun hruns => hsecond (foldl_turn_mono hle second hruns)
    · rw [List.foldl_append, Bool.eq_false_iff]
      intro hruns
      exact Bool.false_ne_true ((hfirst other hother).symm.trans (foldl_turn_le second hruns))

/-- The tasks that run on hold each other. -/
theorem supported_runsOn (running : τ → Bool) :
    Supported holders {task | RunsOn holders running task} := by
  intro task htask
  by_contra hnone
  have hends : ∀ holder ∈ holders task, ¬ RunsOn holders running holder :=
    fun holder hholder hruns => hnone ⟨holder, hholder, hruns⟩
  obtain ⟨turns, hended⟩ := exists_turns_all_ended hends
  have hany : ¬ ((holders task).any (turns.foldl (turn holders) running) = true) := by
    rw [List.any_eq_true]
    rintro ⟨holder, hholder, hruns⟩
    exact Bool.false_ne_true ((hended holder hholder).symm.trans hruns)
  have hlast := htask (turns ++ [task])
  rw [List.foldl_append, List.foldl_cons, List.foldl_nil, turn, if_neg hany,
    Function.update_self] at hlast
  exact Bool.false_ne_true hlast

/-- A task runs on exactly if it is one of running tasks that hold each other. -/
theorem runsOn_iff {running : τ → Bool} {task : τ} : RunsOn holders running task ↔
    ∃ kept : Set τ, Supported holders kept ∧ (∀ other ∈ kept, running other = true) ∧
      task ∈ kept := by
  constructor
  · exact fun h => ⟨_, supported_runsOn running, fun _ hother => hother [], h⟩
  · rintro ⟨kept, hkept, hrunning, htask⟩ turns
    exact hkept.run hrunning turns task htask

end Holding
