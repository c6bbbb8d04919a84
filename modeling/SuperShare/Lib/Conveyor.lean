import SuperShare.Lib.Run

/-!
# Stages that keep the order

What has entered a stage, in order, is what has left it and then what is inside. Stages of this
kind put one behind the other are one such stage, and what a stage is said to carry may be
translated or selected. A part of a system is such a stage along a run if it is one at each step.
-/

namespace Conveyor

variable {α β : Type}

/-- What has entered, in order, is what has left and then what is inside. -/
def Conserved (entered inside left : List α) : Prop := left ++ inside = entered

variable {entered inside left : List α}

/-- Something enters behind everything else. -/
theorem Conserved.enter (h : Conserved entered inside left) (new : List α) :
    Conserved (entered ++ new) (inside ++ new) left := by
  rw [Conserved, ← h, List.append_assoc]

/-- The first inside leaves. -/
theorem Conserved.leave {a : α} (h : Conserved entered (a :: inside) left) :
    Conserved entered inside (left ++ [a]) := by
  rw [Conserved, ← h, List.append_assoc, List.singleton_append]

/-- What leaves a stage enters the next. -/
theorem Conserved.trans {inside' left' : List α} (h : Conserved entered inside left)
    (h' : Conserved left inside' left') : Conserved entered (inside' ++ inside) left' := by
  rw [Conserved, ← h, ← h', List.append_assoc]

/-- A stage carries what can be read off what it carries. -/
theorem Conserved.map (h : Conserved entered inside left) (f : α → β) :
    Conserved (entered.map f) (inside.map f) (left.map f) := by
  rw [Conserved, ← h, List.map_append]

/-- A stage carries a part of what it carries. -/
theorem Conserved.filter (h : Conserved entered inside left) (p : α → Bool) :
    Conserved (entered.filter p) (inside.filter p) (left.filter p) := by
  rw [Conserved, ← h, List.filter_append]

/-- What has left is the beginning of what has entered. -/
theorem Conserved.isPrefix (h : Conserved entered inside left) : left <+: entered :=
  ⟨inside, h⟩

/-- All has left an empty stage. -/
theorem Conserved.drained (h : Conserved entered inside left) (hinside : inside = []) :
    left = entered := by
  rw [← h, hinside, List.append_nil]

section Runs

variable {σ ε : Type} {step : σ → ε → σ} {ok : σ → ε → Prop}

/-- What the steps of a run contribute, one after the other. -/
def collect (step : σ → ε → σ) (output : σ → ε → List α) : σ → List ε → List α
  | _, [] => []
  | s, event :: events => output s event ++ collect step output (step s event) events

/-- Where each step that meets a condition adds what enters and takes away what leaves, in the
states of an invariant, what was inside and has entered in a run has left or is inside. -/
theorem conserved_collect (inv : σ → Prop) (held : σ → List α) {enters leaves : σ → ε → List α}
    (hkeep : ∀ s event, inv s → inv (step s event))
    (hstep : ∀ s event, ok s event → inv s →
      held s ++ enters s event = leaves s event ++ held (step s event))
    {s : σ} (hs : inv s) {events : List ε} (h : Run.Along step ok s events) :
    Conserved (held s ++ collect step enters s events) (held (events.foldl step s))
      (collect step leaves s events) := by
  induction events generalizing s with
  | nil => simp [Conserved, collect]
  | cons event events ih =>
    have hrest := ih (hkeep s event hs) h.2
    rw [Conserved] at hrest ⊢
    rw [collect, collect, List.append_assoc, List.foldl_cons, hrest, ← List.append_assoc,
      ← List.append_assoc, hstep s event h.1 hs]

end Runs

end Conveyor
