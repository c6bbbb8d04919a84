import Mathlib.Data.List.Basic

/-!
# Runs of a transition function

A run is the left fold of a total step function over its events. `Along` says that a
condition on the event and the state before it holds at each event of a run. It carries
the two forms of argument used for systems whose good behaviour depends on the order of
events: an invariant kept by the steps that meet the condition, and the splitting of a run
at any point of it. Two further parts are about the outputs of a machine that answers each
input, and about counting the events of a history between resets.
-/

namespace Run

variable {σ ε : Type}

/-- The condition `ok` holds at each event of the run from `s`, in the state before it. -/
def Along (step : σ → ε → σ) (ok : σ → ε → Prop) : σ → List ε → Prop
  | _, [] => True
  | s, event :: events => ok s event ∧ Along step ok (step s event) events

/-- A decidable condition can be checked along a run. -/
instance Along.decidable (step : σ → ε → σ) (ok : σ → ε → Prop)
    [hok : ∀ s event, Decidable (ok s event)] :
    ∀ (s : σ) (events : List ε), Decidable (Along step ok s events)
  | _, [] => isTrue trivial
  | s, event :: events =>
      match hok s event, Along.decidable step ok (step s event) events with
      | isTrue h, isTrue hs => isTrue ⟨h, hs⟩
      | isFalse h, _ => isFalse fun hs => h hs.1
      | _, isFalse h => isFalse fun hs => h hs.2

variable {step : σ → ε → σ} {ok : σ → ε → Prop}

/-- An invariant that the allowed steps keep holds at the end of an allowed run. -/
theorem Along.invariant (inv : σ → Prop)
    (hstep : ∀ s event, ok s event → inv s → inv (step s event)) {s : σ} {events : List ε}
    (h : Along step ok s events) (hs : inv s) : inv (events.foldl step s) := by
  induction events generalizing s with
  | nil => exact hs
  | cons event events ih => exact ih h.2 (hstep s event h.1 hs)

/-- An allowed run is one whose two parts are allowed. -/
theorem along_append {s : σ} {first second : List ε} :
    Along step ok s (first ++ second) ↔
      Along step ok s first ∧ Along step ok (first.foldl step s) second := by
  induction first generalizing s with
  | nil => simp [Along]
  | cons event first ih => simp [Along, ih, and_assoc]

/-- A condition on the events alone holds along a run of such events. -/
theorem along_of_forall {events : List ε} (h : ∀ event ∈ events, ∀ s, ok s event) (s : σ) :
    Along step ok s events := by
  induction events generalizing s with
  | nil => trivial
  | cons event events ih =>
    obtain ⟨hfirst, hrest⟩ := List.forall_mem_cons.mp h
    exact ⟨hfirst s, ih hrest _⟩

/-- Two conditions that hold along a run hold together. -/
theorem Along.and {ok' : σ → ε → Prop} {s : σ} {events : List ε} (h : Along step ok s events)
    (h' : Along step ok' s events) :
    Along step (fun s event => ok s event ∧ ok' s event) s events := by
  induction events generalizing s with
  | nil => trivial
  | cons event events ih => exact ⟨⟨h.1, h'.1⟩, ih h.2 h'.2⟩

/-- An event that leads from an invariant to a goal, both of which every step keeps, leads any run
in which it happens to the goal. -/
theorem foldl_of_mem (inv goal : σ → Prop) (hinv : ∀ s event, inv s → inv (step s event))
    (hgoal : ∀ s event, goal s → goal (step s event)) {cause : ε}
    (hcause : ∀ s, inv s → goal (step s cause)) {s : σ} (hs : inv s) {events : List ε}
    (hmem : cause ∈ events) : goal (events.foldl step s) := by
  have hkept (events : List ε) {s : σ} (hs : goal s) : goal (events.foldl step s) := by
    induction events generalizing s with
    | nil => exact hs
    | cons event events ih => exact ih (hgoal s event hs)
  induction events generalizing s with
  | nil => simp at hmem
  | cons event events ih =>
    rcases List.mem_cons.mp hmem with rfl | hrest
    · exact hkept events (hcause s hs)
    · exact ih (hinv s event hs) hrest

/-- What every step that meets a condition has, in a state of an invariant that it keeps, holds
along a run with the condition. -/
theorem Along.imp {good : σ → ε → Prop} (inv : σ → Prop)
    (hstep : ∀ s event, ok s event → inv s → inv (step s event) ∧ good s event) {s : σ}
    {events : List ε} (h : Along step ok s events) (hs : inv s) :
    Along step good s events := by
  induction events generalizing s with
  | nil => trivial
  | cons event events ih =>
    obtain ⟨hnext, hgood⟩ := hstep s event h.1 hs
    exact ⟨hgood, ih h.2 hnext⟩

/-- Two conditions that agree for every step that meets a third, in the states of an invariant that
such steps keep, hold along the same runs with the third. -/
theorem Along.congr {good cond : σ → ε → Prop} (inv : σ → Prop)
    (hstep : ∀ s event, ok s event → inv s →
      inv (step s event) ∧ (good s event ↔ cond s event)) {s : σ} {events : List ε}
    (h : Along step ok s events) (hs : inv s) :
    Along step good s events ↔ Along step cond s events := by
  constructor
  · intro hgood
    refine (h.and hgood).imp inv (fun s event hboth hinv => ?_) hs
    obtain ⟨hkeep, hiff⟩ := hstep s event hboth.1 hinv
    exact ⟨hkeep, hiff.mp hboth.2⟩
  · intro hcond
    refine (h.and hcond).imp inv (fun s event hboth hinv => ?_) hs
    obtain ⟨hkeep, hiff⟩ := hstep s event hboth.1 hinv
    exact ⟨hkeep, hiff.mpr hboth.2⟩

/-- Along a run with a third condition, two conditions that agree in the states of an invariant,
which the steps that meet all of them keep, hold or fail together. -/
theorem Along.iff_along {good cond : σ → ε → Prop} (inv : σ → Prop)
    (hkeep : ∀ s event, ok s event → cond s event → inv s → inv (step s event))
    (hgood : ∀ s event, ok s event → inv s → (good s event ↔ cond s event)) {s : σ}
    {events : List ε} (h : Along step ok s events) (hs : inv s) :
    Along step good s events ↔ Along step cond s events := by
  induction events generalizing s with
  | nil => exact Iff.rfl
  | cons event events ih =>
    rw [Along, Along, hgood s event h.1 hs]
    constructor
    · rintro ⟨hcond, hrest⟩
      exact ⟨hcond, (ih h.2 (hkeep s event h.1 hcond hs)).mp hrest⟩
    · rintro ⟨hcond, hrest⟩
      exact ⟨hcond, (ih h.2 (hkeep s event h.1 hcond hs)).mpr hrest⟩

/-- Two conditions that agree in the states of an invariant, which the steps that meet them keep,
hold along the same runs. -/
theorem along_iff {good : σ → ε → Prop} (inv : σ → Prop)
    (hkeep : ∀ s event, ok s event → inv s → inv (step s event))
    (hgood : ∀ s event, inv s → (good s event ↔ ok s event)) {s : σ} (hs : inv s)
    (events : List ε) : Along step good s events ↔ Along step ok s events := by
  induction events generalizing s with
  | nil => exact Iff.rfl
  | cons event events ih =>
    rw [Along, Along, hgood s event hs]
    constructor
    · rintro ⟨hok, hrest⟩
      exact ⟨hok, (ih (hkeep s event hok hs)).mp hrest⟩
    · rintro ⟨hok, hrest⟩
      exact ⟨hok, (ih (hkeep s event hok hs)).mpr hrest⟩

/-- A property holds in every state reached exactly when each step of the run establishes it. -/
theorem forall_reached_iff {good : σ → Prop} {s : σ} (hs : good s) (events : List ε) :
    (∀ first, first <+: events → good (first.foldl step s)) ↔
      Along step (fun s event => good (step s event)) s events := by
  induction events generalizing s with
  | nil =>
    constructor
    · intro _
      trivial
    · intro _ first hfirst
      rwa [List.prefix_nil.mp hfirst]
  | cons event events ih =>
    constructor
    · intro h
      have hnext : good (step s event) := h [event] (by simp)
      refine ⟨hnext, (ih hnext).mp fun first hfirst => ?_⟩
      exact h (event :: first) (List.cons_prefix_cons.mpr ⟨rfl, hfirst⟩)
    · rintro ⟨hnext, hrest⟩ first hfirst
      cases first with
      | nil => exact hs
      | cons head first =>
        obtain ⟨rfl, htail⟩ := List.cons_prefix_cons.mp hfirst
        exact (ih hnext).mpr hrest first htail

/-- Where, in the states of an invariant, the steps that establish a property are those that meet
a condition, and these steps keep the invariant, every state reached has the property exactly
when the condition holds along the run. -/
theorem forall_reached_iff_along {good : σ → Prop} (inv : σ → Prop)
    (hkeep : ∀ s event, ok s event → inv s → inv (step s event))
    (hgood : ∀ s event, inv s → (good (step s event) ↔ ok s event)) {s : σ} (hs : inv s)
    (hstart : good s) (events : List ε) :
    (∀ first, first <+: events → good (first.foldl step s)) ↔ Along step ok s events :=
  (forall_reached_iff hstart events).trans (along_iff inv hkeep hgood hs events)

/-- When a step that is not as it should be loses what the final state should have for good, a
run ends with it if and only if all its steps are as they should be. -/
theorem foldl_iff_along (good inv lost : σ → Prop)
    (hkeep : ∀ s event, ok s event → inv s → inv (step s event))
    (hlose : ∀ s event, ¬ ok s event → inv s → lost (step s event))
    (hlost : ∀ s event, lost s → lost (step s event)) (hgood : ∀ s, inv s → good s)
    (hbad : ∀ s, lost s → ¬ good s) {s : σ} (hs : inv s) (events : List ε) :
    good (events.foldl step s) ↔ Along step ok s events := by
  constructor
  · intro h
    induction events generalizing s with
    | nil => trivial
    | cons event events ih =>
      by_cases hok : ok s event
      · exact ⟨hok, ih (hkeep s event hok hs) h⟩
      · have hend : lost (events.foldl step (step s event)) :=
          List.foldlRecOn events step (hlose s event hok hs) fun s h event _ => hlost s event h
        exact absurd h (hbad _ hend)
  · intro h
    exact hgood _ (h.invariant inv hkeep hs)

section Reaching

variable {allowed : ε → Prop} {goal : σ → Prop}

/-- A goal can be reached from a state by allowed events. -/
def CanReach (step : σ → ε → σ) (allowed : ε → Prop) (goal : σ → Prop) (s : σ) : Prop :=
  ∃ events : List ε, (∀ event ∈ events, allowed event) ∧ goal (events.foldl step s)

/-- A goal that holds is reached. -/
theorem canReach_of_goal {s : σ} (h : goal s) : CanReach step allowed goal s := ⟨[], by simp, h⟩

/-- A goal can be reached if it can after some allowed events. -/
theorem canReach_of_run {s : σ} (first : List ε) (hfirst : ∀ event ∈ first, allowed event)
    (h : CanReach step allowed goal (first.foldl step s)) : CanReach step allowed goal s := by
  obtain ⟨events, hevents, hgoal⟩ := h
  refine ⟨first ++ events, fun event hmem => ?_, by rwa [List.foldl_append]⟩
  rcases List.mem_append.mp hmem with hmem | hmem
  · exact hfirst event hmem
  · exact hevents event hmem

/-- A goal cannot be reached from a trap, which no allowed event leaves and which is not at the
goal. -/
theorem not_canReach_of_trap (trap : σ → Prop)
    (hstep : ∀ s event, allowed event → trap s → trap (step s event))
    (htrap : ∀ s, trap s → ¬ goal s) {s : σ} (hs : trap s) : ¬ CanReach step allowed goal s := by
  rintro ⟨events, hevents, hgoal⟩
  have hend : trap (events.foldl step s) :=
    List.foldlRecOn events step hs fun s h event hmem => hstep s event (hevents event hmem) h
  exact htrap _ hend hgoal

end Reaching

section Outputs

variable {ι ω : Type} {react : σ → ι → σ × ω}

/-- The outputs of a machine that answers each input with one output. -/
def outputs (react : σ → ι → σ × ω) : σ → List ι → List ω
  | _, [] => []
  | s, input :: inputs => (react s input).2 :: outputs react (react s input).1 inputs

/-- A machine gives one output for each input. -/
@[simp] theorem length_outputs (s : σ) (inputs : List ι) :
    (outputs react s inputs).length = inputs.length := by
  induction inputs generalizing s with
  | nil => rfl
  | cons input inputs ih => rw [outputs, List.length_cons, ih, List.length_cons]

/-- What every reaction to an allowed input in a state of the invariant has, every output of a
run has. -/
theorem forall_outputs (inv : σ → Prop) {allowed : ι → Prop} {good : ω → Prop}
    (hreact : ∀ s input, allowed input → inv s →
      inv (react s input).1 ∧ good (react s input).2) {s : σ} (hs : inv s) {inputs : List ι}
    (hinputs : ∀ input ∈ inputs, allowed input) : ∀ o ∈ outputs react s inputs, good o := by
  induction inputs generalizing s with
  | nil => simp [outputs]
  | cons input inputs ih =>
    obtain ⟨hinput, hrest⟩ := List.forall_mem_cons.mp hinputs
    obtain ⟨hnext, hgood⟩ := hreact s input hinput hs
    exact List.forall_mem_cons.mpr ⟨hgood, ih hnext hrest⟩

/-- What every step that meets a condition has, in a state of an invariant that it keeps, every
output has of a run along which the condition holds. -/
theorem Along.forall_outputs (inv : σ → Prop) {ok : σ → ι → Prop} {good : ω → Prop}
    (hreact : ∀ s input, ok s input → inv s → inv (react s input).1 ∧ good (react s input).2)
    {s : σ} (hs : inv s) {inputs : List ι}
    (h : Along (fun s input => (react s input).1) ok s inputs) :
    ∀ o ∈ outputs react s inputs, good o := by
  induction inputs generalizing s with
  | nil => simp [outputs]
  | cons input inputs ih =>
    obtain ⟨hnext, hgood⟩ := hreact s input h.1 hs
    exact List.forall_mem_cons.mpr ⟨hgood, ih hnext h.2⟩

/-- Where, in the states of an invariant, the good outputs are those of the steps that meet a
condition, and these steps keep the invariant, a run has good outputs exactly when the
condition holds along it. -/
theorem forall_outputs_iff_along (inv : σ → Prop) {ok : σ → ι → Prop} {good : ω → Prop}
    (hreact : ∀ s input, ok s input → inv s → inv (react s input).1)
    (hgood : ∀ s input, inv s → (good (react s input).2 ↔ ok s input)) {s : σ} (hs : inv s)
    (inputs : List ι) :
    (∀ o ∈ outputs react s inputs, good o) ↔
      Along (fun s input => (react s input).1) ok s inputs := by
  induction inputs generalizing s with
  | nil => simp [outputs, Along]
  | cons input inputs ih =>
    rw [outputs, List.forall_mem_cons, hgood s input hs, Along]
    constructor
    · rintro ⟨hok, hrest⟩
      exact ⟨hok, (ih (hreact s input hok hs)).mp hrest⟩
    · rintro ⟨hok, hrest⟩
      exact ⟨hok, (ih (hreact s input hok hs)).mpr hrest⟩

/-- The state of the machine after a run. -/
def final (react : σ → ι → σ × ω) (s : σ) (inputs : List ι) : σ :=
  inputs.foldl (fun s input => (react s input).1) s

/-- A run goes on from the state that its first part leaves. -/
theorem outputs_append (s : σ) (first second : List ι) :
    outputs react s (first ++ second) =
      outputs react s first ++ outputs react (final react s first) second := by
  induction first generalizing s with
  | nil => rfl
  | cons input first ih =>
    rw [List.cons_append, outputs, ih, outputs, List.cons_append]
    rfl

/-- Inputs that keep the state can be left out of a run: the others have the same outputs. -/
theorem outputs_filter {keep : ι → Bool} (s : σ) {inputs : List ι}
    (hskip : ∀ input ∈ inputs, keep input = false → ∀ s, (react s input).1 = s) :
    ((inputs.zip (outputs react s inputs)).filter fun p => keep p.1).map Prod.snd =
        outputs react s (inputs.filter keep) ∧
      final react s inputs = final react s (inputs.filter keep) := by
  induction inputs generalizing s with
  | nil => exact ⟨rfl, rfl⟩
  | cons input inputs ih =>
    obtain ⟨hinput, hrest⟩ := List.forall_mem_cons.mp hskip
    obtain ⟨houtputs, hfinal⟩ := ih (react s input).1 hrest
    cases hkeep : keep input with
    | true =>
      rw [List.filter_cons_of_pos hkeep]
      refine ⟨?_, hfinal⟩
      rw [outputs, List.zip_cons_cons, List.filter_cons_of_pos (by exact hkeep), List.map_cons,
        houtputs]
      rfl
    | false =>
      rw [List.filter_cons_of_neg (by simp [hkeep])]
      rw [hinput hkeep s] at houtputs hfinal
      refine ⟨?_, ?_⟩
      · rw [outputs, hinput hkeep s, List.zip_cons_cons, List.filter_cons_of_neg (by simp [hkeep])]
        exact houtputs
      · rw [← hfinal, final, List.foldl_cons, hinput hkeep s]
        rfl

/-- The machine may read a part of its inputs. -/
theorem outputs_map {κ : Type} (f : κ → ι) (s : σ) (inputs : List κ) :
    outputs react s (inputs.map f) = outputs (fun s input => react s (f input)) s inputs := by
  induction inputs generalizing s with
  | nil => rfl
  | cons input inputs ih => rw [List.map_cons, outputs, outputs, ih]

end Outputs

section Window

variable {α : Type} {reset p : α → Bool} {n : ℕ}

/-- How many entries of a history, the newest first, satisfy `p` since the last reset. -/
def sinceReset (reset p : α → Bool) : List α → ℕ
  | [] => 0
  | a :: history =>
      if reset a then 0 else sinceReset reset p history + if p a then 1 else 0

/-- At no time did the count since the last reset exceed `n`. -/
def Bounded (reset p : α → Bool) (n : ℕ) : List α → Prop
  | [] => True
  | a :: history => sinceReset reset p (a :: history) ≤ n ∧ Bounded reset p n history

/-- Entries that are neither counted nor reset the count leave it alone. -/
theorem sinceReset_append {new : List α} (hreset : ∀ a ∈ new, reset a = false)
    (hp : ∀ a ∈ new, p a = false) (history : List α) :
    sinceReset reset p (new ++ history) = sinceReset reset p history := by
  induction new with
  | nil => rfl
  | cons a new ih =>
    have htail := ih (fun b hb => hreset b (List.mem_cons_of_mem _ hb))
      fun b hb => hp b (List.mem_cons_of_mem _ hb)
    simp [sinceReset, hreset a List.mem_cons_self, hp a List.mem_cons_self, htail]

/-- The bound holds of the count at the end. -/
theorem Bounded.sinceReset_le {history : List α} (h : Bounded reset p n history) :
    sinceReset reset p history ≤ n := by
  cases history with
  | nil => exact Nat.zero_le n
  | cons a history => exact h.1

/-- Entries that are neither counted nor reset the count keep a bound. -/
theorem Bounded.append {new history : List α} (h : Bounded reset p n history)
    (hreset : ∀ a ∈ new, reset a = false) (hp : ∀ a ∈ new, p a = false) :
    Bounded reset p n (new ++ history) := by
  induction new with
  | nil => exact h
  | cons a new ih =>
    have hcount := sinceReset_append hreset hp history
    refine ⟨?_, ih (fun b hb => hreset b (List.mem_cons_of_mem _ hb))
      fun b hb => hp b (List.mem_cons_of_mem _ hb)⟩
    exact Nat.le_trans (Nat.le_of_eq hcount) h.sinceReset_le

/-- A stretch without a reset at the end of a history is counted in full. -/
theorem countP_le_sinceReset {window history : List α} (h : window <+: history)
    (hreset : ∀ a ∈ window, reset a = false) :
    window.countP p ≤ sinceReset reset p history := by
  induction window generalizing history with
  | nil => simp
  | cons a window ih =>
    obtain ⟨rest, rfl⟩ := h
    have ha : reset a = false := hreset a List.mem_cons_self
    have htail := ih (List.prefix_append window rest)
      fun b hb => hreset b (List.mem_cons_of_mem _ hb)
    simp only [List.cons_append, sinceReset, ha, List.countP_cons]
    exact Nat.add_le_add_right htail _

/-- A bound at all times bounds every stretch of the history without a reset. -/
theorem Bounded.countP_le {window history : List α} (h : Bounded reset p n history)
    (hwindow : window <:+: history) (hreset : ∀ a ∈ window, reset a = false) :
    window.countP p ≤ n := by
  induction history with
  | nil => simp [List.infix_nil.mp hwindow]
  | cons a history ih =>
    rcases List.infix_cons_iff.mp hwindow with hprefix | hinfix
    · exact Nat.le_trans (countP_le_sinceReset hprefix hreset) h.1
    · exact ih h.2 hinfix

end Window

end Run
