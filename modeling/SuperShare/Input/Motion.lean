import Mathlib.Algebra.BigOperators.Group.List.Basic
import Mathlib.Algebra.Group.Prod
import Mathlib.Tactic.Abel
import SuperShare.Input.WarpCapture

/-!
# Motion in a remote session

rdev reports positions from an accumulator of its own, which adds up the physical motions and
is clamped to the screen. The callback forwards the differences of reported positions. This
file puts the two together, over exact integers, and compares what is forwarded in remote mode
with the physical motions.
-/

namespace SuperShare

variable {κ : Type}

/-- An event of a physical device. -/
inductive PhysicalEvent (κ : Type) where
  | motion (dx dy : ℤ)
  | buttonPress (button : RdevButton)
  | buttonRelease (button : RdevButton)
  | wheel (deltaX deltaY : ℤ)
  | keyPress (key : κ)
  | keyRelease (key : κ)

/-- The physical motion of an event. -/
def PhysicalEvent.motionOf : PhysicalEvent κ → ℤ × ℤ
  | motion dx dy => (dx, dy)
  | _ => 0

/-- The part of a coordinate that lies beyond the screen. -/
def overshoot (bound x : ℤ) : ℤ := x - CursorNumber.clamp x 0 bound

/-- A physical event, with what the callback finds when it runs. -/
structure PhysicalInput (κ : Type) where
  event : PhysicalEvent κ
  exitRequested : Bool
  hasClient : Bool

/-- The callback together with rdev's accumulator. -/
structure GrabState where
  callback : CallbackState ℤ
  accumulator : ℤ × ℤ

/-- What the callback did with a physical event, and what the accumulator dropped of it. -/
structure GrabOutcome (κ : Type) where
  motion : ℤ × ℤ
  dropped : ℤ × ℤ
  capture : CaptureOutcome ℤ κ ℤ

namespace GrabState

/-- The accumulator after an event, what it dropped, and the event as rdev reports it. -/
def report (g : GrabState) : PhysicalEvent κ → (ℤ × ℤ) × (ℤ × ℤ) × EventType ℤ κ
  | .motion dx dy =>
      let x := g.accumulator.1 + dx
      let y := g.accumulator.2 + dy
      let width := g.callback.screenWidth
      let height := g.callback.screenHeight
      let position := (CursorNumber.clamp x 0 width, CursorNumber.clamp y 0 height)
      (position, (overshoot width x, overshoot height y), .mouseMove position.1 position.2)
  | .buttonPress button => (g.accumulator, 0, .buttonPress button)
  | .buttonRelease button => (g.accumulator, 0, .buttonRelease button)
  | .wheel deltaX deltaY => (g.accumulator, 0, .wheel deltaX deltaY)
  | .keyPress key => (g.accumulator, 0, .keyPress key)
  | .keyRelease key => (g.accumulator, 0, .keyRelease key)

/-- One physical event is reported to the callback. The forwarding channel has room. -/
def react (lib : KeyLib κ) (g : GrabState) (input : PhysicalInput κ) :
    GrabState × GrabOutcome κ :=
  let (accumulator, dropped, event) := g.report input.event
  let r := SuperShare.callback lib g.callback ⟨event, input.exitRequested, input.hasClient, true⟩
  (⟨r.1, accumulator⟩, ⟨input.event.motionOf, dropped, r.2⟩)

/-- The state when the capture starts, with the accumulator at the cursor. -/
def start (screenWidth screenHeight : UInt32) (accumulator : ℤ × ℤ) : GrabState :=
  ⟨.start screenWidth screenHeight, accumulator⟩

/-- The callback has the position that the accumulator reported last, and is in remote mode
only after a first report. -/
structure Synced (g : GrabState) : Prop where
  prev : g.callback.prevInitialized = true → (g.callback.prevX, g.callback.prevY) = g.accumulator
  remote : g.callback.isRemote = true → g.callback.prevInitialized = true

end GrabState

/-- The relative motion of a forwarded event. -/
def WarpInputEvent.delta? : WarpInputEvent ℤ → Option (ℤ × ℤ)
  | mouseDelta dx dy => some (dx, dy)
  | _ => none

/-- The relative motion that was forwarded with an event, zero if there was none. -/
def CaptureOutcome.delta (o : CaptureOutcome ℤ κ ℤ) : ℤ × ℤ :=
  (o.emitted.bind WarpInputEvent.delta?).getD 0

/-- What the callback did in a run. -/
def GrabState.run (lib : KeyLib κ) (g : GrabState) (inputs : List (PhysicalInput κ)) :
    List (GrabOutcome κ) :=
  Run.outputs (GrabState.react lib) g inputs

/-- The relative motions forwarded in a run. -/
def forwardedMotions (outcomes : List (GrabOutcome κ)) : List (ℤ × ℤ) :=
  (emittedTrace (outcomes.map GrabOutcome.capture)).filterMap WarpInputEvent.delta?

/-- A reported motion is remembered, and in remote mode forwarded as the difference. -/
theorem handle_mouseMove (lib : KeyLib κ) (hasClient : Bool) (s : CallbackState ℤ) (x y : ℤ) :
    let r := s.handle lib hasClient (.mouseMove x y)
    r.1.prevX = x ∧ r.1.prevY = y ∧ r.1.prevInitialized = true ∧
      (s.isRemote = true → s.prevInitialized = true →
        (r.2.2.bind WarpInputEvent.delta?).getD 0 = (x, y) - (s.prevX, s.prevY)) := by
  intro r
  cases hremote : s.isRemote with
  | false =>
    simp only [r, CallbackState.handle, hremote, Bool.false_eq_true, if_false]
    split <;> exact ⟨rfl, rfl, rfl, fun h => h.elim⟩
  | true =>
    simp only [r, CallbackState.handle, hremote, if_true]
    split
    · refine ⟨rfl, rfl, rfl, fun _ hprev => ?_⟩
      simp only [CallbackState.track, hprev, if_true]
      rfl
    · -- A zero difference is not forwarded.
      rename_i hzero
      refine ⟨rfl, rfl, rfl, fun _ hprev => ?_⟩
      simp only [CallbackState.track, hprev, if_true, CursorNumber.ne, CursorNumber.sub,
        CursorNumber.ofNat, Bool.or_eq_true, decide_eq_true_eq, not_or, not_not,
        Nat.cast_zero] at hzero
      exact (Prod.ext hzero.1 hzero.2).symm

/-- Every other event leaves the state alone and forwards no motion. -/
theorem handle_of_not_motion (lib : KeyLib κ) (hasClient : Bool) (s : CallbackState ℤ)
    {event : EventType ℤ κ} (hevent : ∀ x y, event ≠ .mouseMove x y) :
    let r := s.handle lib hasClient event
    r.1 = s ∧ (r.2.2.bind WarpInputEvent.delta?).getD 0 = 0 := by
  intro r
  cases event with
  | mouseMove x y => exact absurd rfl (hevent x y)
  | buttonPress button | buttonRelease button =>
    cases hremote : s.isRemote <;> cases hbutton : mapButton button <;>
      simp [r, CallbackState.handle, hremote, hbutton, WarpInputEvent.delta?]
  | _ =>
    cases hremote : s.isRemote <;>
      simp [r, CallbackState.handle, hremote, WarpInputEvent.delta?]

/-- An event other than a motion is reported as it is. -/
theorem GrabState.report_cases (g : GrabState) (event : PhysicalEvent κ) :
    (∃ dx dy, event = .motion dx dy) ∨
      event.motionOf = 0 ∧ ∃ other, g.report event = (g.accumulator, 0, other) ∧
        ∀ x y, other ≠ .mouseMove x y := by
  cases event with
  | motion dx dy => exact .inl ⟨dx, dy, rfl⟩
  | _ => exact .inr ⟨rfl, _, rfl, fun _ _ h => nomatch h⟩

/-- Every reaction keeps the callback synchronised, and in remote mode forwards the physical
motion less what the accumulator drops. -/
theorem GrabState.Synced.react {g : GrabState} (h : g.Synced) (lib : KeyLib κ)
    (input : PhysicalInput κ) :
    (g.react lib input).1.Synced ∧
      ((g.react lib input).2.capture.remote = true →
        (g.react lib input).2.capture.delta =
          (g.react lib input).2.motion - (g.react lib input).2.dropped) := by
  let checked := g.callback.checkExit input.exitRequested input.hasClient
  obtain ⟨hprevX, hprevY, hinit⟩ : checked.prevX = g.callback.prevX ∧
      checked.prevY = g.callback.prevY ∧
      checked.prevInitialized = g.callback.prevInitialized := checkExit_prev ..
  have hchecked : checked.isRemote = true → checked.prevInitialized = true := by
    intro hremote
    rw [hinit]
    exact h.remote (isRemote_of_checkExit hremote)
  have hsynced : checked.prevInitialized = true →
      (checked.prevX, checked.prevY) = g.accumulator := by
    rw [hinit, hprevX, hprevY]
    exact h.prev
  rcases g.report_cases input.event with ⟨dx, dy, hevent⟩ | ⟨hmotion, other, hreport, hother⟩
  · obtain ⟨x, hx⟩ : ∃ x, x = CursorNumber.clamp (g.accumulator.1 + dx) 0
      g.callback.screenWidth := ⟨_, rfl⟩
    obtain ⟨y, hy⟩ : ∃ y, y = CursorNumber.clamp (g.accumulator.2 + dy) 0
      g.callback.screenHeight := ⟨_, rfl⟩
    obtain ⟨hx', hy', hinit', hdelta⟩ := handle_mouseMove lib input.hasClient checked x y
    simp only [GrabState.react, GrabState.report, hevent, ← hx, ← hy]
    refine ⟨⟨fun _ => Prod.ext hx' hy', fun _ => hinit'⟩, fun hremote => ?_⟩
    refine (hdelta hremote (hchecked hremote)).trans ?_
    rw [hsynced (hchecked hremote)]
    simp only [PhysicalEvent.motionOf, overshoot, ← hx, ← hy]
    refine Prod.ext ?_ ?_
    · simp only [Prod.fst_sub]
      omega
    · simp only [Prod.snd_sub]
      omega
  · obtain ⟨hstate, hdelta⟩ := handle_of_not_motion lib input.hasClient checked hother
    simp only [GrabState.react, hreport, hmotion]
    refine ⟨⟨?_, ?_⟩, fun _ => hdelta⟩
    · intro hinit'
      simp only [SuperShare.callback] at hinit' ⊢
      rw [hstate] at hinit' ⊢
      exact hsynced hinit'
    · intro hremote
      simp only [SuperShare.callback] at hremote ⊢
      rw [hstate] at hremote ⊢
      exact hchecked hremote

/-- What is forwarded adds up to what the single events forward. -/
theorem sum_emittedTrace (outcomes : List (CaptureOutcome ℤ κ ℤ)) :
    ((emittedTrace outcomes).filterMap WarpInputEvent.delta?).sum =
      (outcomes.map CaptureOutcome.delta).sum := by
  induction outcomes with
  | nil => rfl
  | cons o outcomes ih =>
    have hcons : (emittedTrace (o :: outcomes)).filterMap WarpInputEvent.delta? =
        (o.emitted.bind WarpInputEvent.delta?).toList ++
          (emittedTrace outcomes).filterMap WarpInputEvent.delta? := by
      rw [emittedTrace_cons, List.filterMap_append]
      cases hemitted : o.emitted with
      | none => rfl
      | some e => cases hdelta : e.delta? <;> simp [hdelta]
    rw [hcons, List.sum_append, ih, List.map_cons, List.sum_cons]
    congr 1
    unfold CaptureOutcome.delta
    cases o.emitted.bind WarpInputEvent.delta? <;> simp

/-- The forwarded motions add up to those of the single events. -/
theorem sum_forwardedMotions (outcomes : List (GrabOutcome κ)) :
    (forwardedMotions outcomes).sum = (outcomes.map fun o => o.capture.delta).sum := by
  rw [forwardedMotions, sum_emittedTrace, List.map_map]
  rfl

/-- Where each event forwards its motion less what was dropped of it, so does a stretch. -/
theorem sum_motion_sub_dropped {outcomes : List (GrabOutcome κ)}
    (h : ∀ o ∈ outcomes, o.capture.delta = o.motion - o.dropped) :
    (outcomes.map fun o => o.capture.delta).sum =
      (outcomes.map GrabOutcome.motion).sum - (outcomes.map GrabOutcome.dropped).sum := by
  induction outcomes with
  | nil => simp
  | cons o outcomes ih =>
    obtain ⟨ho, houtcomes⟩ := List.forall_mem_cons.mp h
    simp only [List.map_cons, List.sum_cons, ho, ih houtcomes]
    abel

/-- **Motion of a session.** In every run from the start, over every stretch of events handled
in remote mode, the forwarded motions add up to the physical motions less what the
accumulator dropped of them at the edges of the screen. -/
theorem session_motion (lib : KeyLib κ) {screenWidth screenHeight : UInt32}
    {accumulator : ℤ × ℤ} {inputs : List (PhysicalInput κ)}
    {before session after : List (GrabOutcome κ)}
    (hrun : GrabState.run lib (.start screenWidth screenHeight accumulator) inputs =
      before ++ session ++ after)
    (hremote : ∀ o ∈ session, o.capture.remote = true) :
    (forwardedMotions session).sum =
      (session.map GrabOutcome.motion).sum - (session.map GrabOutcome.dropped).sum := by
  have hstart : (GrabState.start screenWidth screenHeight accumulator).Synced :=
    ⟨fun h => absurd h Bool.false_ne_true, fun h => absurd h Bool.false_ne_true⟩
  have hall : ∀ o ∈ GrabState.run lib (.start screenWidth screenHeight accumulator) inputs,
      o.capture.remote = true → o.capture.delta = o.motion - o.dropped :=
    Run.forall_outputs GrabState.Synced (fun g input (_ : True) h => h.react lib input) hstart
      fun _ _ => trivial
  rw [sum_forwardedMotions]
  refine sum_motion_sub_dropped fun o ho => hall o ?_ (hremote o ho)
  rw [hrun]
  exact List.mem_append_left _ (List.mem_append_right _ ho)

/-- A session that begins one pixel from the edge, moves beyond it and comes back. -/
theorem session_motion_back :
    let inputs : List (PhysicalInput String) :=
      [⟨.motion 1 0, false, true⟩, ⟨.motion 10 (-3), false, true⟩, ⟨.motion (-20) 4, false, true⟩,
        ⟨.motion 0 0, true, true⟩]
    let outcomes := GrabState.run .constant (.start 100 100 (98, 50)) inputs
    (forwardedMotions ((outcomes.drop 1).take 2)).sum = (-10, 1) - (9, 0) := by
  intro inputs outcomes
  have hrun : outcomes = outcomes.take 1 ++ (outcomes.drop 1).take 2 ++ outcomes.drop 3 := rfl
  exact session_motion .constant hrun (by decide)

/-- A session entered at the right edge forwards one pixel of a motion of ten to the right. -/
theorem session_motion_clamped :
    let inputs : List (PhysicalInput String) :=
      [⟨.motion 1 0, false, true⟩, ⟨.motion 10 0, false, true⟩]
    let session := (GrabState.run .constant (.start 100 100 (98, 50)) inputs).drop 1
    (∀ o ∈ session, o.capture.remote = true) ∧
      (session.map GrabOutcome.motion).sum = (10, 0) ∧
      (forwardedMotions session).sum = (1, 0) := by
  decide

end SuperShare
