import Mathlib.Algebra.Order.Group.MinMax
import Mathlib.Tactic.Linarith
import SuperShare.Input.Forwarder

/-!
# Crossing the edge

The callback enters remote mode at any motion after which the logical position is at the right
edge, and puts the announcement on the forwarding channel without looking at whether it is taken.
When it leaves remote mode, it goes back to the position at which it entered. This file says when
it enters again at once, and when it enters without its client being told.
-/

namespace SuperShare

variable {κ : Type}

section Return

/-- No motion reports a movement to the right. -/
def NoRightward : ℚ → List (CaptureInput ℚ κ) → Prop
  | _, [] => True
  | prev, input :: inputs =>
      match input.event with
      | .mouseMove x _ => x ≤ prev ∧ NoRightward x inputs
      | _ => NoRightward prev inputs

/-- The coordinate that the first motion reports. -/
def firstReported : List (CaptureInput ℚ κ) → Option ℚ
  | [] => none
  | input :: inputs =>
      match input.event with
      | .mouseMove x _ => some x
      | _ => firstReported inputs

/-- The first motion leads from a position out of the entry zone, which is the last pixel before
the right edge. -/
def StepsOut (s : CallbackState ℚ) (posX : ℚ) (inputs : List (CaptureInput ℚ κ)) : Prop :=
  ∀ x ∈ firstReported inputs, max 0 (posX + (x - s.prevX)) < s.screenWidth - 1

/-- Only motions are looked at for the direction. -/
theorem noRightward_cons {input : CaptureInput ℚ κ} {inputs : List (CaptureInput ℚ κ)} {prev : ℚ}
    (hevent : ∀ x y, input.event ≠ .mouseMove x y) :
    NoRightward prev (input :: inputs) ↔ NoRightward prev inputs := by
  cases h : input.event with
  | mouseMove x y => exact absurd h (hevent x y)
  | _ => simp only [NoRightward, h]

/-- Only motions report a coordinate. -/
theorem firstReported_cons {input : CaptureInput ℚ κ} {inputs : List (CaptureInput ℚ κ)}
    (hevent : ∀ x y, input.event ≠ .mouseMove x y) :
    firstReported (input :: inputs) = firstReported inputs := by
  cases h : input.event with
  | mouseMove x y => exact absurd h (hevent x y)
  | _ => simp only [firstReported, h]

/-- The callback is in local mode, short of the entry zone. -/
structure CallbackState.Settled (s : CallbackState ℚ) : Prop where
  isLocal : s.isRemote = false
  initialized : s.prevInitialized = true
  nonneg : 0 ≤ s.posX
  outside : s.posX < s.screenWidth - 1

variable (lib : KeyLib κ) {s : CallbackState ℚ}

/-- In local mode only a motion changes the state, and the mode stays with any other event. -/
theorem callback_of_local (hlocal : s.isRemote = false) {input : CaptureInput ℚ κ}
    (hevent : ∀ x y, input.event ≠ .mouseMove x y) :
    (callback lib s input).1 = s ∧ (callback lib s input).2.remoteAfter = false := by
  obtain ⟨hstate, -⟩ := handle_other lib input.hasClient s hevent
  simp only [callback, checkExit_of_local hlocal, hstate]
  exact ⟨trivial, hlocal⟩

/-- Tracking a motion moves the logical position by the reported difference. -/
theorem track_posX (hinit : s.prevInitialized = true) (x y : ℚ) :
    (s.track x y).2.2.posX = max 0 (min (s.posX + (x - s.prevX)) s.screenWidth) := by
  simp only [CallbackState.track, hinit, if_true]
  simp [CursorNumber.clamp, CursorNumber.add, CursorNumber.sub, CursorNumber.ofNat]

/-- A tracked position is in the entry zone unless the motion leads to a position short of it. -/
theorem ge_track_iff (hinit : s.prevInitialized = true) (x y : ℚ) :
    CursorNumber.ge (s.track x y).2.2.posX
        (CursorNumber.sub s.screenWidth (CursorNumber.ofNat 1)) = false ↔
      max 0 (s.posX + (x - s.prevX)) < s.screenWidth - 1 := by
  have hge : CursorNumber.ge (s.track x y).2.2.posX
      (CursorNumber.sub s.screenWidth (CursorNumber.ofNat 1)) =
        decide (s.screenWidth - 1 ≤ (s.track x y).2.2.posX) := by
    simp [CursorNumber.ge, CursorNumber.sub, CursorNumber.ofNat]
  rw [hge, decide_eq_false_iff_not, not_le, track_posX hinit]
  -- The upper bound is beyond the zone, so clamping to it does not matter.
  have hwidth : s.screenWidth - 1 < s.screenWidth := sub_one_lt _
  simp only [max_lt_iff, min_lt_iff]
  constructor
  · rintro ⟨hzero, hposition | hbound⟩
    · exact ⟨hzero, hposition⟩
    · exact absurd hbound hwidth.le.not_gt
  · rintro ⟨hzero, hposition⟩
    exact ⟨hzero, .inl hposition⟩

/-- In local mode a motion enters remote mode unless it leads to a position short of the entry
zone. -/
theorem remoteAfter_motion (hlocal : s.isRemote = false) (hinit : s.prevInitialized = true)
    {input : CaptureInput ℚ κ} (hclient : input.hasClient = true) {x y : ℚ}
    (hevent : input.event = .mouseMove x y) :
    (callback lib s input).2.remoteAfter = false ↔
      max 0 (s.posX + (x - s.prevX)) < s.screenWidth - 1 := by
  rw [← ge_track_iff hinit x y]
  simp only [callback, checkExit_of_local hlocal, hevent, hclient, CallbackState.handle, hlocal,
    Bool.false_eq_true, if_false, Bool.and_true]
  split
  · rename_i hentry
    simp [hentry]
  · rename_i hentry
    exact iff_of_true hlocal (Bool.eq_false_of_not_eq_true hentry)

/-- A motion that does not enter remote mode is tracked. -/
theorem callback_motion (hlocal : s.isRemote = false) {input : CaptureInput ℚ κ} {x y : ℚ}
    (hevent : input.event = .mouseMove x y)
    (hstays : (callback lib s input).2.remoteAfter = false) :
    (callback lib s input).1 = (s.track x y).2.2 := by
  revert hstays
  simp only [callback, checkExit_of_local hlocal, hevent, CallbackState.handle, hlocal,
    Bool.false_eq_true, if_false]
  split
  · exact fun hremote => absurd hremote.symm Bool.false_ne_true
  · exact fun _ => rfl

/-- A motion to the left keeps the callback short of the entry zone. -/
theorem CallbackState.Settled.track (h : s.Settled) {x y : ℚ} (hx : x ≤ s.prevX) :
    max 0 (s.posX + (x - s.prevX)) < s.screenWidth - 1 ∧ (s.track x y).2.2.Settled := by
  have hleft : s.posX + (x - s.prevX) ≤ s.posX := by linarith
  have hwidth : (0 : ℚ) < s.screenWidth - 1 := h.nonneg.trans_lt h.outside
  have hposition : s.posX + (x - s.prevX) < s.screenWidth - 1 := hleft.trans_lt h.outside
  refine ⟨max_lt hwidth hposition, h.isLocal, rfl, ?_, ?_⟩
  · rw [track_posX h.initialized]
    exact le_max_left _ _
  · rw [track_posX h.initialized]
    exact max_lt hwidth (min_lt_of_left_lt hposition)

/-- Motions to the left and other events leave the callback short of the entry zone. -/
theorem CallbackState.Settled.stays (h : s.Settled) {inputs : List (CaptureInput ℚ κ)}
    (hclient : ∀ input ∈ inputs, input.hasClient = true)
    (hmotion : NoRightward s.prevX inputs) :
    ∀ o ∈ capture lib s inputs, o.remoteAfter = false := by
  induction inputs generalizing s with
  | nil => simp [capture, Run.outputs]
  | cons input inputs ih =>
    obtain ⟨hinput, hinputs⟩ := List.forall_mem_cons.mp hclient
    refine List.forall_mem_cons.mpr ?_
    by_cases hevent : ∃ x y, input.event = .mouseMove x y
    · obtain ⟨x, y, hevent⟩ := hevent
      simp only [NoRightward, hevent] at hmotion
      obtain ⟨hleads, hsettled⟩ := h.track (y := y) hmotion.1
      have hafter := (remoteAfter_motion lib h.isLocal h.initialized hinput hevent).mpr hleads
      refine ⟨hafter, ?_⟩
      rw [callback_motion lib h.isLocal hevent hafter]
      exact ih hsettled hinputs hmotion.2
    · have hother : ∀ x y, input.event ≠ .mouseMove x y := fun x y hxy => hevent ⟨x, y, hxy⟩
      obtain ⟨hstate, hafter⟩ := callback_of_local lib h.isLocal hother
      refine ⟨hafter, ?_⟩
      rw [hstate]
      exact ih h hinputs ((noRightward_cons hother).mp hmotion)

/-- In local mode, motions that are not to the right stay in it exactly if the first of them does
not end in the entry zone. -/
theorem remoteAfter_iff_stepsOut (hlocal : s.isRemote = false) (hinit : s.prevInitialized = true)
    {inputs : List (CaptureInput ℚ κ)} (hclient : ∀ input ∈ inputs, input.hasClient = true)
    (hmotion : NoRightward s.prevX inputs) :
    (∀ o ∈ capture lib s inputs, o.remoteAfter = false) ↔ StepsOut s s.posX inputs := by
  induction inputs with
  | nil => simp [capture, Run.outputs, StepsOut, firstReported]
  | cons input inputs ih =>
    obtain ⟨hinput, hinputs⟩ := List.forall_mem_cons.mp hclient
    have hcapture : (∀ o ∈ capture lib s (input :: inputs), o.remoteAfter = false) ↔
        (callback lib s input).2.remoteAfter = false ∧
          ∀ o ∈ capture lib (callback lib s input).1 inputs, o.remoteAfter = false :=
      List.forall_mem_cons
    rw [hcapture]
    by_cases hevent : ∃ x y, input.event = .mouseMove x y
    · obtain ⟨x, y, hevent⟩ := hevent
      have hsteps : StepsOut s s.posX (input :: inputs) ↔
          max 0 (s.posX + (x - s.prevX)) < s.screenWidth - 1 := by
        simp [StepsOut, firstReported, hevent]
      rw [hsteps, remoteAfter_motion lib hlocal hinit hinput hevent]
      refine and_iff_left_of_imp fun hleads => ?_
      -- From the first motion on the position is short of the zone.
      have hafter := (remoteAfter_motion lib hlocal hinit hinput hevent).mpr hleads
      rw [callback_motion lib hlocal hevent hafter]
      simp only [NoRightward, hevent] at hmotion
      have hsettled : (s.track x y).2.2.Settled := by
        refine ⟨hlocal, rfl, ?_, ?_⟩
        · rw [track_posX hinit]
          exact le_max_left _ _
        · rw [track_posX hinit]
          exact (max_le_max_left 0 (min_le_left _ _)).trans_lt hleads
      exact hsettled.stays lib hinputs hmotion.2
    · have hother : ∀ x y, input.event ≠ .mouseMove x y := fun x y hxy => hevent ⟨x, y, hxy⟩
      obtain ⟨hstate, hafter⟩ := callback_of_local lib hlocal hother
      rw [hstate, and_iff_right hafter, ih hinputs ((noRightward_cons hother).mp hmotion)]
      simp only [StepsOut, firstReported_cons hother]

/-- Remote mode is entered at a motion, after which the reported position is known. -/
theorem callback_initialized (h : s.isRemote = true → s.prevInitialized = true)
    (input : CaptureInput ℚ κ) :
    (callback lib s input).1.isRemote = true → (callback lib s input).1.prevInitialized = true := by
  have hchecked : (s.checkExit input.exitRequested input.hasClient).isRemote = true →
      (s.checkExit input.exitRequested input.hasClient).prevInitialized = true := by
    intro hremote
    rw [(checkExit_prev s _ _).2.2]
    exact h (isRemote_of_checkExit hremote)
  simp only [callback]
  cases hevent : input.event with
  | mouseMove x y =>
    simp only [CallbackState.handle]
    split <;> split <;> exact fun _ => rfl
  | _ =>
    rw [(handle_other lib input.hasClient _ (by simp)).1]
    exact hchecked

/-- In remote mode a position was reported before. -/
theorem initialized_of_remote (screenWidth screenHeight : UInt32)
    (inputs : List (CaptureInput ℚ κ)) :
    let s := Run.final (callback lib) (CallbackState.start screenWidth screenHeight) inputs
    s.isRemote = true → s.prevInitialized = true := by
  refine List.foldlRecOn (motive := fun s : CallbackState ℚ => s.isRemote = true →
    s.prevInitialized = true) inputs _ ?_ fun s h input _ => callback_initialized lib h input
  exact fun hremote => absurd hremote Bool.false_ne_true

/-- **Return.** When the client asks to return from a remote session, motions that are not to the
right leave the callback in local mode exactly if the first of them leads from the frozen
position out of the entry zone. -/
theorem local_iff_stepsOut (screenWidth screenHeight : UInt32)
    (inputs : List (CaptureInput ℚ κ)) (first : CaptureInput ℚ κ)
    (rest : List (CaptureInput ℚ κ)) :
    let s := Run.final (callback lib) (CallbackState.start screenWidth screenHeight) inputs
    s.isRemote = true → first.exitRequested = true →
      (∀ input ∈ first :: rest, input.hasClient = true) → NoRightward s.prevX (first :: rest) →
      ((∀ o ∈ capture lib s (first :: rest), o.remoteAfter = false) ↔
        StepsOut s s.frozenX (first :: rest)) := by
  intro s hremote hexit hclient hmotion
  have hinit : s.prevInitialized = true :=
    initialized_of_remote lib screenWidth screenHeight inputs hremote
  let exited : CallbackState ℚ :=
    { s with isRemote := false, posX := s.frozenX, posY := s.frozenY }
  have hchecked : s.checkExit first.exitRequested first.hasClient = exited := by
    simp only [CallbackState.checkExit, hexit, hremote, Bool.true_or, Bool.true_and, if_true]
    rfl
  -- The exit is handled with the first event, as if it had come before.
  have hcallback : callback lib s first = callback lib exited first := by
    simp only [callback, hchecked, checkExit_of_local (s := exited) rfl]
  have hcapture : capture lib s (first :: rest) = capture lib exited (first :: rest) := by
    simp only [capture, Run.outputs, hcallback]
  rw [hcapture]
  exact remoteAfter_iff_stepsOut lib (s := exited) rfl hinit hclient hmotion

/-- A motion to the edge of a screen with a client. -/
def toEdge : CaptureInput ℚ String := ⟨.mouseMove 99 50, false, true, true⟩

/-- A motion of which the client asked before to return. -/
def afterReturn (x : ℚ) : CaptureInput ℚ String := ⟨.mouseMove x 60, true, true, true⟩

/-- A motion straight down after the return enters the client again. -/
theorem bounces_straight_down :
    let s := Run.final (callback .constant) (CallbackState.start 100 100) [toEdge]
    s.isRemote = true ∧ NoRightward s.prevX [afterReturn 99] ∧
      ¬ ∀ o ∈ capture .constant s [afterReturn 99], o.remoteAfter = false := by
  exact ⟨by decide +kernel, ⟨by decide +kernel, trivial⟩, by decide +kernel⟩

/-- A motion to the left out of the zone does not. -/
theorem local_iff_stepsOut_left :
    ∀ o ∈ capture .constant
      (Run.final (callback .constant) (CallbackState.start 100 100) [toEdge])
      [afterReturn 90, afterReturn 80], o.remoteAfter = false := by
  refine (local_iff_stepsOut .constant 100 100 [toEdge] (afterReturn 90) [afterReturn 80]
    (by decide +kernel) rfl (by decide +kernel)
    ⟨by decide +kernel, by decide +kernel, trivial⟩).mpr ?_
  intro x hx
  obtain rfl : 90 = x := Option.mem_some_iff.mp hx
  decide +kernel

end Return

section Announcement

open CursorNumber

variable {α φ : Type} [CursorNumber α φ]

/-- The callback crosses the edge with an event: in local mode, after the exit check, a motion
leads into the entry zone while there is a client. -/
def Crosses (s : CallbackState α) (exitRequested hasClient : Bool) : EventType α κ → Prop
  | .mouseMove x y =>
      let checked := s.checkExit exitRequested hasClient
      checked.isRemote = false ∧ hasClient = true ∧
        ge (checked.track x y).2.2.posX (sub checked.screenWidth (ofNat 1)) = true
  | _ => False

/-- An event that the callback handles with a number of events on the forwarding channel. -/
def CaptureInput.at (occupancy : ℕ) (event : EventType α κ) (exitRequested hasClient : Bool) :
    CaptureInput α κ :=
  ⟨event, exitRequested, hasClient, decide (occupancy < captureCapacity)⟩

/-- Remote mode is entered only with its announcement on the channel, and while the channel is
full local mode stays, with the frozen position, and the event passes. -/
structure Announced (lib : KeyLib κ) (s : CallbackState α) (input : CaptureInput α κ) : Prop where
  entered : (callback lib s input).2.switched = true →
    ∃ enter, (callback lib s input).2.emitted = some enter ∧ enter.isEnter = true
  full : input.room = false →
    (s.checkExit input.exitRequested input.hasClient).isRemote = false →
      (callback lib s input).1.isRemote = false ∧
        ((callback lib s input).1.frozenX, (callback lib s input).1.frozenY) =
          (s.frozenX, s.frozenY) ∧
        (callback lib s input).2.passed = some input.event

variable (lib : KeyLib κ) {s : CallbackState α}

/-- An event that crosses the edge enters remote mode. -/
theorem handle_of_crosses {exitRequested hasClient : Bool} {event : EventType α κ}
    (h : Crosses s exitRequested hasClient event) :
    (s.checkExit exitRequested hasClient).isRemote = false ∧
      ((s.checkExit exitRequested hasClient).handle lib hasClient event).1.isRemote = true := by
  cases event with
  | mouseMove x y =>
    obtain ⟨hlocal, hclient, hentry⟩ := h
    refine ⟨hlocal, ?_⟩
    have hcross := Bool.and_eq_true_iff.mpr ⟨hentry, hclient⟩
    simp only [CallbackState.handle, hlocal, Bool.false_eq_true, if_false]
    rw [if_pos hcross]
  | _ => exact h.elim

/-- In local mode, an event that does not cross the edge passes, and leaves the mode and the frozen
position. -/
theorem handle_of_not_crosses {exitRequested hasClient : Bool} {event : EventType α κ}
    (h : ¬ Crosses s exitRequested hasClient event)
    (hlocal : (s.checkExit exitRequested hasClient).isRemote = false) :
    let r := (s.checkExit exitRequested hasClient).handle lib hasClient event
    r.1.isRemote = false ∧ (r.1.frozenX, r.1.frozenY) = (s.frozenX, s.frozenY) ∧
      r.2.1 = true := by
  intro r
  have hfrozen : ((s.checkExit exitRequested hasClient).frozenX,
      (s.checkExit exitRequested hasClient).frozenY) = (s.frozenX, s.frozenY) := by
    rcases checkExit_cases s exitRequested hasClient with hsame | ⟨-, hexit⟩
    · rw [hsame]
    · rw [hexit]
  rw [← hfrozen]
  cases event with
  | mouseMove x y =>
    simp only [r, CallbackState.handle, hlocal, Bool.false_eq_true, if_false]
    split
    · rename_i hcross
      obtain ⟨hentry, hclient⟩ := Bool.and_eq_true_iff.mp hcross
      exact absurd ⟨hlocal, hclient, hentry⟩ h
    · exact ⟨hlocal, rfl, rfl⟩
  | _ => simp [r, CallbackState.handle, hlocal]

/-- **Announcement.** The callback keeps to this with an event exactly if the channel has room or
the event does not cross the edge. -/
theorem announced_iff_room (s : CallbackState α) (occupancy : ℕ) (event : EventType α κ)
    (exitRequested hasClient : Bool) :
    Announced lib s (.at occupancy event exitRequested hasClient) ↔
      occupancy < captureCapacity ∨ ¬ Crosses s exitRequested hasClient event := by
  constructor
  · intro h
    by_contra hnot
    obtain ⟨hfull, hcross⟩ := not_or.mp hnot
    obtain ⟨hlocal, hremote⟩ := handle_of_crosses lib (not_not.mp hcross)
    have hstays := (h.full (decide_eq_false hfull) hlocal).1
    exact absurd (hremote.symm.trans hstays) (by simp)
  · rintro (hroom | hcross)
    · -- Every entry is put on the channel, and it has room.
      have hinput : (CaptureInput.at occupancy event exitRequested hasClient).room = true :=
        decide_eq_true hroom
      constructor
      · intro hswitched
        obtain ⟨hlocal, hafter⟩ := CaptureOutcome.switched_iff.mp hswitched
        rcases handle_cases lib hasClient (s.checkExit exitRequested hasClient) event with
          ⟨hremote, -⟩ | ⟨-, hstays, -⟩ | ⟨-, -, -, -, enter, hsent, henter⟩
        · exact absurd (hremote.symm.trans hlocal) (by simp)
        · exact absurd (hafter.symm.trans hstays) (by simp)
        · exact ⟨enter, (if_pos hinput).trans hsent, henter⟩
      · intro hfull
        exact absurd (hinput.symm.trans hfull) (by simp)
    · -- No entry.
      constructor
      · intro hswitched
        obtain ⟨hlocal, hafter⟩ := CaptureOutcome.switched_iff.mp hswitched
        have hstays := (handle_of_not_crosses lib hcross hlocal).1
        exact absurd (hafter.symm.trans hstays) (by simp)
      · intro _ hlocal
        obtain ⟨hstays, hfrozen, hpass⟩ := handle_of_not_crosses lib hcross hlocal
        exact ⟨hstays, hfrozen, if_pos hpass⟩

/-- A motion to the edge with a full channel. -/
theorem entered_unannounced :
    (callback .constant (CallbackState.start 100 100 : CallbackState ℤ)
        (.at captureCapacity (.mouseMove 99 50) false true)).2.switched = true ∧
      ¬ Announced .constant (CallbackState.start 100 100 : CallbackState ℤ)
        (.at captureCapacity (.mouseMove 99 50) false true) := by
  have hswitched : (callback .constant (CallbackState.start 100 100 : CallbackState ℤ)
      (.at captureCapacity (.mouseMove 99 50) false true)).2.switched = true := by
    decide +kernel
  refine ⟨hswitched, fun h => ?_⟩
  obtain ⟨enter, hsent, -⟩ := h.entered hswitched
  exact absurd hsent (by simp [callback, CaptureInput.at])

end Announcement

end SuperShare
