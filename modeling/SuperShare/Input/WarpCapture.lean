import Mathlib.Algebra.Order.Ring.Rat
import SuperShare.Core.Protocol
import SuperShare.Lib.Run

/-!
# The capture callback

The callback of `start_capture`, which decides for each input event of the server whether it
passes to the local machine or is suppressed, and what is sent to the client. Other tasks
set and clear `exit_remote` and `has_client` between the events. Positions are numbers with
the operations that the callback uses, so that the same text serves floats and integers.
-/

namespace SuperShare

/-- The operations on `f64` that the callback uses, with `φ` for the `f32` it forwards. -/
class CursorNumber (α : Type) (φ : outParam Type) where
  ofNat : ℕ → α
  add : α → α → α
  sub : α → α → α
  clamp : α → α → α → α
  ge : α → α → Bool
  ne : α → α → Bool
  toF32 : α → φ
  /-- The conversion of a wheel delta, an `i64`. -/
  ofWheel : ℤ → φ

/-- Exact integers. -/
instance : CursorNumber ℤ ℤ where
  ofNat n := n
  add x y := x + y
  sub x y := x - y
  clamp x lo hi := max lo (min x hi)
  ge x y := x ≥ y
  ne x y := x ≠ y
  toF32 x := x
  ofWheel x := x

/-- The rationals, as exact coordinates. -/
instance : CursorNumber ℚ ℚ where
  ofNat n := n
  add x y := x + y
  sub x y := x - y
  clamp x lo hi := max lo (min x hi)
  ge x y := x ≥ y
  ne x y := x ≠ y
  toF32 x := x
  ofWheel x := x

/-- Mouse buttons as rdev reports them. -/
inductive RdevButton where
  | left | right | middle
  | unknown (code : UInt8)
  deriving DecidableEq, Repr

/-- Input events as rdev reports them, with `κ` for its keys. -/
inductive EventType (α κ : Type) where
  | mouseMove (x y : α)
  | buttonPress (button : RdevButton)
  | buttonRelease (button : RdevButton)
  | wheel (deltaX deltaY : ℤ)
  | keyPress (key : κ)
  | keyRelease (key : κ)

/-- A captured input event. -/
inductive WarpInputEvent (φ : Type) where
  | mouseDelta (dx dy : φ)
  | mouseButton (button : Button) (pressed : Bool)
  | keyPress (keycode : UInt32) (pressed : Bool)
  | scroll (dx dy : φ)
  | boundaryEnter (enterX enterY : φ)
  deriving DecidableEq

/-- The event says that the cursor has crossed into a client screen. -/
def WarpInputEvent.isEnter {φ : Type} : WarpInputEvent φ → Bool
  | boundaryEnter .. => true
  | _ => false

/-- Map an rdev button to a protocol button. -/
def mapButton : RdevButton → Option Button
  | .left => some .left
  | .right => some .right
  | .middle => some .middle
  | .unknown _ => none

/-- What the keycodes are made from. -/
structure KeyLib (κ : Type) where
  /-- The debug format of a key. -/
  debugName : κ → String
  blake3 : List UInt8 → Vector UInt8 32

/-- The keycode of a key: the first four bytes of the hash of its name. -/
def KeyLib.keyToU32 {κ : Type} (lib : KeyLib κ) (key : κ) : UInt32 :=
  UInt32.ofNat (ByteCodec.leValue
    ((lib.blake3 (lib.debugName key).toByteArray.data.toList).toList.take 4))

/-- A constant hash, for runs in which no keycode matters. -/
def KeyLib.constant : KeyLib String where
  debugName key := key
  blake3 _ := .replicate 32 0

/-- Shared state of the callback. -/
structure CallbackState (α : Type) where
  screenWidth : α
  screenHeight : α
  /-- Previous position reported by rdev. -/
  prevX : α
  prevY : α
  prevInitialized : Bool
  /-- Logical cursor position on the server screen. -/
  posX : α
  posY : α
  /-- Logical position where the cursor was frozen when entering remote mode. -/
  frozenX : α
  frozenY : α
  isRemote : Bool

/-- An event, with what the callback finds when it runs. -/
structure CaptureInput (α κ : Type) where
  event : EventType α κ
  /-- `exit_remote` is set; the callback clears it. -/
  exitRequested : Bool
  hasClient : Bool
  /-- The forwarding channel has room for one more event. -/
  room : Bool

/-- What the callback did with an event. -/
structure CaptureOutcome (α κ φ : Type) where
  input : CaptureInput α κ
  /-- The mode after the exit check, in which the event is handled. -/
  remote : Bool
  /-- The event, if it passes to the local machine. -/
  passed : Option (EventType α κ)
  /-- The event put on the forwarding channel. -/
  emitted : Option (WarpInputEvent φ)
  /-- The mode when the callback returns. -/
  remoteAfter : Bool

variable {α φ κ : Type}

/-- The mode switched from local to remote while the event was handled. -/
def CaptureOutcome.switched (o : CaptureOutcome α κ φ) : Bool := !o.remote && o.remoteAfter

/-- The events put on the forwarding channel in a run. -/
def emittedTrace (outcomes : List (CaptureOutcome α κ φ)) : List (WarpInputEvent φ) :=
  outcomes.filterMap CaptureOutcome.emitted

/-- The events of one remote session: the entry, and then no other. -/
def IsSession (session : List (WarpInputEvent φ)) : Prop :=
  ∃ enter rest, session = enter :: rest ∧ enter.isEnter = true ∧ ∀ e ∈ rest, e.isEnter = false

/-- What is forwarded with one event comes before the rest. -/
theorem emittedTrace_cons (o : CaptureOutcome α κ φ) (outcomes : List (CaptureOutcome α κ φ)) :
    emittedTrace (o :: outcomes) = o.emitted.toList ++ emittedTrace outcomes := by
  cases hemitted : o.emitted <;> simp [emittedTrace, hemitted]

/-- An event handled in local mode after which the mode is remote has switched it. -/
theorem CaptureOutcome.switched_iff {o : CaptureOutcome α κ φ} :
    o.switched = true ↔ o.remote = false ∧ o.remoteAfter = true := by
  simp [CaptureOutcome.switched]

variable [CursorNumber α φ]

open CursorNumber

/-- The state when the capture starts. -/
def CallbackState.start (screenWidth screenHeight : UInt32) : CallbackState α where
  screenWidth := ofNat screenWidth.toNat
  screenHeight := ofNat screenHeight.toNat
  prevX := ofNat 0
  prevY := ofNat 0
  prevInitialized := false
  posX := ofNat (screenWidth / 2).toNat
  posY := ofNat (screenHeight / 2).toNat
  frozenX := ofNat 0
  frozenY := ofNat 0
  isRemote := false

/-- Leave remote mode when requested, or when the client went away while remote. -/
def CallbackState.checkExit (s : CallbackState α) (exitRequested hasClient : Bool) :
    CallbackState α :=
  let clientGone := s.isRemote && !hasClient
  if (exitRequested || clientGone) && s.isRemote then
    { s with isRemote := false, posX := s.frozenX, posY := s.frozenY }
  else s

/-- The delta of a reported position and the state that has tracked it. The first position
only synchronises the logical one. -/
def CallbackState.track (s : CallbackState α) (x y : α) : α × α × CallbackState α :=
  let (dx, dy, posX, posY) :=
    if s.prevInitialized then (sub x s.prevX, sub y s.prevY, s.posX, s.posY)
    else (ofNat 0, ofNat 0, x, y)
  (dx, dy,
    { s with
      prevInitialized := true
      prevX := x
      prevY := y
      posX := clamp (add posX dx) (ofNat 0) s.screenWidth
      posY := clamp (add posY dy) (ofNat 0) s.screenHeight })

/-- Handle an event in the mode that the exit check left: the state, whether the event passes
to the local machine, and what is sent. -/
def CallbackState.handle (lib : KeyLib κ) (hasClient : Bool) (s : CallbackState α) :
    EventType α κ → CallbackState α × Bool × Option (WarpInputEvent φ)
  | .mouseMove x y =>
      let (dx, dy, tracked) := s.track x y
      if s.isRemote then
        if ne dx (ofNat 0) || ne dy (ofNat 0) then
          (tracked, false, some (.mouseDelta (toF32 dx) (toF32 dy)))
        else (tracked, false, none)
      else if ge tracked.posX (sub s.screenWidth (ofNat 1)) && hasClient then
        ({ tracked with isRemote := true, frozenX := tracked.posX, frozenY := tracked.posY },
          false, some (.boundaryEnter (toF32 (ofNat 6 : α)) (toF32 tracked.posY)))
      else (tracked, true, none)
  | .buttonPress button =>
      if s.isRemote then (s, false, (mapButton button).map fun b => .mouseButton b true)
      else (s, true, none)
  | .buttonRelease button =>
      if s.isRemote then (s, false, (mapButton button).map fun b => .mouseButton b false)
      else (s, true, none)
  | .wheel deltaX deltaY =>
      if s.isRemote then
        (s, false, some (.scroll (ofWheel (α := α) deltaX) (ofWheel (α := α) deltaY)))
      else (s, true, none)
  | .keyPress key =>
      if s.isRemote then (s, false, some (.keyPress (lib.keyToU32 key) true))
      else (s, true, none)
  | .keyRelease key =>
      if s.isRemote then (s, false, some (.keyPress (lib.keyToU32 key) false))
      else (s, true, none)

/-- The callback on one event. -/
def callback (lib : KeyLib κ) (s : CallbackState α) (input : CaptureInput α κ) :
    CallbackState α × CaptureOutcome α κ φ :=
  let checked := s.checkExit input.exitRequested input.hasClient
  let (s', pass, sent) := checked.handle lib input.hasClient input.event
  (s', {
    input := input
    remote := checked.isRemote
    passed := if pass then some input.event else none
    emitted := if input.room then sent else none
    remoteAfter := s'.isRemote })

/-- What the callback did in a run. -/
def capture (lib : KeyLib κ) (s : CallbackState α) (inputs : List (CaptureInput α κ)) :
    List (CaptureOutcome α κ φ) :=
  Run.outputs (callback lib) s inputs

variable {s : CallbackState α}

/-- Without a client the exit check leaves local mode. -/
theorem checkExit_isRemote_of_no_client (exitRequested : Bool) :
    (s.checkExit exitRequested false).isRemote = false := by
  unfold CallbackState.checkExit
  cases hremote : s.isRemote <;> simp [hremote]

/-- The exit check never enters remote mode. -/
theorem isRemote_of_checkExit {exitRequested hasClient : Bool}
    (h : (s.checkExit exitRequested hasClient).isRemote = true) : s.isRemote = true := by
  unfold CallbackState.checkExit at h
  simp only at h
  split at h
  · exact absurd h Bool.false_ne_true
  · exact h

/-- The exit check goes back to the frozen position when it leaves remote mode, and else changes
nothing. -/
theorem checkExit_cases (s : CallbackState α) (exitRequested hasClient : Bool) :
    s.checkExit exitRequested hasClient = s ∨
      s.isRemote = true ∧ s.checkExit exitRequested hasClient =
        { s with isRemote := false, posX := s.frozenX, posY := s.frozenY } := by
  unfold CallbackState.checkExit
  simp only
  split
  · rename_i hexit
    exact Or.inr ⟨(Bool.and_eq_true_iff.mp hexit).2, rfl⟩
  · exact Or.inl rfl

/-- In local mode the exit check does nothing. -/
theorem checkExit_of_local (h : s.isRemote = false) (exitRequested hasClient : Bool) :
    s.checkExit exitRequested hasClient = s := by
  rcases checkExit_cases s exitRequested hasClient with hsame | ⟨hremote, -⟩
  · exact hsame
  · exact absurd (h.symm.trans hremote) Bool.false_ne_true

/-- The exit check leaves the tracking of reported positions alone. -/
theorem checkExit_prev (s : CallbackState α) (exitRequested hasClient : Bool) :
    (s.checkExit exitRequested hasClient).prevX = s.prevX ∧
      (s.checkExit exitRequested hasClient).prevY = s.prevY ∧
      (s.checkExit exitRequested hasClient).prevInitialized = s.prevInitialized := by
  rcases checkExit_cases s exitRequested hasClient with h | ⟨-, h⟩
  · rw [h]
    exact ⟨rfl, rfl, rfl⟩
  · rw [h]
    exact ⟨rfl, rfl, rfl⟩

/-- An event other than a motion leaves the state alone, and passes in local mode. -/
theorem handle_other (lib : KeyLib κ) (hasClient : Bool) (s : CallbackState α)
    {event : EventType α κ} (hevent : ∀ x y, event ≠ .mouseMove x y) :
    (s.handle lib hasClient event).1 = s ∧ (s.handle lib hasClient event).2.1 = !s.isRemote := by
  cases event with
  | mouseMove x y => exact absurd rfl (hevent x y)
  | _ => cases hremote : s.isRemote <;> simp [CallbackState.handle, hremote]

/-- No event changes the size of the screen. -/
theorem callback_screen (lib : KeyLib κ) (s : CallbackState α) (input : CaptureInput α κ) :
    ((callback lib s input).1.screenWidth, (callback lib s input).1.screenHeight) =
      (s.screenWidth, s.screenHeight) := by
  have hchecked : ((s.checkExit input.exitRequested input.hasClient).screenWidth,
      (s.checkExit input.exitRequested input.hasClient).screenHeight) =
        (s.screenWidth, s.screenHeight) := by
    rcases checkExit_cases s input.exitRequested input.hasClient with h | ⟨-, h⟩ <;> rw [h]
  rw [← hchecked]
  simp only [callback]
  cases hevent : input.event with
  | mouseMove x y =>
    simp only [CallbackState.handle]
    split <;> split <;> rfl
  | _ => rw [(handle_other lib input.hasClient _ (by simp)).1]

/-- An event is handled in one of three ways: it is suppressed and perhaps forwarded in remote
mode, it passes in local mode, or it crosses the edge and is replaced by the entry. -/
theorem handle_cases (lib : KeyLib κ) (hasClient : Bool) (s : CallbackState α)
    (event : EventType α κ) :
    let r := s.handle lib hasClient event
    (s.isRemote = true ∧ r.1.isRemote = true ∧ r.2.1 = false ∧ ∀ e ∈ r.2.2, e.isEnter = false) ∨
      (s.isRemote = false ∧ r.1.isRemote = false ∧ r.2.1 = true ∧ r.2.2 = none) ∨
      (s.isRemote = false ∧ hasClient = true ∧ r.1.isRemote = true ∧ r.2.1 = false ∧
        ∃ enter, r.2.2 = some enter ∧ enter.isEnter = true) := by
  intro r
  cases hremote : s.isRemote with
  | true =>
    refine .inl ⟨rfl, ?_⟩
    cases event with
    | mouseMove x y =>
      simp only [r, CallbackState.handle, hremote, if_true]
      split
      · exact ⟨hremote, rfl, by simp [WarpInputEvent.isEnter]⟩
      · exact ⟨hremote, rfl, by simp⟩
    | _ => simp [r, CallbackState.handle, hremote, WarpInputEvent.isEnter]
  | false =>
    refine .inr ?_
    cases event with
    | mouseMove x y =>
      simp only [r, CallbackState.handle, hremote, Bool.false_eq_true, if_false]
      split
      · rename_i hcross
        exact .inr ⟨trivial, (Bool.and_eq_true_iff.mp hcross).2, rfl, rfl, _, rfl, rfl⟩
      · exact .inl ⟨trivial, hremote, rfl, rfl⟩
    | _ => simp [r, CallbackState.handle, hremote]

/-- What the callback does with one event: it passes exactly if the mode is local afterwards,
what is forwarded does not pass, and without a client everything passes. -/
structure Exclusive (o : CaptureOutcome α κ φ) : Prop where
  suppressed : o.passed = none ↔ o.remoteAfter = true
  forwarded : o.emitted ≠ none → o.passed = none
  noClient : o.input.hasClient = false →
    o.remoteAfter = false ∧ o.passed = some o.input.event

/-- Every reaction of the callback is of this kind. -/
theorem exclusive_callback (lib : KeyLib κ) (s : CallbackState α) (input : CaptureInput α κ) :
    Exclusive (callback lib s input).2 := by
  have hcases := handle_cases lib input.hasClient (s.checkExit input.exitRequested input.hasClient)
    input.event
  rcases hcases with ⟨hremote, hafter, hpass, hsent⟩ | ⟨-, hafter, hpass, hsent⟩ |
    ⟨-, hclient, hafter, hpass, enter, hsent, -⟩
  · constructor
    · simp [callback, hpass, hafter]
    · intro _
      simp [callback, hpass]
    · intro hnone
      rw [show input.hasClient = false from hnone, checkExit_isRemote_of_no_client] at hremote
      exact absurd hremote Bool.false_ne_true
  · constructor
    · simp [callback, hpass, hafter]
    · simp [callback, hsent]
    · simp [callback, hpass, hafter]
  · constructor
    · simp [callback, hpass, hafter]
    · intro _
      simp [callback, hpass]
    · intro hnone
      exact absurd (hclient.symm.trans hnone) (by simp)

/-- What was forwarded in a run, while the channel has room: what belongs to a session that
was under way at the start, and then one session for each switch to remote mode. -/
theorem sessions_of_capture (lib : KeyLib κ) (s : CallbackState α)
    {inputs : List (CaptureInput α κ)} (hroom : ∀ input ∈ inputs, input.room = true) :
    ∃ (first : List (WarpInputEvent φ)) (sessions : List (List (WarpInputEvent φ))),
      emittedTrace (capture lib s inputs) = first ++ sessions.flatten ∧
      (∀ e ∈ first, e.isEnter = false) ∧ (s.isRemote = false → first = []) ∧
      (∀ session ∈ sessions, IsSession session) ∧
      sessions.length = (capture lib s inputs).countP CaptureOutcome.switched := by
  induction inputs generalizing s with
  | nil => exact ⟨[], [], rfl, by simp, fun _ => rfl, by simp, rfl⟩
  | cons input inputs ih =>
    obtain ⟨hinput, hinputs⟩ := List.forall_mem_cons.mp hroom
    obtain ⟨first, sessions, htrace, hfirst, hlocal, hsessions, hcount⟩ :=
      ih (callback lib s input).1 hinputs
    have hrun : capture lib s (input :: inputs) =
        (callback lib s input).2 :: capture lib (callback lib s input).1 inputs := rfl
    have hsent : (callback lib s input).2.emitted =
        ((s.checkExit input.exitRequested input.hasClient).handle lib input.hasClient
          input.event).2.2 := if_pos hinput
    rw [hrun, emittedTrace_cons, hsent, List.countP_cons, htrace]
    rcases handle_cases lib input.hasClient (s.checkExit input.exitRequested input.hasClient)
      input.event with ⟨hremote, hafter, -, hnone⟩ | ⟨hremote, hafter, -, hnone⟩ |
      ⟨hremote, -, hafter, -, enter, hsome, henter⟩
    · -- Remote: what is forwarded continues the session under way.
      have hswitch : (callback lib s input).2.switched = false := by
        simp [CaptureOutcome.switched, callback, hremote]
      rw [hswitch]
      refine ⟨_, sessions, (List.append_assoc ..).symm, ?_, ?_, hsessions, hcount⟩
      · intro e he
        rcases List.mem_append.mp he with he | he
        · exact hnone e (Option.mem_toList.mp he)
        · exact hfirst e he
      · intro hstart
        rw [isRemote_of_checkExit hremote] at hstart
        exact absurd hstart (by simp)
    · -- Local: nothing is forwarded.
      have hswitch : (callback lib s input).2.switched = false := by
        simp [CaptureOutcome.switched, callback, hafter]
      rw [hswitch, hnone]
      have hnil : first = [] := hlocal hafter
      subst hnil
      exact ⟨[], sessions, rfl, by simp, fun _ => rfl, hsessions, hcount⟩
    · -- Across the edge: the entry starts a session.
      have hswitch : (callback lib s input).2.switched = true := by
        simp [CaptureOutcome.switched, callback, hremote, hafter]
      rw [hswitch, hsome]
      refine ⟨[], (enter :: first) :: sessions, by simp, by simp, fun _ => rfl, ?_, ?_⟩
      · intro session hsession
        rcases List.mem_cons.mp hsession with rfl | hsession
        · exact ⟨enter, first, rfl, henter, hfirst⟩
        · exact hsessions session hsession
      · simpa using hcount

/-- **Exclusive capture.** In every run, from any state, each event is suppressed exactly if the
mode is remote when the callback returns, nothing is both forwarded and passed, and without a
client the event passes and the mode is local. In a run from the start in which the channel
has room, what is forwarded is a sequence of sessions, one for each switch to remote mode. -/
theorem capture_exclusive (lib : KeyLib κ) (s : CallbackState α)
    (inputs : List (CaptureInput α κ)) :
    (∀ o ∈ capture lib s inputs, Exclusive o) ∧
      (s.isRemote = false → (∀ input ∈ inputs, input.room = true) →
        ∃ sessions : List (List (WarpInputEvent φ)),
          emittedTrace (capture lib s inputs) = sessions.flatten ∧
          (∀ session ∈ sessions, IsSession session) ∧
          sessions.length = (capture lib s inputs).countP CaptureOutcome.switched) := by
  constructor
  · exact Run.forall_outputs (fun _ => True)
      (fun s input _ _ => ⟨trivial, exclusive_callback lib s input⟩) trivial fun _ _ => trivial
  · intro hlocal hroom
    obtain ⟨first, sessions, htrace, -, hfirst, hsessions, hcount⟩ :=
      sessions_of_capture lib s hroom
    rw [hfirst hlocal, List.nil_append] at htrace
    exact ⟨sessions, htrace, hsessions, hcount⟩

end SuperShare
