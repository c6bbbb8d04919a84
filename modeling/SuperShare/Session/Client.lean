import SuperShare.Input.WarpCapture

/-!
# A server and one client

The capture callback of the server puts events on a channel, from which the forwarder sends them
to the client: an entry on the control connection, everything else on the data connection. The
client has one virtual cursor, which the control loop sets at an entry and the injecting task
moves at a delta. At its left edge the client asks to return, and the server sets `exit_remote`.
Each connection delivers in order, and nothing orders the two. Events carry the number of the
remote session in which they were captured, which no step of the code reads.
-/

namespace SuperShare

variable {α φ κ : Type}

/-- The screen of a client, which has at least one pixel. -/
structure ClientScreen where
  width : ℕ
  height : ℕ
  width_pos : 0 < width
  height_pos : 0 < height

/-- A screen of 200 by 100 pixels. -/
def ClientScreen.wide : ClientScreen := ⟨200, 100, by decide, by decide⟩

namespace ClientScreen

variable [NatCast φ] [Zero φ] [Add φ] [LinearOrder φ]

/-- The cursor at an entry: the given column, at the vertical center. -/
def enter (screen : ClientScreen) (enterX : φ) : φ × φ := (enterX, (screen.height / 2 : ℕ))

/-- Apply a delta to the cursor, and say whether it hit the left edge. -/
def applyDelta (screen : ClientScreen) (cursor delta : φ × φ) : (φ × φ) × Bool :=
  let x := cursor.1 + delta.1
  let y := cursor.2 + delta.2
  let hitLeft := decide (x ≤ 0)
  ((if hitLeft then 0 else max 0 (min x (screen.width - 1 : ℕ)),
    max 0 (min y (screen.height - 1 : ℕ))), hitLeft)

end ClientScreen

/-- The server's capture, the connections to one client, and the client. -/
structure RemoteSystem (α φ : Type) where
  callback : CallbackState α
  /-- The flag `exit_remote`. -/
  exitRemote : Bool
  /-- The channel of captured events. -/
  captured : List (ℕ × WarpInputEvent φ)
  /-- The control connection to the client. -/
  control : List (ℕ × WarpInputEvent φ)
  /-- The data connection to the client. -/
  data : List (ℕ × WarpInputEvent φ)
  /-- The data connection from the client: each `BoundaryLeave`, with the session of the delta
  that caused it. -/
  leaves : List ℕ
  /-- The virtual cursor of the client. -/
  cursor : φ × φ
  /-- How many sessions have begun. -/
  session : ℕ
  /-- The column at which a session enters, once its entry is captured. -/
  enterX : ℕ → Option φ
  /-- The deltas captured, with their sessions, the oldest first. -/
  motions : List (ℕ × (φ × φ))
  /-- The sessions whose entry the client has processed, the newest first. -/
  entered : List ℕ
  /-- The deltas that the client has processed, with their sessions, the oldest first. -/
  applied : List (ℕ × (φ × φ))
  /-- The sessions of the requests that have set the flag since the callback cleared it. -/
  setters : List ℕ

/-- What happens to the server and the client. -/
inductive RemoteEvent (α κ : Type) where
  /-- An input event reaches the callback. -/
  | input (event : EventType α κ) (hasClient room : Bool)
  /-- The forwarder sends the next captured event. -/
  | forward
  /-- The control loop of the client receives a message. -/
  | deliverControl
  /-- The injecting task of the client receives a message. -/
  | deliverData
  /-- The server receives a `BoundaryLeave`. -/
  | deliverLeave

/-- The column of an entry. -/
def WarpInputEvent.enterColumn : WarpInputEvent φ → Option φ
  | boundaryEnter enterX _ => some enterX
  | _ => none

/-- The relative motion of an event. -/
def WarpInputEvent.motion : WarpInputEvent φ → Option (φ × φ)
  | mouseDelta dx dy => some (dx, dy)
  | _ => none

/-- The deltas among messages. -/
def deltasOf (messages : List (ℕ × WarpInputEvent φ)) : List (ℕ × (φ × φ)) :=
  messages.filterMap fun m => m.2.motion.map fun delta => (m.1, delta)

/-- The deltas of two stretches of messages are the deltas of both. -/
theorem deltasOf_append (first second : List (ℕ × WarpInputEvent φ)) :
    deltasOf (first ++ second) = deltasOf first ++ deltasOf second :=
  List.filterMap_append

namespace RemoteSystem

section Steps

variable [NatCast φ] [Zero φ] [Add φ] [LinearOrder φ]

/-- The forwarder sends an entry to the control connection and a delta to the data connection.
Everything else it sends only while the cursor is on the client screen. -/
def forward (s : RemoteSystem α φ) : RemoteSystem α φ :=
  match s.captured with
  | [] => s
  | (k, event) :: captured =>
      match event with
      | .boundaryEnter .. =>
          { s with captured := captured, control := s.control ++ [(k, event)] }
      | .mouseDelta .. => { s with captured := captured, data := s.data ++ [(k, event)] }
      | .mouseButton .. | .keyPress .. | .scroll .. =>
          if s.callback.isRemote then
            { s with captured := captured, data := s.data ++ [(k, event)] }
          else { s with captured := captured }

/-- The control loop moves the cursor to the entry. -/
def deliverControl (screen : ClientScreen) (s : RemoteSystem α φ) : RemoteSystem α φ :=
  match s.control with
  | [] => s
  | (k, .boundaryEnter enterX _) :: control =>
      { s with control := control, cursor := screen.enter enterX, entered := k :: s.entered }
  | _ :: control => { s with control := control }

/-- The injecting task applies a delta, and asks to return when it hits the left edge. Buttons,
keys and the wheel leave the cursor alone. -/
def deliverData (screen : ClientScreen) (s : RemoteSystem α φ) : RemoteSystem α φ :=
  match s.data with
  | [] => s
  | (k, .mouseDelta dx dy) :: data =>
      let (cursor, hitLeft) := screen.applyDelta s.cursor (dx, dy)
      { s with
        data := data
        cursor := cursor
        leaves := if hitLeft then s.leaves ++ [k] else s.leaves
        applied := s.applied ++ [(k, (dx, dy))] }
  | _ :: data => { s with data := data }

/-- A `BoundaryLeave` sets the flag. -/
def deliverLeave (s : RemoteSystem α φ) : RemoteSystem α φ :=
  match s.leaves with
  | [] => s
  | k :: leaves => { s with leaves := leaves, exitRemote := true, setters := k :: s.setters }

variable [CursorNumber α φ]

/-- The callback handles an event, and clears the flag at its exit check. -/
def capture (lib : KeyLib κ) (s : RemoteSystem α φ) (event : EventType α κ)
    (hasClient room : Bool) : RemoteSystem α φ :=
  let (callback, outcome) := SuperShare.callback lib s.callback
    ⟨event, s.exitRemote, hasClient, room⟩
  let session := if outcome.switched then s.session + 1 else s.session
  { s with
    callback := callback
    exitRemote := false
    captured := s.captured ++ (outcome.emitted.map fun e => (session, e)).toList
    session := session
    enterX := if outcome.switched then
        Function.update s.enterX session (outcome.emitted.bind WarpInputEvent.enterColumn)
      else s.enterX
    motions := s.motions ++ deltasOf (outcome.emitted.map fun e => (session, e)).toList
    setters := [] }

/-- The state after an event. -/
def step (lib : KeyLib κ) (screen : ClientScreen) (s : RemoteSystem α φ) :
    RemoteEvent α κ → RemoteSystem α φ
  | .input event hasClient room => s.capture lib event hasClient room
  | .forward => s.forward
  | .deliverControl => s.deliverControl screen
  | .deliverData => s.deliverData screen
  | .deliverLeave => s.deliverLeave

/-- The capture starts, and the cursor of the client is in the middle of its screen. -/
def start (screenWidth screenHeight : UInt32) (screen : ClientScreen) : RemoteSystem α φ where
  callback := .start screenWidth screenHeight
  exitRemote := false
  captured := []
  control := []
  data := []
  leaves := []
  cursor := ((screen.width / 2 : ℕ), (screen.height / 2 : ℕ))
  session := 0
  enterX := fun _ => none
  motions := []
  entered := []
  applied := []
  setters := []

end Steps

end RemoteSystem

end SuperShare
