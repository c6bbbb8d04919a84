import SuperShare.Core.Protocol
import SuperShare.Lib.Run
import Mathlib.Logic.Function.Basic

/-!
# The server's connection handlers

The tasks that the server spawns for control and data connections, the maps they share and
the task that follows their notifications. Every step is one section of a handler between
two waits, and the steps of all handlers come in any order. Sessions, calls of the client's
`connect`, have names in a type `ι`: the control and the data connection `i` are those of one
session, and a channel sender is named by the connection it feeds.
-/

namespace SuperShare

variable {ι : Type}

/-- What a handler keeps of the `Handshake` message. -/
structure Hello where
  name : String
  screenWidth : UInt32
  screenHeight : UInt32
  deriving DecidableEq, Repr

/-- The handshake that a control connection accepts: `none` is an early return. -/
def Hello.ofControl : Option Message → Option Hello
  | some (.handshake version name screenWidth screenHeight) =>
      if version ≠ 1 then none else some ⟨name, screenWidth, screenHeight⟩
  | _ => none

/-- The name that a data connection presents. Its version is not checked. -/
def dataName : Option Message → Option String
  | some (.handshake _ name _ _) => some name
  | _ => none

/-- A connected client with its control and data channels. -/
structure ConnectedClient (ι : Type) where
  name : String
  /-- The control connection that `control_tx` feeds. -/
  controlTx : ι
  /-- The data connection that `data_tx` feeds. -/
  dataTx : ι
  screenWidth : UInt32
  screenHeight : UInt32
  deriving DecidableEq, Repr

/-- Notifications of the server. -/
inductive ServerEvent where
  | clientConnected (name : String)
  | clientDisconnected (name : String)
  | clientPaired (name : String)
  deriving DecidableEq, Repr

/-- Where a `handle_control_connection` task stands. -/
inductive ControlPhase where
  /-- Waiting for the `Handshake`. -/
  | accepted
  /-- Writing the `ScreenConfig`. -/
  | configuring (hello : Hello)
  /-- Polling `pending_data`, with the attempts so far. -/
  | waiting (hello : Hello) (attempts : ℕ)
  /-- In the clients map, not yet announced. -/
  | registered (name : String)
  /-- In the main message loop. -/
  | connected (name : String)
  /-- Out of the main message loop, not yet cleaned up. -/
  | leaving (name : String)
  /-- Removed from the clients map, not yet announced. -/
  | removed (name : String)
  /-- Finished after its cleanup. -/
  | closed
  /-- Returned early: no valid handshake, or the `ScreenConfig` was not written. -/
  | refused
  /-- Returned early: `Timeout waiting for data channel`. -/
  | gaveUp
  deriving DecidableEq, Repr

/-- Where a `handle_data_connection` task stands. -/
inductive DataPhase where
  | accepted
  | reading (name : String)
  | closed
  deriving DecidableEq, Repr

/-- The name under which a fully connected handler stands that has not run its cleanup. -/
def ControlPhase.liveName : ControlPhase → Option String
  | registered name => some name
  | connected name => some name
  | leaving name => some name
  | _ => none

/-- The name of a handler that has announced its client and has not run its cleanup. -/
def ControlPhase.announcedName : ControlPhase → Option String
  | connected name => some name
  | leaving name => some name
  | _ => none

/-- The name of a handler that is about to run its cleanup. -/
def ControlPhase.leavingName : ControlPhase → Option String
  | leaving name => some name
  | _ => none

/-- The name of a handler that has run its cleanup and not announced it. -/
def ControlPhase.removedName : ControlPhase → Option String
  | removed name => some name
  | _ => none

/-- The handler has changed the map of clients and not announced it. -/
def ControlPhase.owesEvent : ControlPhase → Bool
  | registered _ | removed _ => true
  | _ => false

/-- The handler has registered a client, now or before. -/
def ControlPhase.hasRegistered : ControlPhase → Bool
  | accepted | configuring _ | waiting _ _ | refused | gaveUp => false
  | registered _ | connected _ | leaving _ | removed _ | closed => true

/-- A handler that is live has registered a client. -/
theorem ControlPhase.liveName_eq_none {phase : ControlPhase}
    (h : phase.hasRegistered = false) : phase.liveName = none := by
  cases phase <;> first | rfl | exact absurd h (by simp [hasRegistered])

/-- The shared state of the server, its handlers and its event task. -/
structure Server (ι : Type) where
  control : ι → ControlPhase
  data : ι → DataPhase
  /-- `pending_data`: the data connection that waits under a name. -/
  pendingData : String → Option ι
  /-- `ServerState.clients`. -/
  clients : String → Option (ConnectedClient ι)
  /-- Every client ever put in the map, the newest first. No step reads it. -/
  registrations : List (ConnectedClient ι)
  /-- `broadcast_rx`: messages received from clients. -/
  broadcast : List (String × Message)
  /-- `notify_tx`: notifications that the event task has not processed. -/
  notifications : List ServerEvent
  /-- The event task fell behind the capacity of `notify_tx` and has stopped. -/
  lagged : Bool
  /-- Names in `connected_clients`. -/
  connectedClients : List String
  hasClient : Bool

namespace Server

/-- The server when its listeners start. -/
def start : Server ι where
  control := fun _ => .accepted
  data := fun _ => .accepted
  pendingData := fun _ => none
  clients := fun _ => none
  registrations := []
  broadcast := []
  notifications := []
  lagged := false
  connectedClients := []
  hasClient := false

/-- Capacity of the `notify_tx` channel. -/
def notifyCapacity : ℕ := 64

/-- Send on `notify_tx`. A full channel drops its oldest value; the receiver then gets an
error instead of a value, which ends the `while let Ok` loop of the event task. -/
def notify (s : Server ι) (event : ServerEvent) : Server ι :=
  if s.notifications.length < notifyCapacity then
    { s with notifications := s.notifications ++ [event] }
  else { s with notifications := s.notifications.tail ++ [event], lagged := true }

/-- Only the event task's fields change when a notification is sent. -/
@[simp] theorem notify_control (s : Server ι) (event : ServerEvent) :
    (s.notify event).control = s.control := by
  unfold notify
  split <;> rfl

@[simp] theorem notify_data (s : Server ι) (event : ServerEvent) :
    (s.notify event).data = s.data := by
  unfold notify
  split <;> rfl

@[simp] theorem notify_pendingData (s : Server ι) (event : ServerEvent) :
    (s.notify event).pendingData = s.pendingData := by
  unfold notify
  split <;> rfl

@[simp] theorem notify_clients (s : Server ι) (event : ServerEvent) :
    (s.notify event).clients = s.clients := by
  unfold notify
  split <;> rfl

@[simp] theorem notify_registrations (s : Server ι) (event : ServerEvent) :
    (s.notify event).registrations = s.registrations := by
  unfold notify
  split <;> rfl

/-- The event task handles one notification. -/
def handleEvent (s : Server ι) : ServerEvent → Server ι
  | .clientConnected name =>
      { s with connectedClients := s.connectedClients ++ [name], hasClient := true }
  | .clientDisconnected name =>
      let left := s.connectedClients.filter (· ≠ name)
      { s with connectedClients := left, hasClient := if left.isEmpty then false else s.hasClient }
  | .clientPaired _ => s

/-- The event task does not touch the handlers. -/
@[simp] theorem handleEvent_control (s : Server ι) (event : ServerEvent) :
    (s.handleEvent event).control = s.control := by
  cases event <;> rfl

@[simp] theorem handleEvent_data (s : Server ι) (event : ServerEvent) :
    (s.handleEvent event).data = s.data := by
  cases event <;> rfl

@[simp] theorem handleEvent_pendingData (s : Server ι) (event : ServerEvent) :
    (s.handleEvent event).pendingData = s.pendingData := by
  cases event <;> rfl

@[simp] theorem handleEvent_clients (s : Server ι) (event : ServerEvent) :
    (s.handleEvent event).clients = s.clients := by
  cases event <;> rfl

@[simp] theorem handleEvent_registrations (s : Server ι) (event : ServerEvent) :
    (s.handleEvent event).registrations = s.registrations := by
  cases event <;> rfl

variable [DecidableEq ι]

/-- Move a control handler. -/
def setControl (s : Server ι) (i : ι) (phase : ControlPhase) : Server ι :=
  { s with control := Function.update s.control i phase }

@[simp] theorem setControl_control (s : Server ι) (i : ι) (phase : ControlPhase) :
    (s.setControl i phase).control = Function.update s.control i phase := rfl

/-- The data channel has arrived: take it from `pending_data` and store the client. The lock
on `pending_data` is held until the client is stored. -/
def register (s : Server ι) (i : ι) (hello : Hello) (dataTx : ι) : Server ι :=
  let client : ConnectedClient ι :=
    ⟨hello.name, i, dataTx, hello.screenWidth, hello.screenHeight⟩
  { s with
    control := Function.update s.control i (.registered hello.name)
    pendingData := Function.update s.pendingData hello.name none
    clients := Function.update s.clients hello.name (some client)
    registrations := client :: s.registrations }

@[simp] theorem register_control (s : Server ι) (i : ι) (hello : Hello) (dataTx : ι) :
    (s.register i hello dataTx).control =
      Function.update s.control i (.registered hello.name) := rfl

@[simp] theorem register_registrations (s : Server ι) (i : ι) (hello : Hello) (dataTx : ι) :
    (s.register i hello dataTx).registrations =
      ⟨hello.name, i, dataTx, hello.screenWidth, hello.screenHeight⟩ :: s.registrations := rfl

/-- Attempts to find the data channel before the handler gives up. -/
def maxAttempts : ℕ := 50

/-- One iteration of the loop that waits for the data channel. -/
def pollPending (s : Server ι) (i : ι) (hello : Hello) (attempts : ℕ) : Server ι :=
  match s.pendingData hello.name with
  | some dataTx => s.register i hello dataTx
  | none =>
      if attempts + 1 > maxAttempts then s.setControl i .gaveUp
      else s.setControl i (.waiting hello (attempts + 1))

end Server

/-- What the server does next. A message read is `none` at an error, the end of the stream
or a timeout. -/
inductive ServerStep (ι : Type) where
  /-- A control handler reads the handshake. -/
  | controlHandshake (i : ι) (msg : Option Message)
  /-- It writes the `ScreenConfig`, which may fail. -/
  | screenConfig (i : ι) (written : Bool)
  /-- It looks for its data channel once. -/
  | poll (i : ι)
  /-- It sends `ClientConnected`. -/
  | announce (i : ι)
  /-- It reads in the main message loop. -/
  | controlMessage (i : ι) (msg : Option Message)
  /-- It removes its client. -/
  | cleanup (i : ι)
  /-- It sends `ClientDisconnected` and returns. -/
  | depart (i : ι)
  /-- A data handler reads the handshake and registers its channel as pending. -/
  | dataHandshake (i : ι) (msg : Option Message)
  /-- It reads in its loop. -/
  | dataMessage (i : ι) (msg : Option Message)
  /-- The pairing listener sends `ClientPaired`. -/
  | paired (name : String)
  /-- The event task receives a notification. -/
  | processEvent
  deriving DecidableEq

variable [DecidableEq ι]

/-- One step. A handler that is not at the section in question does nothing. -/
def Server.step (s : Server ι) : ServerStep ι → Server ι
  | .controlHandshake i msg =>
      match s.control i with
      | .accepted =>
          match Hello.ofControl msg with
          | some hello => s.setControl i (.configuring hello)
          | none => s.setControl i .refused
      | _ => s
  | .screenConfig i written =>
      match s.control i with
      | .configuring hello =>
          if written then s.setControl i (.waiting hello 0) else s.setControl i .refused
      | _ => s
  | .poll i =>
      match s.control i with
      | .waiting hello attempts => s.pollPending i hello attempts
      | _ => s
  | .announce i =>
      match s.control i with
      | .registered name => (s.notify (.clientConnected name)).setControl i (.connected name)
      | _ => s
  | .controlMessage i msg =>
      match s.control i with
      | .connected name =>
          match msg with
          | some .heartbeat => s
          | some msg => { s with broadcast := s.broadcast ++ [(name, msg)] }
          | none => s.setControl i (.leaving name)
      | _ => s
  | .cleanup i =>
      match s.control i with
      | .leaving name =>
          { s.setControl i (.removed name) with clients := Function.update s.clients name none }
      | _ => s
  | .depart i =>
      match s.control i with
      | .removed name => (s.notify (.clientDisconnected name)).setControl i .closed
      | _ => s
  | .dataHandshake i msg =>
      match s.data i with
      | .accepted =>
          match dataName msg with
          | some name =>
              { s with
                data := Function.update s.data i (.reading name)
                pendingData := Function.update s.pendingData name (some i) }
          | none => { s with data := Function.update s.data i .closed }
      | _ => s
  | .dataMessage i msg =>
      match s.data i with
      | .reading name =>
          match msg with
          | some msg => { s with broadcast := s.broadcast ++ [(name, msg)] }
          | none => { s with data := Function.update s.data i .closed }
      | _ => s
  | .paired name => s.notify (.clientPaired name)
  | .processEvent =>
      match s.lagged, s.notifications with
      | false, event :: rest => { s with notifications := rest }.handleEvent event
      | _, _ => s

/-- What a step can do to the server, one case for each kind of change. The moves of a handler
that has not registered a client are one case: it only changes where the handler stands, and
the handler starts to wait only after its `ScreenConfig`. -/
inductive Server.Moves (s : Server ι) : ServerStep ι → Server ι → Prop
  | stay (event : ServerStep ι) : Moves s event s
  | early {event : ServerStep ι} {i : ι} {phase : ControlPhase}
      (hfrom : (s.control i).hasRegistered = false) (hto : phase.hasRegistered = false)
      (hwait : ∀ hello attempts, phase = .waiting hello attempts →
        (∃ before, s.control i = .waiting hello before) ∨
          (event = .screenConfig i true ∧ s.control i = .configuring hello)) :
      Moves s event (s.setControl i phase)
  | register {i dataTx : ι} {attempts : ℕ} {hello : Hello}
      (hphase : s.control i = .waiting hello attempts)
      (hpending : s.pendingData hello.name = some dataTx) :
      Moves s (.poll i) (s.register i hello dataTx)
  | announce {i : ι} {name : String} (hphase : s.control i = .registered name) :
      Moves s (.announce i) ((s.notify (.clientConnected name)).setControl i (.connected name))
  | leave {i : ι} {msg : Option Message} {name : String}
      (hphase : s.control i = .connected name) :
      Moves s (.controlMessage i msg) (s.setControl i (.leaving name))
  | cleanup {i : ι} {name : String} (hphase : s.control i = .leaving name) :
      Moves s (.cleanup i)
        { s.setControl i (.removed name) with clients := Function.update s.clients name none }
  | depart {i : ι} {name : String} (hphase : s.control i = .removed name) :
      Moves s (.depart i) ((s.notify (.clientDisconnected name)).setControl i .closed)
  | dataHandshake {i : ι} {msg : Option Message} {name : String}
      (hphase : s.data i = .accepted) (hname : dataName msg = some name) :
      Moves s (.dataHandshake i msg)
        { s with
          data := Function.update s.data i (.reading name)
          pendingData := Function.update s.pendingData name (some i) }
  | dataClose {event : ServerStep ι} {i : ι} :
      Moves s event { s with data := Function.update s.data i .closed }
  | forward {event : ServerStep ι} (message : String × Message) :
      Moves s event { s with broadcast := s.broadcast ++ [message] }
  | paired (name : String) : Moves s (.paired name) (s.notify (.clientPaired name))
  | process {event : ServerEvent} {rest : List ServerEvent} (hlagged : s.lagged = false)
      (hqueue : s.notifications = event :: rest) :
      Moves s .processEvent ({ s with notifications := rest }.handleEvent event)

/-- Every step is one of the moves. -/
theorem Server.moves_step (s : Server ι) (event : ServerStep ι) : s.Moves event (s.step event) := by
  cases event with
  | controlHandshake i msg =>
    cases hphase : s.control i <;> simp only [step, hphase] <;> try exact .stay _
    cases Hello.ofControl msg with
    | none => exact .early (by rw [hphase]; rfl) rfl (by simp)
    | some hello => exact .early (by rw [hphase]; rfl) rfl (by simp)
  | screenConfig i written =>
    cases hphase : s.control i <;> simp only [step, hphase] <;> try exact .stay _
    cases written with
    | false => exact .early (by rw [hphase]; rfl) rfl (by simp)
    | true => exact .early (by rw [hphase]; rfl) rfl (by simp [hphase])
  | poll i =>
    cases hphase : s.control i <;> simp only [step, hphase] <;> try exact .stay _
    rename_i hello attempts
    unfold pollPending
    cases hpending : s.pendingData hello.name with
    | some dataTx => exact .register hphase hpending
    | none =>
      by_cases hattempts : attempts + 1 > maxAttempts
      · simp only [if_pos hattempts]
        exact .early (by rw [hphase]; rfl) rfl (by simp)
      · simp only [if_neg hattempts]
        exact .early (by rw [hphase]; rfl) rfl (by simp [hphase])
  | announce i =>
    cases hphase : s.control i <;> simp only [step, hphase] <;> try exact .stay _
    exact .announce hphase
  | controlMessage i msg =>
    cases hphase : s.control i <;> simp only [step, hphase] <;> try exact .stay _
    split
    · exact .stay _
    · exact .forward _
    · exact .leave hphase
  | cleanup i =>
    cases hphase : s.control i <;> simp only [step, hphase] <;> try exact .stay _
    exact .cleanup hphase
  | depart i =>
    cases hphase : s.control i <;> simp only [step, hphase] <;> try exact .stay _
    exact .depart hphase
  | dataHandshake i msg =>
    cases hphase : s.data i <;> simp only [step, hphase] <;> try exact .stay _
    cases hname : dataName msg with
    | none => exact .dataClose
    | some name => exact .dataHandshake hphase hname
  | dataMessage i msg =>
    cases hphase : s.data i <;> simp only [step, hphase] <;> try exact .stay _
    cases msg with
    | none => exact .dataClose
    | some msg => exact .forward _
  | paired name => exact .paired name
  | processEvent =>
    simp only [step]
    split
    · rename_i hlagged hqueue
      exact .process hlagged hqueue
    · exact .stay _

end SuperShare
