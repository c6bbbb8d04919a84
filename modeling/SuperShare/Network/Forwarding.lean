import Mathlib.Data.Fintype.Basic
import SuperShare.Lib.RwLock
import SuperShare.Network.Server

/-!
# Forwarding under the locks

The tasks of the running server that meet at the locks on `ServerState.clients` and
`pending_data`. Two forwarders hold the read lock on the clients while they wait for room in the
channels to the writer tasks; registration and cleanup ask for the write lock, and registration
holds `pending_data` meanwhile. A step is what a task does between two waits. Messages are of any
type `μ`.
-/

namespace SuperShare

variable {ι μ : Type}

/-- The tasks that forward input events and clipboard changes to the clients. -/
inductive Forwarder where
  | input | clipboard
  deriving DecidableEq

instance : Fintype Forwarder := ⟨{.input, .clipboard}, fun f => by cases f <;> decide⟩

/-- A channel to the writer task of a connection. -/
inductive Outgoing (ι : Type) where
  | control (i : ι)
  | data (i : ι)
  deriving DecidableEq

/-- How many messages a channel holds. -/
def Outgoing.capacity : Outgoing ι → ℕ
  | control _ => 128
  | data _ => 64

/-- The channel of a client that a message goes to. -/
def ConnectedClient.channel (client : ConnectedClient ι) (toControl : Bool) : Outgoing ι :=
  if toControl then .control client.controlTx else .data client.dataTx

/-- A writer task. One whose connection has not come yet has nothing to write. -/
inductive WriterPhase where
  | running
  /-- The peer reads no more, and the write never returns. -/
  | stalled
  /-- A write failed. The receiver is dropped, so that sending fails too. -/
  | ended
  deriving DecidableEq

/-- A captured event with its message, as the input forwarder tells them apart. -/
inductive CapturedMessage (μ : Type) where
  | boundaryEnter (message : μ)
  | mouseDelta (message : μ)
  /-- A button, a key or the wheel. -/
  | other (message : μ)

/-- What a forwarder sends to every client: whether to the control channels, and the messages. -/
structure Job (μ : Type) where
  toControl : Bool
  messages : List μ

/-- Buttons, keys and the wheel are forwarded only while the cursor is on the client screen. -/
def CapturedMessage.job (isRemote : Bool) : CapturedMessage μ → Option (Job μ)
  | boundaryEnter message => some ⟨true, [message]⟩
  | mouseDelta message => some ⟨false, [message]⟩
  | other message => if isRemote then some ⟨false, [message]⟩ else none

/-- Where a forwarder stands. -/
inductive ForwarderPhase (ι μ : Type) where
  /-- Waiting for the next event or change. -/
  | idle
  /-- Waiting for the read lock on the clients. -/
  | waiting (job : Job μ)
  /-- Sending, with what is left for each client. It holds the read lock. -/
  | sending (todo : List (Outgoing ι × List μ))
  /-- Waiting for room in a channel. It holds the read lock. -/
  | blocked (channel : Outgoing ι) (message : μ) (messages : List μ)
      (todo : List (Outgoing ι × List μ))

/-- Where a control handler stands, as far as the locks are concerned. -/
inductive ControlTask (ι : Type) where
  | accepted
  /-- Waiting for the lock on `pending_data`, with the attempts so far. -/
  | awaitingPending (hello : Hello) (attempts : ℕ)
  /-- Sleeping before the next attempt. -/
  | sleeping (hello : Hello) (attempts : ℕ)
  /-- The data channel was there: waiting for the write lock on the clients. It holds the lock on
  `pending_data`. -/
  | awaitingClients (hello : Hello) (dataTx : ι)
  /-- In the main message loop. -/
  | connected (name : String)
  /-- Out of the main message loop: waiting for the write lock on the clients. -/
  | leaving (name : String)
  | closed
  | gaveUp
  deriving DecidableEq

/-- Where a data handler stands, as far as the locks are concerned. -/
inductive DataTask where
  | accepted
  /-- Waiting for the lock on `pending_data`. -/
  | awaitingPending (name : String)
  | reading (name : String)
  | closed

/-- A task that asks for a lock. -/
inductive LockTask (ι : Type) where
  | forwarder (f : Forwarder)
  | control (i : ι)
  | data (i : ι)
  deriving DecidableEq

/-- The tasks with their locks and channels. -/
structure Forwarding (ι μ : Type) where
  control : ι → ControlTask ι
  data : ι → DataTask
  forwarder : Forwarder → ForwarderPhase ι μ
  /-- The channel from the capture. -/
  captured : List (CapturedMessage μ)
  /-- The channel from the clipboard monitor: the messages of each change, or `none` for one that
  cannot be transferred. -/
  changes : List (Option (List μ))
  clients : List (ConnectedClient ι)
  pendingData : String → Option ι
  clientsLock : RwLock (LockTask ι)
  pendingLock : RwLock (LockTask ι)
  queue : Outgoing ι → List μ
  writer : Outgoing ι → WriterPhase

/-- What happens to the tasks. -/
inductive TaskEvent (ι μ : Type) where
  /-- A control connection presents a client, and its handler asks for `pending_data`. -/
  | controlHandshake (i : ι) (hello : Hello)
  /-- A handler has slept, and asks for `pending_data` again. -/
  | wake (i : ι)
  /-- A handler leaves its read loop, at the end of the stream, an error or a timeout. -/
  | leave (i : ι)
  /-- A data connection presents a name, and its handler asks for `pending_data`. -/
  | dataHandshake (i : ι) (name : String)
  /-- A data connection ends. -/
  | dataEnd (i : ι)
  /-- The capture puts an event on its channel. -/
  | capture (event : CapturedMessage μ)
  /-- The clipboard monitor puts a change on its channel. -/
  | change (messages : Option (List μ))
  /-- A client stops reading its data connection. -/
  | stall (i : ι)
  /-- A write fails. -/
  | writeError (channel : Outgoing ι)
  /-- The next task gets the lock on `pending_data`. -/
  | grantPending
  /-- The next task gets the lock on the clients. A forwarder goes through the map in some
  order. -/
  | grantClients (order : List (ConnectedClient ι))
  /-- A forwarder takes the next event or change, in some mode of the capture. -/
  | take (f : Forwarder) (isRemote : Bool)
  /-- A forwarder goes on with its sending. -/
  | advance (f : Forwarder)
  /-- A forwarder that waited for room goes on. -/
  | resume (f : Forwarder)
  /-- A writer task writes a message. -/
  | write (channel : Outgoing ι)

/-- A lock, queue or channel step of a task. The other events come from outside. -/
def TaskEvent.isStep : TaskEvent ι μ → Bool
  | grantPending | grantClients _ | take .. | advance _ | resume _ | write _ => true
  | _ => false

/-- The channel that a forwarder comes to send to. -/
def ForwarderPhase.nextChannel : ForwarderPhase ι μ → Option (Outgoing ι)
  | sending ((channel, _ :: _) :: _) => some channel
  | _ => none

/-- The channel in which a forwarder waits for room. -/
def ForwarderPhase.blockedAt : ForwarderPhase ι μ → Option (Outgoing ι)
  | blocked channel .. => some channel
  | _ => none

namespace Forwarding

/-- The server when its listeners start. -/
def start : Forwarding ι μ where
  control := fun _ => .accepted
  data := fun _ => .accepted
  forwarder := fun _ => .idle
  captured := []
  changes := []
  clients := []
  pendingData := fun _ => none
  clientsLock := .free
  pendingLock := .free
  queue := fun _ => []
  writer := fun _ => .running

/-- Capacity of the channel from the capture. -/
def capturedCapacity : ℕ := 256

/-- Capacity of the channel from the clipboard monitor. -/
def changesCapacity : ℕ := 16

/-- Move a forwarder. -/
def setForwarder (s : Forwarding ι μ) (f : Forwarder) (phase : ForwarderPhase ι μ) :
    Forwarding ι μ :=
  { s with forwarder := Function.update s.forwarder f phase }

/-- The next job of a forwarder, if its channel holds an event or a change. -/
def nextJob (s : Forwarding ι μ) (isRemote : Bool) :
    Forwarder → Option (Option (Job μ) × Forwarding ι μ)
  | .input =>
      match s.captured with
      | [] => none
      | event :: captured => some (event.job isRemote, { s with captured := captured })
  | .clipboard =>
      match s.changes with
      | [] => none
      | change :: changes => some (change.map (Job.mk false), { s with changes := changes })

/-- Taking a job touches only the two channels that jobs come from. -/
theorem nextJob_frame {s s' : Forwarding ι μ} {isRemote : Bool} {f : Forwarder}
    {job : Option (Job μ)} (hjob : s.nextJob isRemote f = some (job, s')) :
    s' = { s with captured := s'.captured, changes := s'.changes } := by
  cases f with
  | input =>
    simp only [nextJob] at hjob
    split at hjob
    · exact absurd hjob (by simp)
    · obtain ⟨-, rfl⟩ := Prod.mk.inj (Option.some.inj hjob)
      rfl
  | clipboard =>
    simp only [nextJob] at hjob
    split at hjob
    · exact absurd hjob (by simp)
    · obtain ⟨-, rfl⟩ := Prod.mk.inj (Option.some.inj hjob)
      rfl

variable [DecidableEq ι]

/-- Move a control handler. -/
def setControl (s : Forwarding ι μ) (i : ι) (phase : ControlTask ι) : Forwarding ι μ :=
  { s with control := Function.update s.control i phase }

@[simp] theorem setControl_control (s : Forwarding ι μ) (i : ι) (phase : ControlTask ι) :
    (s.setControl i phase).control = Function.update s.control i phase := rfl

/-- Move a data handler. -/
def setData (s : Forwarding ι μ) (i : ι) (phase : DataTask) : Forwarding ι μ :=
  { s with data := Function.update s.data i phase }

/-- A control handler asks for the lock on `pending_data`. -/
def askPending (s : Forwarding ι μ) (i : ι) (hello : Hello) (attempts : ℕ) : Forwarding ι μ :=
  { s with pendingLock := s.pendingLock.request (.control i) .write }.setControl i
    (.awaitingPending hello attempts)

/-- One iteration of the loop that waits for the data channel, under the lock on `pending_data`.
The lock is kept when the data channel is there. -/
def pollPending (s : Forwarding ι μ) (i : ι) (hello : Hello) (attempts : ℕ) : Forwarding ι μ :=
  match s.pendingData hello.name with
  | some dataTx =>
      { s with
        pendingData := Function.update s.pendingData hello.name none
        clientsLock := s.clientsLock.request (.control i) .write }.setControl i
          (.awaitingClients hello dataTx)
  | none =>
      { s with pendingLock := s.pendingLock.release (.control i) }.setControl i
        (if attempts + 1 > Server.maxAttempts then .gaveUp else .sleeping hello (attempts + 1))

/-- The next task gets the lock on `pending_data`. A data handler registers its channel and gives
the lock up. -/
def grantPending (s : Forwarding ι μ) : Option (Forwarding ι μ) :=
  match s.pendingLock.grant with
  | none => none
  | some ((.control i, _), lock) =>
      match s.control i with
      | .awaitingPending hello attempts =>
          some ({ s with pendingLock := lock }.pollPending i hello attempts)
      | _ => none
  | some ((.data i, _), lock) =>
      match s.data i with
      | .awaitingPending name =>
          some ({ s with
            pendingLock := lock.release (.data i)
            pendingData := Function.update s.pendingData name (some i) }.setData i (.reading name))
      | _ => none
  | some ((.forwarder _, _), _) => none

/-- Store the client and give up both locks. -/
def register (s : Forwarding ι μ) (i : ι) (hello : Hello) (dataTx : ι) : Forwarding ι μ :=
  let client : ConnectedClient ι :=
    ⟨hello.name, i, dataTx, hello.screenWidth, hello.screenHeight⟩
  { s with
    clients := client :: s.clients.filter (·.name ≠ hello.name)
    clientsLock := s.clientsLock.release (.control i)
    pendingLock := s.pendingLock.release (.control i) }.setControl i (.connected hello.name)

/-- Remove the client and give up the lock. -/
def cleanup (s : Forwarding ι μ) (i : ι) (name : String) : Forwarding ι μ :=
  { s with
    clients := s.clients.filter (·.name ≠ name)
    clientsLock := s.clientsLock.release (.control i) }.setControl i .closed

/-- The next task gets the lock on the clients. A forwarder keeps it while it sends. -/
def grantClients (s : Forwarding ι μ) (order : List (ConnectedClient ι)) :
    Option (Forwarding ι μ) :=
  match s.clientsLock.grant with
  | none => none
  | some ((.forwarder f, _), lock) =>
      match s.forwarder f with
      | .waiting job =>
          if order.Perm s.clients then
            some ({ s with clientsLock := lock }.setForwarder f
              (.sending (order.map fun client : ConnectedClient ι =>
                (client.channel job.toControl, job.messages))))
          else none
      | _ => none
  | some ((.control i, _), lock) =>
      match s.control i with
      | .awaitingClients hello dataTx =>
          some ({ s with clientsLock := lock }.register i hello dataTx)
      | .leaving name => some ({ s with clientsLock := lock }.cleanup i name)
      | _ => none
  | some ((.data _, _), _) => none

/-- A forwarder asks for the read lock on the clients. -/
def askClients (s : Forwarding ι μ) (f : Forwarder) (job : Job μ) : Forwarding ι μ :=
  { s with clientsLock := s.clientsLock.request (.forwarder f) .read }.setForwarder f
    (.waiting job)

/-- A forwarder takes the next event or change, and asks for the lock if there is something to
send. -/
def take (s : Forwarding ι μ) (f : Forwarder) (isRemote : Bool) : Option (Forwarding ι μ) :=
  match s.forwarder f with
  | .idle =>
      match s.nextJob isRemote f with
      | none => none
      | some (none, taken) => some taken
      | some (some job, taken) => some (taken.askClients f job)
  | _ => none

/-- A forwarder sends a message, as soon as the channel has room. A send to a writer that has
ended fails, and the rest for this client is left out. -/
def send (s : Forwarding ι μ) (f : Forwarder) (channel : Outgoing ι) (message : μ)
    (messages : List μ) (todo : List (Outgoing ι × List μ)) : Option (Forwarding ι μ) :=
  if s.writer channel = .ended then some (s.setForwarder f (.sending todo))
  else if (s.queue channel).length < channel.capacity then
    some ({ s with
      queue := Function.update s.queue channel (s.queue channel ++ [message]) }.setForwarder f
        (.sending ((channel, messages) :: todo)))
  else none

/-- A forwarder sends the next message or waits for room, goes on to the next client, or gives up
the lock. -/
def advance (s : Forwarding ι μ) (f : Forwarder) : Option (Forwarding ι μ) :=
  match s.forwarder f with
  | .sending [] =>
      some ({ s with clientsLock := s.clientsLock.release (.forwarder f) }.setForwarder f .idle)
  | .sending ((_, []) :: todo) => some (s.setForwarder f (.sending todo))
  | .sending ((channel, message :: messages) :: todo) =>
      some ((s.send f channel message messages todo).getD
        (s.setForwarder f (.blocked channel message messages todo)))
  | _ => none

/-- A forwarder that waited for room sends its message. -/
def resume (s : Forwarding ι μ) (f : Forwarder) : Option (Forwarding ι μ) :=
  match s.forwarder f with
  | .blocked channel message messages todo => s.send f channel message messages todo
  | _ => none

/-- A writer task writes the next message. -/
def write (s : Forwarding ι μ) (channel : Outgoing ι) : Option (Forwarding ι μ) :=
  match s.writer channel, s.queue channel with
  | .running, _ :: rest => some { s with queue := Function.update s.queue channel rest }
  | _, _ => none

/-- The state after an event, if the event is possible. -/
def next (s : Forwarding ι μ) : TaskEvent ι μ → Option (Forwarding ι μ)
  | .controlHandshake i hello =>
      match s.control i with
      | .accepted => some (s.askPending i hello 0)
      | _ => none
  | .wake i =>
      match s.control i with
      | .sleeping hello attempts => some (s.askPending i hello attempts)
      | _ => none
  | .leave i =>
      match s.control i with
      | .connected name =>
          some ({ s with clientsLock := s.clientsLock.request (.control i) .write }.setControl i
            (.leaving name))
      | _ => none
  | .dataHandshake i name =>
      match s.data i with
      | .accepted =>
          some ({ s with pendingLock := s.pendingLock.request (.data i) .write }.setData i
            (.awaitingPending name))
      | _ => none
  | .dataEnd i =>
      match s.data i with
      | .reading _ => some (s.setData i .closed)
      | _ => none
  | .capture event =>
      if s.captured.length < capturedCapacity then
        some { s with captured := s.captured ++ [event] }
      else none
  | .change messages =>
      if s.changes.length < changesCapacity then
        some { s with changes := s.changes ++ [messages] }
      else none
  | .stall i =>
      match s.writer (.data i) with
      | .running => some { s with writer := Function.update s.writer (.data i) .stalled }
      | _ => none
  | .writeError channel =>
      match s.writer channel with
      | .running =>
          some { s with
            writer := Function.update s.writer channel .ended
            queue := Function.update s.queue channel [] }
      | _ => none
  | .grantPending => s.grantPending
  | .grantClients order => s.grantClients order
  | .take f isRemote => s.take f isRemote
  | .advance f => s.advance f
  | .resume f => s.resume f
  | .write channel => s.write channel

/-- An event that is not possible changes nothing. -/
def step (s : Forwarding ι μ) (event : TaskEvent ι μ) : Forwarding ι μ :=
  (s.next event).getD s

/-- Every task is blocked but the writers that have stalled. -/
def Quiescent (s : Forwarding ι μ) : Prop :=
  ∀ event : TaskEvent ι μ, event.isStep = true → s.next event = none

end Forwarding

end SuperShare
