import Mathlib.Data.Set.Basic
import SuperShare.Lib.Holding

/-!
# What a lost connection leaves

The tasks of one client connection, on both machines. The reader of a socket ends when the other
machine has dropped both halves of the connection, the writer when the senders of its channel are
dropped, and each of them when a read or a write fails. The monitor of the clipboard has no end.
The tasks that run on are those that hold each other.
-/

namespace SuperShare

/-- A task of a connection between a client and the server. -/
inductive ConnectionPart where
  /-- The connection task at its control loop, which owns the `ClientConnection`. -/
  | controlLoop
  | controlWriter
  | controlReader
  | dataWriter
  | dataReader
  | inject
  | monitor
  | forwardClipboard
  | receiveClipboard
  /-- `handle_control_connection`, which keeps the client registered. -/
  | controlHandler
  | serverControlWriter
  /-- `handle_data_connection`. -/
  | dataHandler
  | serverDataWriter
  deriving DecidableEq, Repr

namespace ConnectionPart

/-- Who keeps a task waiting: the tasks with a sender of its channel, or those of the other machine
with a half of its socket. -/
def heldBy : ConnectionPart → List ConnectionPart
  | .controlLoop => [.controlReader]
  | .controlWriter => [.controlLoop, .controlReader]
  | .controlReader => [.controlHandler, .serverControlWriter]
  | .dataWriter => [.controlLoop, .inject, .forwardClipboard]
  | .dataReader => [.dataHandler, .serverDataWriter]
  | .inject | .receiveClipboard => [.dataReader]
  | .monitor | .forwardClipboard => [.monitor]
  | .controlHandler => [.controlReader, .controlWriter]
  | .serverControlWriter | .serverDataWriter => [.controlHandler]
  | .dataHandler => [.dataReader, .dataWriter]

/-- The task reads from or writes to a socket. -/
def usesSocket : ConnectionPart → Bool
  | .controlWriter | .controlReader | .dataWriter | .dataReader => true
  | .controlHandler | .serverControlWriter | .dataHandler | .serverDataWriter => true
  | .controlLoop | .inject | .monitor | .forwardClipboard | .receiveClipboard => false

end ConnectionPart

/-- A task takes a turn, or fails to read or to write, which for the handler of the control
connection includes its timeout. -/
inductive PartEvent where
  | turn (part : ConnectionPart)
  | fail (part : ConnectionPart)

namespace ConnectionPart

/-- Which tasks run after an event. -/
def step (running : ConnectionPart → Bool) : PartEvent → ConnectionPart → Bool
  | .turn part => Holding.turn heldBy running part
  | .fail part => if part.usesSocket then Function.update running part false else running

/-- The connection has been made. -/
def start : ConnectionPart → Bool := fun _ => true

/-- The control connection is there for both machines. -/
def Controlled (running : ConnectionPart → Bool) : Prop :=
  running .controlReader = true ∧ running .controlHandler = true

/-- The data connection carries what the client forwards. -/
def Carries (running : ConnectionPart → Bool) : Prop :=
  running .dataWriter = true ∧ running .dataHandler = true

/-- The data connection carries what the server forwards. -/
def Receives (running : ConnectionPart → Bool) : Prop :=
  running .dataReader = true ∧
    (running .dataHandler = true ∨ running .serverDataWriter = true ∧ Controlled running)

/-- What keeps a task running for good. -/
def Stays (running : ConnectionPart → Bool) : ConnectionPart → Prop
  | .monitor | .forwardClipboard => True
  | .dataWriter => running .dataWriter = true
  | .dataHandler => running .dataHandler = true ∧
      (running .dataReader = true ∨ running .dataWriter = true)
  | .dataReader => Receives running
  | .inject => running .inject = true ∧ Receives running
  | .receiveClipboard => running .receiveClipboard = true ∧ Receives running
  | .controlReader | .controlHandler => Controlled running
  | .controlLoop => running .controlLoop = true ∧ Controlled running
  | .controlWriter => running .controlWriter = true ∧ Controlled running
  | .serverControlWriter => running .serverControlWriter = true ∧ Controlled running
  | .serverDataWriter => running .serverDataWriter = true ∧ Controlled running

variable {running : ConnectionPart → Bool}

/-- A task that has ended does not run after an event. -/
theorem step_le {event : PartEvent} {part : ConnectionPart}
    (h : step running event part = true) : running part = true := by
  cases event with
  | turn other => exact Holding.turn_le h
  | fail other =>
    simp only [step] at h
    split at h
    · by_cases hsame : part = other
      · rw [hsame, Function.update_self] at h
        exact absurd h Bool.false_ne_true
      · rwa [Function.update_of_ne hsame] at h
    · exact h

/-- The monitor and the task that forwards its changes run. -/
def Background (running : ConnectionPart → Bool) : Prop :=
  ∀ part, part = .monitor ∨ part = .forwardClipboard → running part = true

/-- No event ends the monitor or the task that forwards its changes. -/
theorem Background.step (h : Background running) (event : PartEvent) :
    Background (ConnectionPart.step running event) := by
  cases event with
  | turn other =>
    have hkept : Holding.Supported heldBy {part | part = .monitor ∨ part = .forwardClipboard} := by
      rintro part (rfl | rfl) <;> exact ⟨.monitor, List.mem_singleton.mpr rfl, .inl rfl⟩
    exact hkept.turn h other
  | fail other =>
    intro part hpart
    simp only [ConnectionPart.step]
    split
    · rename_i hsocket
      have hne : part ≠ other := by
        rintro rfl
        rcases hpart with rfl | rfl <;> exact absurd hsocket Bool.false_ne_true
      rw [Function.update_of_ne hne]
      exact h part hpart
    · exact h part hpart

/-- No turn ends a data connection that carries what the client forwards. -/
theorem Carries.turn (h : Carries running) (hbackground : Background running)
    (other : ConnectionPart) : Carries (ConnectionPart.step running (.turn other)) := by
  -- The writer is held by the task that forwards changes, and the handler by the writer.
  have hkept : Holding.Supported heldBy
      {part | (part = .monitor ∨ part = .forwardClipboard) ∨
        part = .dataWriter ∨ part = .dataHandler} := by
    rintro part ((rfl | rfl) | rfl | rfl)
    · exact ⟨.monitor, by simp [heldBy], .inl (.inl rfl)⟩
    · exact ⟨.monitor, by simp [heldBy], .inl (.inl rfl)⟩
    · exact ⟨.forwardClipboard, by simp [heldBy], .inl (.inr rfl)⟩
    · exact ⟨.dataWriter, by simp [heldBy], .inr (.inl rfl)⟩
  have hrunning : ∀ part ∈ {part | (part = .monitor ∨ part = .forwardClipboard) ∨
      part = .dataWriter ∨ part = .dataHandler}, running part = true := by
    rintro part (hpart | rfl | rfl)
    · exact hbackground part hpart
    · exact h.1
    · exact h.2
  exact ⟨hkept.turn hrunning other _ (.inr (.inl rfl)),
    hkept.turn hrunning other _ (.inr (.inr rfl))⟩

/-- No turn ends a task while all tasks of the connection run. -/
theorem all_turn (h : ∀ part, running part = true) (other part : ConnectionPart) :
    ConnectionPart.step running (.turn other) part = true := by
  have hkept : Holding.Supported heldBy Set.univ := by
    intro part _
    cases part <;> exact ⟨_, List.mem_cons_self, trivial⟩
  exact hkept.turn (fun part _ => h part) other part trivial

/-- The tasks that stay run, and hold each other. -/
theorem supported_stays (h : Background running) :
    Holding.Supported heldBy {part | Stays running part} ∧
      ∀ part, Stays running part → running part = true := by
  constructor
  · intro part hpart
    cases part with
    | monitor => exact ⟨.monitor, by simp [heldBy], trivial⟩
    | forwardClipboard => exact ⟨.monitor, by simp [heldBy], trivial⟩
    | dataWriter => exact ⟨.forwardClipboard, by simp [heldBy], trivial⟩
    | dataHandler =>
      obtain ⟨hhandler, hreader | hwriter⟩ := hpart
      · exact ⟨.dataReader, by simp [heldBy], hreader, .inl hhandler⟩
      · exact ⟨.dataWriter, by simp [heldBy], hwriter⟩
    | dataReader =>
      obtain ⟨hreader, hhandler | ⟨hwriter, hcontrolled⟩⟩ := hpart
      · exact ⟨.dataHandler, by simp [heldBy], hhandler, .inl hreader⟩
      · exact ⟨.serverDataWriter, by simp [heldBy], hwriter, hcontrolled⟩
    | inject => exact ⟨.dataReader, by simp [heldBy], hpart.2⟩
    | receiveClipboard => exact ⟨.dataReader, by simp [heldBy], hpart.2⟩
    | controlReader => exact ⟨.controlHandler, by simp [heldBy], hpart⟩
    | controlHandler => exact ⟨.controlReader, by simp [heldBy], hpart⟩
    | controlLoop => exact ⟨.controlReader, by simp [heldBy], hpart.2⟩
    | controlWriter => exact ⟨.controlReader, by simp [heldBy], hpart.2⟩
    | serverControlWriter => exact ⟨.controlHandler, by simp [heldBy], hpart.2⟩
    | serverDataWriter => exact ⟨.controlHandler, by simp [heldBy], hpart.2⟩
  · intro part hpart
    cases part with
    | monitor => exact h .monitor (.inl rfl)
    | forwardClipboard => exact h .forwardClipboard (.inr rfl)
    | dataWriter => exact hpart
    | controlHandler => exact hpart.2
    | _ => exact hpart.1

variable {kept : Set ConnectionPart}

/-- Whoever waits on the control connection, on the client, waits for its reader. -/
theorem controlReader_of_kept (h : Holding.Supported heldBy kept)
    (hpart : ConnectionPart.controlLoop ∈ kept ∨ ConnectionPart.controlWriter ∈ kept ∨
      ConnectionPart.controlHandler ∈ kept) :
    ConnectionPart.controlReader ∈ kept := by
  have hloop (hmem : ConnectionPart.controlLoop ∈ kept) : ConnectionPart.controlReader ∈ kept := by
    simpa [heldBy] using h _ hmem
  have hwriter (hmem : ConnectionPart.controlWriter ∈ kept) :
      ConnectionPart.controlReader ∈ kept := by
    rcases (by simpa [heldBy] using h _ hmem : _ ∨ _) with hmem | hmem
    · exact hloop hmem
    · exact hmem
  rcases hpart with hmem | hmem | hmem
  · exact hloop hmem
  · exact hwriter hmem
  · rcases (by simpa [heldBy] using h _ hmem : _ ∨ _) with hmem | hmem
    · exact hmem
    · exact hwriter hmem

/-- Whoever waits for the handler of the control connection keeps it. -/
theorem controlHandler_of_kept (h : Holding.Supported heldBy kept)
    (hpart : ConnectionPart.controlReader ∈ kept ∨ ConnectionPart.serverControlWriter ∈ kept ∨
      ConnectionPart.serverDataWriter ∈ kept) :
    ConnectionPart.controlHandler ∈ kept := by
  have hwriter (hmem : ConnectionPart.serverControlWriter ∈ kept) :
      ConnectionPart.controlHandler ∈ kept := by
    simpa [heldBy] using h _ hmem
  rcases hpart with hmem | hmem | hmem
  · rcases (by simpa [heldBy] using h _ hmem : _ ∨ _) with hmem | hmem
    · exact hmem
    · exact hwriter hmem
  · exact hwriter hmem
  · simpa [heldBy] using h _ hmem

/-- Tasks that run and hold each other stay. -/
theorem stays_of_kept (h : Holding.Supported heldBy kept)
    (hrunning : ∀ part ∈ kept, running part = true) {part : ConnectionPart} (hpart : part ∈ kept) :
    Stays running part := by
  have hcontrolled (hreader : ConnectionPart.controlReader ∈ kept) : Controlled running :=
    ⟨hrunning _ hreader, hrunning _ (controlHandler_of_kept h (.inl hreader))⟩
  have hhandled (hhandler : ConnectionPart.controlHandler ∈ kept) : Controlled running :=
    hcontrolled (controlReader_of_kept h (.inr (.inr hhandler)))
  have hreceives (hreader : ConnectionPart.dataReader ∈ kept) : Receives running := by
    refine ⟨hrunning _ hreader, ?_⟩
    rcases (by simpa [heldBy] using h _ hreader : _ ∨ _) with hmem | hmem
    · exact .inl (hrunning _ hmem)
    · exact .inr ⟨hrunning _ hmem, hhandled (controlHandler_of_kept h (.inr (.inr hmem)))⟩
  cases part with
  | monitor => trivial
  | forwardClipboard => trivial
  | dataWriter => exact hrunning _ hpart
  | dataHandler =>
    refine ⟨hrunning _ hpart, ?_⟩
    rcases (by simpa [heldBy] using h _ hpart : _ ∨ _) with hmem | hmem
    · exact .inl (hrunning _ hmem)
    · exact .inr (hrunning _ hmem)
  | dataReader => exact hreceives hpart
  | inject => exact ⟨hrunning _ hpart, hreceives (by simpa [heldBy] using h _ hpart)⟩
  | receiveClipboard => exact ⟨hrunning _ hpart, hreceives (by simpa [heldBy] using h _ hpart)⟩
  | controlReader => exact hcontrolled hpart
  | controlHandler => exact hhandled hpart
  | controlLoop =>
    exact ⟨hrunning _ hpart, hcontrolled (controlReader_of_kept h (.inl hpart))⟩
  | controlWriter =>
    exact ⟨hrunning _ hpart, hcontrolled (controlReader_of_kept h (.inr (.inl hpart)))⟩
  | serverControlWriter =>
    exact ⟨hrunning _ hpart, hhandled (controlHandler_of_kept h (.inr (.inl hpart)))⟩
  | serverDataWriter =>
    exact ⟨hrunning _ hpart, hhandled (controlHandler_of_kept h (.inr (.inr hpart)))⟩

/-- **Lost connections.** In every state that the tasks reach, whatever reads and writes have
failed, a task runs on, whatever turns the tasks take, exactly if it stays. -/
theorem runsOn_iff_stays (events : List PartEvent) (part : ConnectionPart) :
    Holding.RunsOn heldBy (events.foldl step start) part ↔
      Stays (events.foldl step start) part := by
  have hbackground : Background (events.foldl step start) :=
    List.foldlRecOn (motive := Background) events step (fun _ _ => rfl)
      fun _ h event _ => h.step event
  rw [Holding.runsOn_iff]
  constructor
  · rintro ⟨kept, hkept, hrunning, hpart⟩
    exact stays_of_kept hkept hrunning hpart
  · intro hpart
    obtain ⟨hsupported, hrunning⟩ := supported_stays hbackground
    exact ⟨_, hsupported, hrunning, hpart⟩

/-- Without the control connection the client connects again, and the data connection is kept open
if it carries what the client forwards. -/
theorem dataConnection_outlives (events : List PartEvent)
    (hlost : ¬ Controlled (events.foldl step start))
    (hcarries : Carries (events.foldl step start)) :
    ¬ Holding.RunsOn heldBy (events.foldl step start) .controlLoop ∧
      Holding.RunsOn heldBy (events.foldl step start) .dataWriter ∧
      Holding.RunsOn heldBy (events.foldl step start) .dataHandler := by
  simp only [runsOn_iff_stays]
  exact ⟨fun h => hlost h.2, hcarries.1, hcarries.2, .inr hcarries.1⟩

end ConnectionPart

end SuperShare
