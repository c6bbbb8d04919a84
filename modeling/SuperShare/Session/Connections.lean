import SuperShare.Lib.Run

/-!
# The client's connection tasks

The command handler starts a detached task for each connection that the user asks for. The task
reconnects for ever once it has been connected, and each of its connections starts a task that
injects input. The handler keeps the sender of a shutdown channel whose receiver it has dropped,
so that a disconnect only changes what is displayed. This file says exactly in which runs a
disconnect is final all the same.
-/

namespace SuperShare

/-- Where a connection task is. -/
inductive ConnPhase where
  | attempting | connected | sleeping | ended
  deriving DecidableEq, Repr

/-- A task of `spawn_client_connection`. -/
structure ConnTask where
  serverAddress : String
  phase : ConnPhase
  firstAttempt : Bool
  /-- Seconds before the next attempt. -/
  backoff : ℕ
  deriving DecidableEq, Repr

/-- The task has not returned. -/
def ConnTask.active (task : ConnTask) : Bool := task.phase ≠ .ended

/-- A new task, at its first attempt to connect. -/
def ConnTask.start (serverAddress : String) : ConnTask := ⟨serverAddress, .attempting, true, 1⟩

/-- The longest backoff, in seconds. -/
def maxBackoff : ℕ := 30

/-- The task sleeps before its next attempt. -/
def ConnTask.retryLater (task : ConnTask) : ConnTask :=
  { task with phase := .sleeping, backoff := min (task.backoff * 2) maxBackoff }

/-- What the window displays of the client. -/
structure ClientStatus where
  clientConnected : Bool
  clientServerAddr : Option String
  serverScreenSize : Option (UInt32 × UInt32)
  lastError : Option String
  pairingRequired : Bool
  pairingStatus : Option String
  deriving DecidableEq, Repr

/-- The handler, the tasks it has spawned, and the inject tasks of their connections. -/
structure ConnectionTasks where
  status : ClientStatus
  /-- The handler has the sender of a shutdown channel. No task has a receiver. -/
  clientShutdown : Bool
  /-- The server that the handler is pairing with. Meanwhile it takes no command. -/
  pairing : Option String
  tasks : List ConnTask
  /-- For each connection made, whether its inject task is still running. -/
  injectTasks : List Bool
  /-- The last command taken, of those about connections, was `DisconnectClient`. -/
  disconnected : Bool
  deriving DecidableEq, Repr

/-- A step of the handler or of a task. -/
inductive ConnEvent where
  /-- The command, with whether certificates are found for the server. -/
  | connectClient (serverAddress : String) (trusted : Bool)
  | pairAndConnect (serverAddress : String)
  /-- Pairing, and storing the certificates, is over. -/
  | paired (result : Except String Unit)
  | disconnectClient
  /-- An attempt of a task succeeds. -/
  | connected (task : ℕ) (screen : Option (UInt32 × UInt32))
  | failed (task : ℕ) (error : String)
  | timedOut (task : ℕ)
  /-- The control loop of a task injects the position of a `BoundaryEnter`. -/
  | injectEnter (task : ℕ)
  /-- The control channel of a connection closes. -/
  | connectionLost (task : ℕ)
  /-- The backoff is over and a task connects again. -/
  | reconnect (task : ℕ)
  /-- An inject task injects an event. -/
  | inject (connection : ℕ)
  /-- The data channel of a connection closes. -/
  | dataClosed (connection : ℕ)

/-- A command to connect. -/
def ConnEvent.connects : ConnEvent → Bool
  | connectClient .. | pairAndConnect _ => true
  | _ => false

/-- A step of a task, not of the handler. -/
def ConnEvent.ofTask : ConnEvent → Bool
  | connectClient .. | pairAndConnect _ | paired _ | disconnectClient => false
  | _ => true

namespace ConnectionTasks

/-- The application has started. -/
def start : ConnectionTasks where
  status := ⟨false, none, none, none, false, none⟩
  clientShutdown := false
  pairing := none
  tasks := []
  injectTasks := []
  disconnected := false

/-- The task with a number, if it is in a phase. -/
def task? (s : ConnectionTasks) (task : ℕ) (phase : ConnPhase) : Option ConnTask :=
  (s.tasks[task]?).filter fun t => t.phase = phase

/-- An attempt of a task fails. Only the first failure ends the task. -/
def attemptFailed (s : ConnectionTasks) (number : ℕ) (task : ConnTask) (error : String) :
    ConnectionTasks :=
  if task.firstAttempt then
    { s with
      status := { s.status with clientConnected := false, lastError := some error }
      tasks := s.tasks.set number { task with phase := .ended } }
  else
    { s with
      status := { s.status with lastError := some s!"Reconnecting in {task.backoff}s..." }
      tasks := s.tasks.set number task.retryLater }

/-- `spawn_client_connection`, with the shutdown channel that the handler makes before. -/
def spawn (s : ConnectionTasks) (serverAddress : String) : ConnectionTasks :=
  { s with clientShutdown := true, tasks := s.tasks ++ [.start serverAddress] }

/-- One step. A step that is not possible changes nothing. -/
def step (s : ConnectionTasks) : ConnEvent → ConnectionTasks
  | .connectClient serverAddress trusted =>
      if s.pairing.isSome then s
      else if trusted then
        { s.spawn serverAddress with
          status := { s.status with pairingRequired := false }
          disconnected := false }
      else
        { s with
          status := { s.status with
            pairingRequired := true
            pairingStatus := none
            lastError := some "This server is not paired. Enter the PIN to pair." }
          disconnected := false }
  | .pairAndConnect serverAddress =>
      if s.pairing.isSome then s
      else
        { s with
          status := { s.status with pairingStatus := some "Pairing…", lastError := none }
          pairing := some serverAddress
          disconnected := false }
  | .paired result =>
      match s.pairing, result with
      | some serverAddress, .ok () =>
          { s.spawn serverAddress with
            status := { s.status with
              pairingRequired := false
              pairingStatus := some "Paired! Connecting…" }
            pairing := none }
      | some _, .error error =>
          { s with
            status := { s.status with
              pairingStatus := some s!"Pairing failed: {error}"
              lastError := some s!"Pairing failed: {error}" }
            pairing := none }
      | none, _ => s
  | .disconnectClient =>
      if s.pairing.isSome then s
      else
        { s with
          -- The sender is taken and sends to nobody.
          clientShutdown := false
          status := { s.status with
            clientConnected := false
            clientServerAddr := none
            serverScreenSize := none }
          disconnected := true }
  | .connected number screen =>
      match s.task? number .attempting with
      | some task =>
          { s with
            status := { s.status with
              clientConnected := true
              clientServerAddr := some task.serverAddress
              serverScreenSize := screen
              lastError := none }
            tasks := s.tasks.set number
              { task with phase := .connected, firstAttempt := false, backoff := 1 }
            injectTasks := s.injectTasks ++ [true] }
      | none => s
  | .failed number error =>
      match s.task? number .attempting with
      | some task => s.attemptFailed number task s!"Connection failed: {error}"
      | none => s
  | .timedOut number =>
      match s.task? number .attempting with
      | some task => s.attemptFailed number task "Connection timed out (10s)"
      | none => s
  | .injectEnter _ => s
  | .connectionLost number =>
      match s.task? number .connected with
      | some task =>
          { s with
            status := { s.status with
              clientConnected := false
              lastError := some s!"Connection lost, reconnecting in {task.backoff}s..." }
            tasks := s.tasks.set number task.retryLater }
      | none => s
  | .reconnect number =>
      match s.task? number .sleeping with
      | some task => { s with tasks := s.tasks.set number { task with phase := .attempting } }
      | none => s
  | .inject _ => s
  | .dataClosed connection => { s with injectTasks := s.injectTasks.set connection false }

/-- A step by which a task sets `client_connected`, injects an event or reconnects. -/
def Acts (s : ConnectionTasks) : ConnEvent → Bool
  | .connected number _ => (s.task? number .attempting).isSome
  | .injectEnter number => (s.task? number .connected).isSome
  | .reconnect number => (s.task? number .sleeping).isSome
  | .inject connection => s.injectTasks[connection]? = some true
  | _ => false

/-- A disconnect is final: whatever follows without a command to connect, no task acts. And at
most one connection task is active. -/
structure Controlled (s : ConnectionTasks) : Prop where
  final : s.disconnected = true → ∀ later : List ConnEvent, (∀ e ∈ later, e.connects = false) →
    ∀ event, (later.foldl step s).Acts event = false
  single : s.tasks.countP ConnTask.active ≤ 1

/-- No connection task is active, and no inject task is running. -/
structure AtRest (s : ConnectionTasks) : Prop where
  tasks : s.tasks.countP ConnTask.active = 0
  injectTasks : ∀ running ∈ s.injectTasks, running = false

/-- A disconnect finds nothing to stop, and a connection task is spawned when none is active. -/
def Tidy (s : ConnectionTasks) : ConnEvent → Prop
  | .disconnectClient => s.pairing = none → s.AtRest
  | .connectClient _ trusted =>
      s.pairing = none → trusted = true → s.tasks.countP ConnTask.active = 0
  | .paired result =>
      s.pairing.isSome = true → result.isOk = true → s.tasks.countP ConnTask.active = 0
  | _ => True

variable {s : ConnectionTasks}

/-- A task found in a phase is in the list, in that phase. -/
theorem task?_eq_some {number : ℕ} {phase : ConnPhase} {task : ConnTask}
    (h : s.task? number phase = some task) :
    s.tasks[number]? = some task ∧ task.phase = phase := by
  obtain ⟨hget, hphase⟩ := Option.filter_eq_some_iff.mp h
  exact ⟨hget, by simpa using hphase⟩

/-- A task that moves on adds no active one. -/
theorem countP_active_set_le {number : ℕ} {task task' : ConnTask}
    (hget : s.tasks[number]? = some task) (hactive : task.active = true) :
    (s.tasks.set number task').countP ConnTask.active ≤ s.tasks.countP ConnTask.active := by
  obtain ⟨hlt, hget⟩ := List.getElem?_eq_some_iff.mp hget
  have hpos : 0 < s.tasks.countP ConnTask.active :=
    List.countP_pos_iff.mpr ⟨task, hget ▸ List.getElem_mem hlt, hactive⟩
  rw [List.countP_set hlt, hget, if_pos hactive]
  split <;> omega

/-- Only an active task is found in a phase other than the last. -/
theorem AtRest.task? (h : s.AtRest) {phase : ConnPhase} (hphase : phase ≠ .ended) (number : ℕ) :
    s.task? number phase = none := by
  cases htask : s.task? number phase with
  | none => rfl
  | some task =>
    obtain ⟨hget, rfl⟩ := task?_eq_some htask
    have hmem : task ∈ s.tasks := List.mem_of_getElem? hget
    have hended := List.countP_eq_zero.mp h.tasks task hmem
    simp [ConnTask.active, hphase] at hended

/-- Nothing acts at rest. -/
theorem AtRest.acts (h : s.AtRest) (event : ConnEvent) : s.Acts event = false := by
  cases event with
  | connected number screen => simp [Acts, h.task? (show ConnPhase.attempting ≠ .ended by decide)]
  | injectEnter number => simp [Acts, h.task? (show ConnPhase.connected ≠ .ended by decide)]
  | reconnect number => simp [Acts, h.task? (show ConnPhase.sleeping ≠ .ended by decide)]
  | inject connection =>
    cases hrunning : s.injectTasks[connection]? with
    | none => simp [Acts, hrunning]
    | some running =>
      have hstopped := h.injectTasks running (List.mem_of_getElem? hrunning)
      simp [Acts, hrunning, hstopped]
  | _ => rfl

/-- If nothing can act, all is at rest. -/
theorem atRest_of_acts (h : ∀ event, s.Acts event = false) : s.AtRest := by
  have hphases : ∀ (number : ℕ) (task : ConnTask),
      s.tasks[number]? = some task → task.phase = .ended := by
    intro number task hget
    have hfound : ∀ phase, task.phase = phase → s.task? number phase = some task := by
      intro phase hphase
      rw [task?, hget, Option.filter_some, if_pos (by simpa using hphase)]
    cases hphase : task.phase with
    | attempting =>
      have hacts := h (.connected number none)
      simp [Acts, hfound _ hphase] at hacts
    | connected =>
      have hacts := h (.injectEnter number)
      simp [Acts, hfound _ hphase] at hacts
    | sleeping =>
      have hacts := h (.reconnect number)
      simp [Acts, hfound _ hphase] at hacts
    | ended => rfl
  constructor
  · refine List.countP_eq_zero.mpr fun task hmem => ?_
    obtain ⟨number, hget⟩ := List.mem_iff_getElem?.mp hmem
    simp [ConnTask.active, hphases number task hget]
  · intro running hmem
    obtain ⟨connection, hget⟩ := List.mem_iff_getElem?.mp hmem
    have hacts := h (.inject connection)
    simpa [Acts, hget] using hacts

/-- At rest, what is not a command to connect leaves all at rest. -/
theorem AtRest.step (h : s.AtRest) (hpairing : s.pairing = none) {event : ConnEvent}
    (hevent : event.connects = false) :
    (s.step event).AtRest ∧ (s.step event).pairing = none := by
  cases event with
  | connectClient serverAddress trusted => exact absurd hevent.symm Bool.false_ne_true
  | pairAndConnect serverAddress => exact absurd hevent.symm Bool.false_ne_true
  | paired result =>
    have hsame : s.step (.paired result) = s := by
      simp only [ConnectionTasks.step, hpairing]
    rw [hsame]
    exact ⟨h, hpairing⟩
  | disconnectClient =>
    simp only [ConnectionTasks.step, hpairing]
    exact ⟨⟨h.tasks, h.injectTasks⟩, rfl⟩
  | connected number screen | failed number error | timedOut number =>
    rw [ConnectionTasks.step, h.task? (by decide)]
    exact ⟨h, hpairing⟩
  | connectionLost number | reconnect number =>
    rw [ConnectionTasks.step, h.task? (by decide)]
    exact ⟨h, hpairing⟩
  | injectEnter number | inject connection => exact ⟨h, hpairing⟩
  | dataClosed connection =>
    refine ⟨⟨h.tasks, fun running hmem => ?_⟩, hpairing⟩
    rcases List.mem_or_eq_of_mem_set hmem with hmem | rfl
    · exact h.injectTasks running hmem
    · rfl

/-- After a disconnect the handler is not pairing. -/
def DisconnectedIdle (s : ConnectionTasks) : Prop := s.disconnected = true → s.pairing = none

/-- A disconnect is final exactly if it has left all at rest. -/
theorem controlled_iff (hidle : s.DisconnectedIdle) :
    s.Controlled ↔
      (s.disconnected = true → s.AtRest) ∧ s.tasks.countP ConnTask.active ≤ 1 := by
  constructor
  · rintro ⟨hfinal, hsingle⟩
    refine ⟨fun hdisconnected => atRest_of_acts fun event => ?_, hsingle⟩
    exact hfinal hdisconnected [] (by simp) event
  · rintro ⟨hrest, hsingle⟩
    refine ⟨fun hdisconnected later hlater event => ?_, hsingle⟩
    have hreached : (later.foldl ConnectionTasks.step s).AtRest ∧
        (later.foldl ConnectionTasks.step s).pairing = none := by
      have hstart := hrest hdisconnected
      have hpairing := hidle hdisconnected
      clear hrest hsingle hidle hdisconnected
      induction later generalizing s with
      | nil => exact ⟨hstart, hpairing⟩
      | cons first later ih =>
        obtain ⟨hfirst, hlater⟩ := List.forall_mem_cons.mp hlater
        obtain ⟨hnext, hnone⟩ := hstart.step hpairing hfirst
        exact ih hlater hnext hnone
    exact hreached.1.acts event

/-- What a step of a task leaves: the handler is where it was, and no task more is active. -/
structure StepOfTask (s s' : ConnectionTasks) : Prop where
  disconnected : s'.disconnected = s.disconnected
  pairing : s'.pairing = s.pairing
  active : s'.tasks.countP ConnTask.active ≤ s.tasks.countP ConnTask.active

/-- An attempt that fails is a step of its task. -/
theorem stepOfTask_attemptFailed {number : ℕ} {task : ConnTask}
    (htask : s.task? number .attempting = some task) (error : String) :
    s.StepOfTask (s.attemptFailed number task error) := by
  obtain ⟨hget, hphase⟩ := task?_eq_some htask
  have hactive : task.active = true := by simp [ConnTask.active, hphase]
  unfold attemptFailed
  split
  · exact ⟨rfl, rfl, countP_active_set_le hget hactive⟩
  · exact ⟨rfl, rfl, countP_active_set_le hget hactive⟩

/-- The steps of the tasks. -/
theorem stepOfTask_step (s : ConnectionTasks) {event : ConnEvent} (hevent : event.ofTask = true) :
    s.StepOfTask (s.step event) := by
  have hsame : s.StepOfTask s := ⟨rfl, rfl, Nat.le_refl _⟩
  have hmoves : ∀ {number : ℕ} {phase : ConnPhase} {task task' : ConnTask},
      phase ≠ .ended → s.task? number phase = some task →
        (s.tasks.set number task').countP ConnTask.active ≤ s.tasks.countP ConnTask.active := by
    intro number phase task task' hphase htask
    obtain ⟨hget, rfl⟩ := task?_eq_some htask
    exact countP_active_set_le hget (by simpa [ConnTask.active] using hphase)
  cases event with
  | connectClient serverAddress trusted => exact absurd hevent.symm Bool.false_ne_true.symm
  | pairAndConnect serverAddress => exact absurd hevent Bool.false_ne_true
  | paired result => exact absurd hevent Bool.false_ne_true
  | disconnectClient => exact absurd hevent Bool.false_ne_true
  | connected number screen =>
    simp only [ConnectionTasks.step]
    split
    · rename_i task htask
      exact ⟨rfl, rfl, hmoves (by decide) htask⟩
    · exact hsame
  | failed number error | timedOut number =>
    simp only [ConnectionTasks.step]
    split
    · rename_i task htask
      exact stepOfTask_attemptFailed htask _
    · exact hsame
  | connectionLost number | reconnect number =>
    simp only [ConnectionTasks.step]
    split
    · rename_i task htask
      exact ⟨rfl, rfl, hmoves (by decide) htask⟩
    · exact hsame
  | injectEnter number | inject connection => exact hsame
  | dataClosed connection => exact ⟨rfl, rfl, Nat.le_refl _⟩

/-- Every step keeps the handler idle after a disconnect. -/
theorem DisconnectedIdle.step (h : s.DisconnectedIdle) (event : ConnEvent) :
    (s.step event).DisconnectedIdle := by
  cases htask : event.ofTask with
  | true =>
    have hstep := stepOfTask_step s htask
    intro hdisconnected
    rw [hstep.pairing]
    exact h (hstep.disconnected ▸ hdisconnected)
  | false =>
    cases event with
    | connectClient serverAddress trusted =>
      simp only [ConnectionTasks.step]
      split
      · exact h
      · split <;> exact fun hdisconnected => absurd hdisconnected Bool.false_ne_true
    | pairAndConnect serverAddress =>
      simp only [ConnectionTasks.step]
      split
      · exact h
      · exact fun hdisconnected => absurd hdisconnected Bool.false_ne_true
    | paired result =>
      simp only [ConnectionTasks.step]
      split
      · exact fun _ => rfl
      · exact fun _ => rfl
      · exact h
    | disconnectClient =>
      simp only [ConnectionTasks.step]
      split
      · exact h
      · rename_i hpairing
        exact fun _ => by simpa using hpairing
    | _ => exact absurd htask (by simp [ConnEvent.ofTask])

/-- One more task is active after a spawn. -/
theorem countP_active_spawn (s : ConnectionTasks) (serverAddress : String) :
    (s.spawn serverAddress).tasks.countP ConnTask.active =
      s.tasks.countP ConnTask.active + 1 := by
  simp [spawn, ConnTask.start, ConnTask.active]

/-- A step keeps control exactly if it is tidy. -/
theorem Controlled.step_iff (h : s.Controlled) (hidle : s.DisconnectedIdle) (event : ConnEvent) :
    (s.step event).Controlled ↔ s.Tidy event := by
  obtain ⟨hrest, hsingle⟩ := (controlled_iff hidle).mp h
  rw [controlled_iff (hidle.step event)]
  have hconnecting : s.pairing.isSome = true → s.disconnected = false := by
    intro hpairing
    cases hdisconnected : s.disconnected with
    | false => rfl
    | true => rw [hidle hdisconnected] at hpairing; exact absurd hpairing Bool.false_ne_true
  cases htask : event.ofTask with
  | true =>
    have htidy : s.Tidy event := by
      cases event <;> trivial
    have hcommand : event.connects = false := by
      cases event <;> first | rfl | exact absurd htask Bool.false_ne_true
    have hstep := stepOfTask_step s htask
    refine iff_of_true ⟨fun hdisconnected => ?_, Nat.le_trans hstep.active hsingle⟩ htidy
    have hbefore := hstep.disconnected ▸ hdisconnected
    exact ((hrest hbefore).step (hidle hbefore) hcommand).1
  | false =>
    cases event with
    | connectClient serverAddress trusted =>
      simp only [ConnectionTasks.step, Tidy]
      split
      · rename_i hpairing
        refine iff_of_true ⟨hrest, hsingle⟩ fun hnone => ?_
        rw [hnone] at hpairing
        exact absurd hpairing Bool.false_ne_true
      · rename_i hpairing
        have hnone : s.pairing = none := by simpa using hpairing
        split
        · rename_i htrusted
          have hcount := countP_active_spawn s serverAddress
          simp only [hnone, htrusted, forall_const, hcount]
          simp
        · rename_i htrusted
          refine iff_of_true ⟨fun hfalse => absurd hfalse Bool.false_ne_true, hsingle⟩ ?_
          exact fun _ htrue => absurd htrue htrusted
    | pairAndConnect serverAddress =>
      refine iff_of_true ?_ trivial
      simp only [ConnectionTasks.step]
      split
      · exact ⟨hrest, hsingle⟩
      · exact ⟨fun hfalse => absurd hfalse Bool.false_ne_true, hsingle⟩
    | paired result =>
      cases hpairing : s.pairing with
      | none =>
        simp only [ConnectionTasks.step, Tidy, hpairing]
        exact iff_of_true ⟨hrest, hsingle⟩ fun hfalse => absurd hfalse Bool.false_ne_true
      | some serverAddress =>
        have hconnected : s.disconnected = false := hconnecting (by rw [hpairing]; rfl)
        cases result with
        | error error =>
          simp only [ConnectionTasks.step, Tidy, hpairing]
          refine iff_of_true ⟨fun hfalse => ?_, hsingle⟩ fun _ hfalse => ?_
          · exact absurd (hconnected.symm.trans hfalse) Bool.false_ne_true
          · exact absurd hfalse Bool.false_ne_true
        | ok done =>
          have hcount := countP_active_spawn s serverAddress
          simp only [ConnectionTasks.step, Tidy, hpairing, hcount, Option.isSome_some, Except.isOk,
            Except.toBool, forall_const]
          constructor
          · rintro ⟨-, hle⟩
            omega
          · intro hzero
            refine ⟨fun hfalse => ?_, by omega⟩
            exact absurd (hconnected.symm.trans hfalse) Bool.false_ne_true
    | disconnectClient =>
      simp only [ConnectionTasks.step, Tidy]
      split
      · rename_i hpairing
        refine iff_of_true ⟨hrest, hsingle⟩ fun hnone => ?_
        rw [hnone] at hpairing
        exact absurd hpairing Bool.false_ne_true
      · rename_i hpairing
        have hnone : s.pairing = none := by simpa using hpairing
        constructor
        · rintro ⟨hstopped, -⟩ -
          exact ⟨(hstopped rfl).tasks, (hstopped rfl).injectTasks⟩
        · intro hstopped
          exact ⟨fun _ => ⟨(hstopped hnone).tasks, (hstopped hnone).injectTasks⟩, hsingle⟩
    | _ => exact absurd htask (by simp [ConnEvent.ofTask])

/-- **Final disconnects.** In a run of commands and tasks in any order, in every state reached a
disconnect is final and at most one connection task is active, if and only if each disconnect
finds nothing to stop and each task is spawned when none is active. -/
theorem controlled_iff_tidy (events : List ConnEvent) :
    (∀ first, first <+: events → (first.foldl step start).Controlled) ↔
      Run.Along step Tidy start events := by
  have hidle : start.DisconnectedIdle := fun h => absurd h Bool.false_ne_true
  have hcontrolled : start.Controlled :=
    (controlled_iff hidle).mpr ⟨fun h => absurd h Bool.false_ne_true, Nat.zero_le 1⟩
  refine Run.forall_reached_iff_along (fun s => s.DisconnectedIdle ∧ s.Controlled) ?_ ?_
    ⟨hidle, hcontrolled⟩ hcontrolled events
  · rintro s event htidy ⟨hidle, hcontrolled⟩
    exact ⟨hidle.step event, (hcontrolled.step_iff hidle event).mpr htidy⟩
  · rintro s event ⟨hidle, hcontrolled⟩
    exact hcontrolled.step_iff hidle event

/-- The client connects, the user disconnects, the connection is lost and made again. -/
def reconnected : List ConnEvent :=
  [.connectClient "10.0.0.2:9876" true, .connected 0 (some (1920, 1080)), .disconnectClient,
    .connectionLost 0, .reconnect 0, .connected 0 (some (1920, 1080))]

/-- After the disconnect the task injects, reconnects, and says that the client is connected. -/
theorem reconnected_not_controlled :
    let s := (reconnected.take 3).foldl step start
    s.disconnected = true ∧ s.Acts (.inject 0) = true ∧
      (reconnected.foldl step start).disconnected = true ∧
      (reconnected.foldl step start).status.clientConnected = true ∧ ¬ s.Controlled := by
  refine ⟨by decide, by decide, by decide, by decide, fun h => ?_⟩
  exact absurd (h.final (by decide) [] (by simp) (.inject 0)) (by decide)

end ConnectionTasks

end SuperShare
