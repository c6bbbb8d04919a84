import SuperShare.Lib.Text
import SuperShare.Pairing.TrustLists
import SuperShare.Session.Connections

/-!
# The client tab and the command handler

The window shows one button, whose command depends on what the backend displays. After the lock on
the display is dropped, the command is queued for the handler, or dropped when the queue is full.
The handler runs in another thread, so it may take a command, or display its result, in between.
Explicit certificate paths are to override pairing, but the window sends them only with the command
to connect, and offers this command only while no pairing is required. This file says exactly from
which states on nothing but a pairing connects the client again.
-/

namespace SuperShare

/-- A command from the window. Those to the server are kept without their settings. -/
inductive AppCommand where
  | startServer
  | stopServer
  | connectClient (serverAddress : String) (certPath keyPath caPath : Option String)
      (deviceName : String)
  | pairAndConnect (serverAddress pin deviceName : String)
  | disconnectClient
  deriving DecidableEq, Repr

/-- How many commands are queued for the handler at most. -/
def commandCapacity : ℕ := 16

/-- What the client tab edits and shows. -/
structure ClientTab where
  deviceName : String
  serverAddress : Option String
  certPath : Option String
  keyPath : Option String
  caPath : Option String
  pinInput : String
  validationError : Option String
  deriving DecidableEq, Repr

/-- What the user does in the client tab. -/
inductive TabInput where
  | deviceName (text : String)
  | serverAddress (text : String)
  | certPath (path : Option String)
  | keyPath (path : Option String)
  | caPath (path : Option String)
  | pin (text : String)
  /-- The button below the settings. -/
  | button

namespace ClientTab

/-- An address that is left empty is none. -/
def showAddress (tab : ClientTab) : ClientTab :=
  { tab with serverAddress := tab.serverAddress.filter (· ≠ "") }

/-- A command that needs the server address, or the error that it is missing. -/
def send (tab : ClientTab) (command : String → AppCommand) : ClientTab × Option AppCommand :=
  match tab.serverAddress with
  | none => ({ tab with validationError := some "Please enter the server address." }, none)
  | some serverAddress => ({ tab with validationError := none }, some (command serverAddress))

/-- The button, and the command that it sends. -/
def clicked (tab : ClientTab) (status : ClientStatus) : ClientTab × Option AppCommand :=
  if status.clientConnected then (tab, some .disconnectClient)
  else if status.pairingRequired then
    if tab.serverAddress.isSome && Text.trim tab.pinInput = "" then
      ({ tab with validationError := some "Please enter the pairing PIN." }, none)
    else
      tab.send fun serverAddress =>
        .pairAndConnect serverAddress (Text.trim tab.pinInput) tab.deviceName
  else
    tab.send fun serverAddress =>
      .connectClient serverAddress tab.certPath tab.keyPath tab.caPath tab.deviceName

/-- `show_client_tab`, for one input. The settings are enabled while no client is connected, and
the PIN is asked for while pairing is required. -/
def showClientTab (tab : ClientTab) (status : ClientStatus) :
    TabInput → ClientTab × Option AppCommand
  | .deviceName text =>
      (if status.clientConnected then tab else { tab with deviceName := text }, none)
  | .serverAddress text =>
      (if status.clientConnected then tab else { tab with serverAddress := some text }, none)
  | .certPath path =>
      (if status.clientConnected then tab else { tab with certPath := path }, none)
  | .keyPath path =>
      (if status.clientConnected then tab else { tab with keyPath := path }, none)
  | .caPath path =>
      (if status.clientConnected then tab else { tab with caPath := path }, none)
  | .pin text =>
      (if status.pairingRequired && !status.clientConnected then { tab with pinInput := text }
        else tab, none)
  | .button => tab.showAddress.clicked status

end ClientTab

/-- A command to connect for which certificates are found. -/
def AppCommand.trusted (config : AppConfig) : AppCommand → Bool
  | connectClient serverAddress certPath keyPath caPath _ =>
      (resolveClientCerts config serverAddress certPath keyPath caPath).isSome
  | _ => false

/-- A command to connect without pairing. -/
def AppCommand.isConnect : AppCommand → Bool
  | connectClient .. => true
  | _ => false

/-- The window, the queue of commands, and the handler with its connection tasks. -/
structure ClientApp where
  tab : ClientTab
  /-- What a click has decided on, and the window has yet to send. -/
  cmdToSend : Option AppCommand
  queue : List AppCommand
  /-- What the handler has taken, and has yet to handle. -/
  taken : Option AppCommand
  /-- The handler's own configuration. -/
  config : AppConfig
  tasks : ConnectionTasks
  deriving DecidableEq, Repr

/-- A step of the window, the handler or a task. -/
inductive ClientAppEvent where
  /-- The window looks at the display, and takes an input in the client tab. -/
  | tab (input : TabInput)
  /-- The button in the server tab. -/
  | serverTab (start : Bool)
  /-- The window sends the command it has decided on. -/
  | send
  /-- The handler takes the next command. -/
  | take
  /-- The handler handles the command. If it starts the server, it displays its result. -/
  | handle (lastError : Option String)
  /-- Pairing, and storing the certificates, is over, with the record of the server. -/
  | paired (result : Except String KnownServer)
  | task (event : ConnEvent)
  /-- The server ends with an error. -/
  | serverError (error : String)

/-- Every event but the end of a pairing with success. -/
def ClientAppEvent.NoPairing : ClientAppEvent → Prop
  | paired (.ok _) => False
  | _ => True

namespace ClientApp

/-- The application has started, with the settings and the configuration that were loaded. -/
def start (tab : ClientTab) (config : AppConfig) : ClientApp :=
  ⟨tab, none, [], none, config, .start⟩

/-- `try_send`. -/
def trySend (s : ClientApp) (command : AppCommand) : ClientApp :=
  if s.queue.length < commandCapacity then { s with queue := s.queue ++ [command] } else s

/-- The window displays another error. -/
def display (s : ClientApp) (lastError : Option String) : ClientApp :=
  { s with tasks := { s.tasks with status := { s.tasks.status with lastError := lastError } } }

/-- The handler on a command. -/
def handle (s : ClientApp) (lastError : Option String) : AppCommand → ClientApp
  | .startServer => s.display lastError
  | .stopServer => s
  | .connectClient serverAddress certPath keyPath caPath deviceName =>
      { s with
        tasks := s.tasks.step (.connectClient serverAddress
          ((AppCommand.connectClient serverAddress certPath keyPath caPath deviceName).trusted
            s.config)) }
  | .pairAndConnect serverAddress _ _ =>
      { s with tasks := s.tasks.step (.pairAndConnect serverAddress) }
  | .disconnectClient => { s with tasks := s.tasks.step .disconnectClient }

/-- One step. A step that is not possible changes nothing: the window does nothing else before it
has sent a command, and the handler takes no command while it handles one or waits for a pairing. -/
def step (s : ClientApp) : ClientAppEvent → ClientApp
  | .tab input =>
      if s.cmdToSend.isSome then s
      else
        let (tab, command) := s.tab.showClientTab s.tasks.status input
        { s with tab := tab, cmdToSend := command }
  | .serverTab start =>
      if s.cmdToSend.isSome then s
      else { s with cmdToSend := some (if start then .startServer else .stopServer) }
  | .send =>
      match s.cmdToSend with
      | some command => { s with cmdToSend := none }.trySend command
      | none => s
  | .take =>
      if s.taken.isSome || s.tasks.pairing.isSome then s
      else { s with taken := s.queue.head?, queue := s.queue.tail }
  | .handle lastError =>
      match s.taken with
      | some command => { s with taken := none }.handle lastError command
      | none => s
  | .paired result =>
      match s.tasks.pairing, result with
      | some serverAddress, .ok server =>
          { s with
            config := s.config.upsertKnownServer { server with address := serverAddress }
            tasks := s.tasks.step (.paired (.ok ())) }
      | some _, .error error => { s with tasks := s.tasks.step (.paired (.error error)) }
      | none, _ => s
  | .task event => if event.ofTask then { s with tasks := s.tasks.step event } else s
  | .serverError error => s.display (some s!"Server error: {error}")

/-- The commands that the handler has taken or finds in the queue. -/
def waiting (s : ClientApp) : List AppCommand := s.taken.toList ++ s.queue

/-- Pairing is required, and no command on its way finds certificates. -/
def Locked (s : ClientApp) : Prop :=
  s.tasks.status.pairingRequired = true ∧
    ∀ command ∈ s.waiting ++ s.cmdToSend.toList, command.trusted s.config = false

instance lockedDecidable (s : ClientApp) : Decidable s.Locked := inferInstanceAs (Decidable (_ ∧ _))

end ClientApp

namespace ConnectionTasks

variable {s : ConnectionTasks}

/-- The tasks do not touch that pairing is required, nor do they spawn connection tasks. -/
theorem step_of_ofTask (s : ConnectionTasks) {event : ConnEvent} (hevent : event.ofTask = true) :
    (s.step event).status.pairingRequired = s.status.pairingRequired ∧
      (s.step event).tasks.length = s.tasks.length := by
  cases event with
  | connectClient serverAddress trusted => exact absurd hevent Bool.false_ne_true
  | pairAndConnect serverAddress => exact absurd hevent Bool.false_ne_true
  | paired result => exact absurd hevent Bool.false_ne_true
  | disconnectClient => exact absurd hevent Bool.false_ne_true
  | connected number screen | connectionLost number | reconnect number =>
    simp only [ConnectionTasks.step]
    split <;> simp
  | failed number error | timedOut number =>
    simp only [ConnectionTasks.step, attemptFailed]
    split
    · split <;> simp
    · simp
  | injectEnter number | inject connection | dataClosed connection => exact ⟨rfl, rfl⟩

/-- If the window says that the client is connected, a task is. -/
def Witnessed (s : ConnectionTasks) : Prop :=
  s.status.clientConnected = true → ∃ number task, s.task? number .connected = some task

/-- A connected task stays so when another task moves. -/
theorem task?_set {number number' : ℕ} {task task' new : ConnTask} {phase phase' : ConnPhase}
    (h : s.task? number phase = some task) (h' : s.task? number' phase' = some task')
    (hne : phase ≠ phase') :
    ((s.tasks.set number' new)[number]?).filter (fun t => decide (t.phase = phase)) =
      some task := by
  have hnumber : number' ≠ number := by
    rintro rfl
    obtain ⟨hget, hphase⟩ := task?_eq_some h
    obtain ⟨hget', hphase'⟩ := task?_eq_some h'
    obtain rfl : task = task' := Option.some.inj (hget.symm.trans hget')
    exact hne (hphase.symm.trans hphase')
  rw [List.getElem?_set_ne hnumber]
  exact h

/-- Every step of a task keeps the window right about being connected. -/
theorem Witnessed.step_of_ofTask (h : s.Witnessed) {event : ConnEvent}
    (hevent : event.ofTask = true) : (s.step event).Witnessed := by
  have hother : ∀ {number : ℕ} {task new : ConnTask} {phase : ConnPhase} {s' : ConnectionTasks},
      s.task? number phase = some task → phase ≠ .connected →
        s'.status.clientConnected = s.status.clientConnected →
          s'.tasks = s.tasks.set number new → s'.Witnessed := by
    intro number task new phase s' htask hphase hstatus htasks hconnected
    obtain ⟨number', task', htask'⟩ := h (hstatus ▸ hconnected)
    refine ⟨number', task', ?_⟩
    rw [task?, htasks]
    exact task?_set htask' htask hphase.symm
  have hfails : ∀ {number : ℕ} {task : ConnTask} (error : String),
      s.task? number .attempting = some task → (s.attemptFailed number task error).Witnessed := by
    intro number task error htask
    unfold attemptFailed
    split
    · exact fun hconnected => absurd hconnected Bool.false_ne_true
    · exact hother htask (by decide) rfl rfl
  cases event with
  | connectClient serverAddress trusted => exact absurd hevent Bool.false_ne_true
  | pairAndConnect serverAddress => exact absurd hevent Bool.false_ne_true
  | paired result => exact absurd hevent Bool.false_ne_true
  | disconnectClient => exact absurd hevent Bool.false_ne_true
  | connected number screen =>
    simp only [ConnectionTasks.step]
    split
    · rename_i task htask
      intro _
      obtain ⟨hlt, -⟩ := List.getElem?_eq_some_iff.mp (task?_eq_some htask).1
      refine ⟨number, { task with phase := .connected, firstAttempt := false, backoff := 1 }, ?_⟩
      simp [task?, List.getElem?_set_self hlt]
    · exact h
  | failed number error | timedOut number =>
    simp only [ConnectionTasks.step]
    split
    · rename_i task htask
      exact hfails _ htask
    · exact h
  | connectionLost number =>
    simp only [ConnectionTasks.step]
    split
    · exact fun hconnected => absurd hconnected Bool.false_ne_true
    · exact h
  | reconnect number =>
    simp only [ConnectionTasks.step]
    split
    · rename_i task htask
      exact hother htask (by decide) rfl rfl
    · exact h
  | injectEnter number | inject connection | dataClosed connection => exact h

/-- A new task leaves the others where they are. -/
theorem Witnessed.spawn (h : s.Witnessed) (serverAddress : String) :
    (s.spawn serverAddress).Witnessed := by
  intro hconnected
  obtain ⟨number, task, htask⟩ := h hconnected
  obtain ⟨hlt, -⟩ := List.getElem?_eq_some_iff.mp (task?_eq_some htask).1
  refine ⟨number, task, ?_⟩
  rw [task?, ConnectionTasks.spawn, List.getElem?_append_left hlt]
  exact htask

/-- Every step keeps the window right about being connected. -/
theorem Witnessed.step (h : s.Witnessed) (event : ConnEvent) : (s.step event).Witnessed := by
  cases htask : event.ofTask with
  | true => exact h.step_of_ofTask htask
  | false =>
    cases event with
    | connectClient serverAddress trusted =>
      simp only [ConnectionTasks.step]
      split
      · exact h
      · split
        · exact h.spawn serverAddress
        · exact h
    | pairAndConnect serverAddress =>
      simp only [ConnectionTasks.step]
      split <;> exact h
    | paired result =>
      simp only [ConnectionTasks.step]
      split
      · exact h.spawn _
      · exact h
      · exact h
    | disconnectClient =>
      simp only [ConnectionTasks.step]
      split
      · exact h
      · exact fun hconnected => absurd hconnected Bool.false_ne_true
    | _ => exact absurd htask (by simp [ConnEvent.ofTask])

end ConnectionTasks

/-- Only a command to connect finds certificates. -/
theorem AppCommand.trusted_eq_false {command : AppCommand} (h : command.isConnect = false)
    (config : AppConfig) : command.trusted config = false := by
  cases command with
  | connectClient => exact absurd h.symm Bool.false_ne_true
  | startServer | stopServer | pairAndConnect | disconnectClient => rfl

/-- What is sent is the command with the address. -/
theorem ClientTab.snd_send {tab : ClientTab} {make : String → AppCommand} {command : AppCommand}
    (h : (tab.send make).2 = some command) : ∃ serverAddress, command = make serverAddress := by
  unfold ClientTab.send at h
  split at h
  · exact absurd h (by simp)
  · exact ⟨_, (Option.some.inj h).symm⟩

/-- While pairing is required, the window does not offer to connect. -/
theorem ClientTab.isConnect_eq_false {tab : ClientTab} {status : ClientStatus} {input : TabInput}
    {command : AppCommand} (hrequired : status.pairingRequired = true)
    (h : (tab.showClientTab status input).2 = some command) : command.isConnect = false := by
  cases input with
  | button =>
    simp only [showClientTab, clicked, hrequired, if_true] at h
    split at h
    · obtain rfl := Option.some.inj h
      rfl
    · split at h
      · exact absurd h (by simp)
      · obtain ⟨serverAddress, rfl⟩ := snd_send h
        rfl
  | deviceName | serverAddress | certPath | keyPath | caPath | pin =>
    exact absurd h (by simp [showClientTab])

namespace ClientApp

variable {s : ClientApp}

/-- A command that finds no certificates spawns no task, and leaves it required to pair. -/
theorem handle_of_untrusted (hidle : s.tasks.pairing = none) {command : AppCommand}
    (h : command.trusted s.config = false) (lastError : Option String) :
    (s.handle lastError command).waiting = s.waiting ∧
      (s.handle lastError command).cmdToSend = s.cmdToSend ∧
      (s.handle lastError command).config = s.config ∧
      (s.handle lastError command).tasks.tasks = s.tasks.tasks ∧
      (s.handle lastError command).tasks.status.pairingRequired =
        (command.isConnect || s.tasks.status.pairingRequired) := by
  cases command with
  | startServer | stopServer => exact ⟨rfl, rfl, rfl, rfl, rfl⟩
  | connectClient serverAddress certPath keyPath caPath deviceName =>
    simp [handle, waiting, h, ConnectionTasks.step, hidle, AppCommand.isConnect]
  | pairAndConnect serverAddress pin deviceName =>
    simp [handle, waiting, ConnectionTasks.step, hidle, AppCommand.isConnect]
  | disconnectClient => simp [handle, waiting, ConnectionTasks.step, hidle, AppCommand.isConnect]

/-- The window is right about being connected, and the handler does not wait for a pairing when it
has taken a command. -/
structure Kept (s : ClientApp) : Prop where
  witnessed : s.tasks.Witnessed
  idle : s.taken ≠ none → s.tasks.pairing = none

/-- The tasks of the client do not begin a pairing. -/
theorem pairing_of_ofTask (tasks : ConnectionTasks) {event : ConnEvent}
    (hevent : event.ofTask = true) : (tasks.step event).pairing = tasks.pairing := by
  cases event with
  | connectClient | pairAndConnect | paired | disconnectClient =>
    exact absurd hevent Bool.false_ne_true
  | connected number screen | connectionLost number | reconnect number =>
    simp only [ConnectionTasks.step]
    split <;> rfl
  | failed number error | timedOut number =>
    simp only [ConnectionTasks.step, ConnectionTasks.attemptFailed]
    split
    · split <;> rfl
    · rfl
  | injectEnter | inject | dataClosed => rfl

/-- Every step keeps both. -/
theorem Kept.step (h : s.Kept) (event : ClientAppEvent) : (s.step event).Kept := by
  cases event with
  | tab input | serverTab start =>
    simp only [ClientApp.step]
    split
    · exact h
    · exact ⟨h.witnessed, h.idle⟩
  | send =>
    simp only [ClientApp.step]
    split
    · unfold ClientApp.trySend
      split <;> exact ⟨h.witnessed, h.idle⟩
    · exact h
  | take =>
    simp only [ClientApp.step]
    split
    · exact h
    · rename_i hready
      have hready : s.taken = none ∧ s.tasks.pairing = none := by simpa using hready
      exact ⟨h.witnessed, fun _ => hready.2⟩
  | handle lastError =>
    simp only [ClientApp.step]
    split
    · rename_i command _
      cases command with
      | startServer | stopServer => exact ⟨h.witnessed, fun htaken => absurd rfl htaken⟩
      | connectClient | pairAndConnect | disconnectClient =>
        exact ⟨h.witnessed.step _, fun htaken => absurd rfl htaken⟩
    · exact h
  | paired result =>
    simp only [ClientApp.step]
    split
    · exact ⟨h.witnessed.step _, fun htaken => absurd (h.idle htaken) (by simp [*])⟩
    · exact ⟨h.witnessed.step _, fun htaken => absurd (h.idle htaken) (by simp [*])⟩
    · exact h
  | task event =>
    simp only [ClientApp.step]
    split
    · rename_i htask
      have hpairing := pairing_of_ofTask s.tasks htask
      exact ⟨h.witnessed.step event, fun htaken => hpairing.trans (h.idle htaken)⟩
    · exact h
  | serverError error => exact ⟨h.witnessed, h.idle⟩

/-- Nothing but a pairing leads out, or spawns a task. -/
theorem Locked.step (h : s.Locked) (hkept : s.Kept) {event : ClientAppEvent}
    (hevent : event.NoPairing) :
    (s.step event).Locked ∧ (s.step event).tasks.tasks.length = s.tasks.tasks.length := by
  obtain ⟨hrequired, huntrusted⟩ := h
  obtain ⟨hwaiting, hclicked⟩ := List.forall_mem_append.mp huntrusted
  cases event with
  | tab input =>
    simp only [ClientApp.step]
    split
    · exact ⟨⟨hrequired, huntrusted⟩, rfl⟩
    · refine ⟨⟨hrequired, List.forall_mem_append.mpr ⟨hwaiting, fun command hcommand => ?_⟩⟩, rfl⟩
      -- while pairing is required, the click is not to connect
      exact AppCommand.trusted_eq_false
        (ClientTab.isConnect_eq_false hrequired (Option.mem_toList.mp hcommand)) _
  | serverTab start =>
    simp only [ClientApp.step]
    split
    · exact ⟨⟨hrequired, huntrusted⟩, rfl⟩
    · refine ⟨⟨hrequired, List.forall_mem_append.mpr ⟨hwaiting, ?_⟩⟩, rfl⟩
      cases start <;> simp [AppCommand.trusted]
  | send =>
    simp only [ClientApp.step]
    split
    · rename_i command hcommand
      have hsent : command.trusted s.config = false := hclicked command (by simp [hcommand])
      unfold ClientApp.trySend
      split
      · refine ⟨⟨hrequired, fun other hother => ?_⟩, rfl⟩
        have hmem : other ∈ s.waiting ∨ other = command := by
          simpa [waiting, or_assoc] using hother
        rcases hmem with hmem | rfl
        · exact hwaiting other hmem
        · exact hsent
      · exact ⟨⟨hrequired, by simpa [waiting] using hwaiting⟩, rfl⟩
    · exact ⟨⟨hrequired, huntrusted⟩, rfl⟩
  | take =>
    simp only [ClientApp.step]
    split
    · exact ⟨⟨hrequired, huntrusted⟩, rfl⟩
    · rename_i hready
      have hready : s.taken = none ∧ s.tasks.pairing = none := by simpa using hready
      refine ⟨⟨hrequired, fun command hcommand => huntrusted command ?_⟩, rfl⟩
      cases hqueue : s.queue <;> simpa [waiting, hready.1, hqueue] using hcommand
  | handle lastError =>
    simp only [ClientApp.step]
    split
    · rename_i command htaken
      have hcommand : command.trusted s.config = false :=
        hwaiting command (by simp [waiting, htaken])
      obtain ⟨hwaiting', hclicked', hconfig, htasks, hrequired'⟩ :=
        handle_of_untrusted (s := { s with taken := none })
          (hkept.idle (by simp [htaken])) hcommand lastError
      refine ⟨⟨by rw [hrequired', hrequired, Bool.or_true], ?_⟩, by rw [htasks]⟩
      rw [hwaiting', hclicked', hconfig]
      refine List.forall_mem_append.mpr ⟨fun other hother => hwaiting other ?_, hclicked⟩
      exact List.mem_append_right _ (by simpa [waiting] using hother)
    · exact ⟨⟨hrequired, huntrusted⟩, rfl⟩
  | paired result =>
    simp only [ClientApp.step]
    split
    · exact absurd hevent id
    · rename_i hpairing
      simp only [ConnectionTasks.step, hpairing, and_true]
      exact ⟨hrequired, huntrusted⟩
    · exact ⟨⟨hrequired, huntrusted⟩, rfl⟩
  | task event =>
    simp only [ClientApp.step]
    split
    · rename_i htask
      obtain ⟨hrequired', hlength⟩ := s.tasks.step_of_ofTask htask
      exact ⟨⟨hrequired'.trans hrequired, huntrusted⟩, hlength⟩
    · exact ⟨⟨hrequired, huntrusted⟩, rfl⟩
  | serverError error => exact ⟨⟨hrequired, huntrusted⟩, rfl⟩

/-- One more task has been spawned. -/
def Spawns (count : ℕ) (s : ClientApp) : Prop := count < s.tasks.tasks.length

/-- The handler goes on: a pairing in progress fails, and it handles a command, taking it first if
it has none. -/
def turn : List ClientAppEvent := [.paired (.error ""), .take, .handle none]

/-- A turn of the handler needs no pairing. -/
theorem noPairing_turn : ∀ event ∈ turn, event.NoPairing := by
  simp [turn, ClientAppEvent.NoPairing]

/-- The first of the waiting commands is handled. -/
theorem foldl_turn (hkept : s.Kept) {command : AppCommand} {rest : List AppCommand}
    (hwaiting : s.waiting = command :: rest) :
    ∃ before, turn.foldl step s = ClientApp.handle before none command ∧
      before.tasks.pairing = none ∧ before.waiting = rest ∧ before.cmdToSend = s.cmdToSend ∧
      before.config = s.config ∧ before.tasks.tasks = s.tasks.tasks := by
  cases htaken : s.taken with
  | some first =>
    have hidle := hkept.idle (by simp [htaken])
    obtain ⟨rfl, hqueue⟩ : first = command ∧ s.queue = rest := by
      simpa [waiting, htaken] using hwaiting
    refine ⟨{ s with taken := none }, ?_, hidle, hqueue, rfl, rfl, rfl⟩
    simp [turn, step, hidle, htaken]
  | none =>
    have hqueue : s.queue = command :: rest := by simpa [waiting, htaken] using hwaiting
    cases hpairing : s.tasks.pairing with
    | none =>
      refine ⟨{ s with queue := rest }, ?_, hpairing, by simp [waiting, htaken], rfl, rfl, rfl⟩
      simp [turn, step, hpairing, htaken, hqueue]
    | some serverAddress =>
      refine ⟨{ s with queue := rest, tasks := s.tasks.step (.paired (.error "")) }, ?_, ?_,
        by simp [waiting, htaken], rfl, rfl, ?_⟩
      · simp [turn, step, hpairing, htaken, hqueue, ConnectionTasks.step]
      · simp [ConnectionTasks.step, hpairing]
      · simp [ConnectionTasks.step, hpairing]

/-- A command that finds certificates spawns a task. -/
theorem spawns_handle {count : ℕ} (hcount : count ≤ s.tasks.tasks.length)
    (hidle : s.tasks.pairing = none) {command : AppCommand}
    (hcommand : command.trusted s.config = true) (lastError : Option String) :
    (s.handle lastError command).Spawns count := by
  cases command with
  | connectClient serverAddress certPath keyPath caPath deviceName =>
    have hspawned : count < s.tasks.tasks.length + 1 := Nat.lt_succ_of_le hcount
    simpa [Spawns, handle, ConnectionTasks.step, hidle, hcommand, ConnectionTasks.spawn] using
      hspawned
  | startServer | stopServer | pairAndConnect | disconnectClient =>
    exact absurd hcommand Bool.false_ne_true

/-- The handler takes all that waits, and finds the certificates of one command. If it is one that
the window has yet to send, it is sent when there is place for it. -/
theorem canReach_of_trusted {count : ℕ} (hkept : s.Kept) (hcount : count ≤ s.tasks.tasks.length)
    (htrusted : ∃ command ∈ s.waiting ++ s.cmdToSend.toList, command.trusted s.config = true) :
    Run.CanReach step ClientAppEvent.NoPairing (Spawns count) s := by
  obtain ⟨wanted, hwanted, htrusted⟩ := htrusted
  induction hwaiting : s.waiting generalizing s with
  | nil =>
    -- nothing is before the command of the window: send it, then handle it
    obtain ⟨htaken, hqueue⟩ : s.taken = none ∧ s.queue = [] := by
      simpa [waiting] using hwaiting
    have hclicked : s.cmdToSend = some wanted := by simpa [hwaiting] using hwanted
    have hsend : s.step .send = { s with cmdToSend := none, queue := [wanted] } := by
      simp [step, hclicked, trySend, hqueue, commandCapacity]
    have hnext : (s.step .send).waiting = wanted :: [] := by
      rw [hsend]
      simp [waiting, htaken]
    obtain ⟨before, hturn, hidle, -, -, hconfig, htasks⟩ := foldl_turn (hkept.step .send) hnext
    refine Run.canReach_of_run (.send :: turn) (List.forall_mem_cons.mpr ⟨trivial, noPairing_turn⟩)
      (Run.canReach_of_goal ?_)
    rw [List.foldl_cons, hturn]
    rw [hsend] at hconfig htasks
    exact spawns_handle (by rw [htasks]; exact hcount) hidle (by rw [hconfig]; exact htrusted) none
  | cons command rest ih =>
    obtain ⟨before, hturn, hidle, hrest, hclicked, hconfig, htasks⟩ := foldl_turn hkept hwaiting
    refine Run.canReach_of_run turn noPairing_turn ?_
    have hkept' : (turn.foldl step s).Kept :=
      List.foldlRecOn turn step hkept fun s h event _ => h.step event
    rw [hturn] at hkept' ⊢
    cases hcommand : command.trusted s.config with
    | true =>
      rw [← htasks] at hcount
      rw [← hconfig] at hcommand
      exact Run.canReach_of_goal (spawns_handle hcount hidle hcommand none)
    | false =>
      obtain ⟨hwaiting', hclicked', hconfig', htasks', -⟩ :=
        handle_of_untrusted hidle (by rw [hconfig]; exact hcommand) none
      have hleft : wanted ∈ rest ++ s.cmdToSend.toList := by
        rw [hwaiting, List.cons_append] at hwanted
        refine (List.mem_cons.mp hwanted).resolve_left ?_
        rintro rfl
        exact absurd (hcommand.symm.trans htrusted) Bool.false_ne_true
      refine ih hkept' ?_ ?_ ?_ (hwaiting'.trans hrest)
      · rw [htasks', htasks]
        exact hcount
      · rw [hwaiting', hrest, hclicked', hclicked]
        exact hleft
      · rw [hconfig', hconfig]
        exact htrusted

/-- The user fills in an address and certificates, and asks to connect. -/
def connectExplicitly : List ClientAppEvent :=
  [.tab (.serverAddress "localhost"), .tab (.certPath (some "cert.pem")),
    .tab (.keyPath (some "key.pem")), .tab (.caPath (some "ca.pem")), .tab .button]

/-- While the window offers to connect, certificates can be given explicitly. -/
theorem canReach_of_enabled {count : ℕ} (hkept : s.Kept) (hcount : count ≤ s.tasks.tasks.length)
    (hrequired : s.tasks.status.pairingRequired = false)
    (hconnected : s.tasks.status.clientConnected = false) (hclicked : s.cmdToSend = none) :
    Run.CanReach step ClientAppEvent.NoPairing (Spawns count) s := by
  have hclick : (connectExplicitly.foldl step s).cmdToSend =
        some (.connectClient "localhost" (some "cert.pem") (some "key.pem") (some "ca.pem")
          s.tab.deviceName) ∧
      (connectExplicitly.foldl step s).tasks = s.tasks := by
    simp [connectExplicitly, step, ClientTab.showClientTab, ClientTab.showAddress,
      ClientTab.clicked, ClientTab.send, Option.filter_some, hconnected, hrequired, hclicked]
  obtain ⟨hcommand, htasks⟩ := hclick
  have hkept' : (connectExplicitly.foldl step s).Kept :=
    List.foldlRecOn connectExplicitly step hkept fun s h event _ => h.step event
  refine Run.canReach_of_run connectExplicitly
    (by simp [connectExplicitly, ClientAppEvent.NoPairing]) (canReach_of_trusted hkept' ?_ ?_)
  · rw [htasks]
    exact hcount
  · rw [hcommand]
    exact ⟨_, List.mem_append_right _ List.mem_cons_self, rfl⟩

/-- A command that is sent changes nothing that is displayed. -/
theorem step_send (s : ClientApp) :
    (s.step .send).cmdToSend = none ∧ (s.step .send).tasks = s.tasks := by
  simp only [step]
  split
  · unfold trySend
    split <;> exact ⟨rfl, rfl⟩
  · exact ⟨by assumption, rfl⟩

/-- The window sends what it has decided on, the connection is lost, and the window offers to
connect. -/
theorem canReach_of_not_required {count : ℕ} (hkept : s.Kept)
    (hcount : count ≤ s.tasks.tasks.length)
    (hrequired : s.tasks.status.pairingRequired = false) :
    Run.CanReach step ClientAppEvent.NoPairing (Spawns count) s := by
  obtain ⟨hclicked, htasks⟩ := s.step_send
  have hkept' := hkept.step .send
  rw [← htasks] at hcount hrequired
  refine Run.canReach_of_run [.send] (by simp [ClientAppEvent.NoPairing]) ?_
  show Run.CanReach step ClientAppEvent.NoPairing (Spawns count) (s.step .send)
  cases hconnected : (s.step .send).tasks.status.clientConnected with
  | false => exact canReach_of_enabled hkept' hcount hrequired hconnected hclicked
  | true =>
    obtain ⟨number, task, htask⟩ := hkept'.witnessed hconnected
    have hlost : ConnEvent.ofTask (.connectionLost number) = true := rfl
    obtain ⟨hrequired', hlength⟩ := (s.step .send).tasks.step_of_ofTask hlost
    have hkept'' := hkept'.step (.task (.connectionLost number))
    refine Run.canReach_of_run [.task (.connectionLost number)]
      (by simp [ClientAppEvent.NoPairing]) ?_
    refine canReach_of_enabled hkept'' ?_ (hrequired'.trans hrequired) ?_ hclicked
    · exact hcount.trans_eq hlength.symm
    · show ((s.step .send).tasks.step (.connectionLost number)).status.clientConnected = false
      simp only [ConnectionTasks.step, htask]

/-- What is not locked can connect. -/
theorem canReach_of_not_locked {count : ℕ} (hkept : s.Kept)
    (hcount : count ≤ s.tasks.tasks.length) (h : ¬ s.Locked) :
    Run.CanReach step ClientAppEvent.NoPairing (Spawns count) s := by
  cases hrequired : s.tasks.status.pairingRequired with
  | false => exact canReach_of_not_required hkept hcount hrequired
  | true =>
    refine canReach_of_trusted hkept hcount ?_
    by_contra hnone
    refine h ⟨hrequired, fun command hcommand => ?_⟩
    rw [← Bool.not_eq_true]
    exact fun htrusted => hnone ⟨command, hcommand, htrusted⟩

/-- **When only a pairing connects the client again.** In every state that is reached, the window,
the handler and the tasks can go on so that a connection task is spawned without a pairing, exactly
if the client is not locked. While it is, neither another server that the client is paired with nor
certificates that are given explicitly help. -/
theorem connects_without_pairing_iff (tab : ClientTab) (config : AppConfig)
    (events : List ClientAppEvent) :
    Run.CanReach step ClientAppEvent.NoPairing
        (Spawns (events.foldl step (start tab config)).tasks.tasks.length)
        (events.foldl step (start tab config)) ↔
      ¬ (events.foldl step (start tab config)).Locked := by
  have hstart : (start tab config).Kept :=
    ⟨fun hconnected => absurd hconnected Bool.false_ne_true, fun htaken => absurd rfl htaken⟩
  have hkept : (events.foldl step (start tab config)).Kept :=
    List.foldlRecOn events step hstart fun s h event _ => h.step event
  constructor
  · intro hreach hlocked
    refine Run.not_canReach_of_trap (fun s => s.Kept ∧ s.Locked ∧
      s.tasks.tasks.length = (events.foldl step (start tab config)).tasks.tasks.length)
      ?_ ?_ ⟨hkept, hlocked, rfl⟩ hreach
    · rintro s event hevent ⟨hkept, hlocked, hlength⟩
      obtain ⟨hnext, hsame⟩ := hlocked.step hkept hevent
      exact ⟨hkept.step event, hnext, hsame.trans hlength⟩
    · rintro s ⟨-, -, hlength⟩ hspawns
      exact absurd hspawns (by simp [Spawns, hlength])
  · exact canReach_of_not_locked hkept le_rfl

/-- The user asks to connect to a server that is not known, and the handler takes the command and
handles it. A click that comes between the two is one to connect, and unlocks. -/
example :
    let ask : List ClientAppEvent :=
      [.tab (.serverAddress "localhost"), .tab .button, .send, .take]
    let s := ask.foldl step (start ⟨"laptop", none, none, none, none, "", none⟩ ⟨[], []⟩)
    (s.step (.handle none)).Locked ∧
      ¬ ((connectExplicitly.foldl step s).step (.handle none)).Locked := by
  decide

end ClientApp

end SuperShare
