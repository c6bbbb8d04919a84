import SuperShare.Input.WarpCapture
import SuperShare.Network.Server

/-!
# Starting and stopping a server

The `StartServer` and `StopServer` branches of the command handler, and `start` in a task of its
own. The handler and a task that has failed write the same fields of the displayed state in
either order. The shutdown signal reaches `start` and its listeners, and nothing else: handlers
of connections, the event task and the input capture go on.
-/

namespace SuperShare

/-- What the window displays of the server. -/
structure ServerStatus where
  serverRunning : Bool
  serverPort : Option UInt16
  lastError : Option String
  deriving DecidableEq, Repr

/-- The part of `start` that can fail: certificates, then the two ports. -/
def bindListeners (tls control data : Except String Unit) : Except String Unit := do
  tls
  control
  data

/-- Where the spawned server task is. -/
inductive ServerTask where
  | spawned
  | serving
  /-- `start` has returned an error, which is not yet displayed. -/
  | failed (error : String)
  | reported (error : String)
  deriving DecidableEq, Repr

/-- The end of the `StartServer` branch, and the task that it has spawned. -/
structure ServerStart where
  controlPort : UInt16
  task : ServerTask
  /-- The handler has updated the state. -/
  updated : Bool
  status : ServerStatus
  deriving DecidableEq, Repr

/-- A step of one of the two. -/
inductive StartEvent where
  /-- The task loads the certificates and binds the ports. -/
  | bind (tls control data : Except String Unit)
  /-- The task displays its error. -/
  | report
  /-- The handler displays that the server runs. -/
  | update

namespace ServerStart

/-- The handler has spawned the task. -/
def spawned (controlPort : UInt16) (status : ServerStatus) : ServerStart :=
  ⟨controlPort, .spawned, false, status⟩

/-- One step. Each write of the displayed state holds its lock. -/
def step (s : ServerStart) : StartEvent → ServerStart
  | .bind tls control data =>
      match s.task with
      | .spawned =>
          match bindListeners tls control data with
          | .ok () => { s with task := .serving }
          | .error error => { s with task := .failed error }
      | _ => s
  | .report =>
      match s.task with
      | .failed error =>
          { s with
            task := .reported error
            status := ⟨false, none, some s!"Server error: {error}"⟩ }
      | _ => s
  | .update =>
      if s.updated then s
      else { s with updated := true, status := ⟨true, some s.controlPort, none⟩ }

/-- A server whose start has failed is displayed as not running, with the error, once the handler
and the task are done. -/
def Displayed (s : ServerStart) : Prop :=
  ∀ error, s.task = .reported error → s.updated = true →
    s.status = ⟨false, none, some s!"Server error: {error}"⟩

/-- The handler updates the state before the task displays an error. -/
def UpdateFirst (s : ServerStart) : StartEvent → Prop
  | .update => s.updated = false → ∀ error, s.task ≠ .reported error
  | _ => True

variable {s : ServerStart}

/-- A step keeps the display right exactly if the handler's update does not come last. -/
theorem Displayed.step_iff (h : s.Displayed) (event : StartEvent) :
    (s.step event).Displayed ↔ s.UpdateFirst event := by
  cases event with
  | bind tls control data =>
    refine iff_of_true ?_ trivial
    simp only [step]
    split
    · split
      · exact fun error hreported => nomatch hreported
      · exact fun error hreported => nomatch hreported
    · exact h
  | report =>
    refine iff_of_true ?_ trivial
    simp only [step]
    split
    · rintro error hreported -
      obtain rfl := ServerTask.reported.inj hreported
      rfl
    · exact h
  | update =>
    simp only [step, UpdateFirst]
    by_cases hupdated : s.updated = true
    · rw [if_pos hupdated]
      exact iff_of_true h fun hfalse => absurd (hupdated.symm.trans hfalse) (by simp)
    · rw [if_neg hupdated]
      constructor
      · intro hdisplayed _ error hreported
        exact absurd (hdisplayed error hreported rfl) (by simp)
      · intro hfirst error hreported
        exact absurd hreported (hfirst (by simpa using hupdated) error)

/-- **Failing starts.** For every order of the handler and the task, and every display before, a
failed start is displayed as such once both are done, if and only if the handler's update comes
before the error is displayed. -/
theorem displayed_iff_updateFirst (controlPort : UInt16) (status : ServerStatus)
    (events : List StartEvent) :
    (∀ first, first <+: events → (first.foldl step (spawned controlPort status)).Displayed) ↔
      Run.Along step UpdateFirst (spawned controlPort status) events := by
  have hstart : (spawned controlPort status).Displayed := fun error hreported => nomatch hreported
  exact Run.forall_reached_iff_along Displayed (fun s event hok h => (h.step_iff event).mpr hok)
    (fun s event h => h.step_iff event) hstart hstart events

/-- The port is in use, and the task is faster than the handler. -/
def portInUse : List StartEvent :=
  [.bind (.ok ()) (.error "Address already in use") (.ok ()), .report, .update]

/-- The server is displayed as running. -/
theorem portInUse_displayed_running :
    let s := portInUse.foldl step (spawned 9876 ⟨false, none, none⟩)
    s.status = ⟨true, some 9876, none⟩ ∧ ¬ s.Displayed := by
  refine ⟨by decide, fun h => ?_⟩
  exact absurd (h "Address already in use" (by decide) (by decide)) (by decide)

end ServerStart

/-- What `start` waits in: itself for the signal, and its listeners for connections or the
signal. -/
inductive Listener where
  | control | data | pairing
  deriving DecidableEq, Repr

/-- Where `start` is. -/
inductive StartPhase where
  | binding | serving | returned
  deriving DecidableEq, Repr

/-- One started server with its input capture. -/
structure ServerInstance (ι α : Type) where
  server : Server ι
  callback : CallbackState α
  exitRemote : Bool
  phase : StartPhase
  listening : Listener → Bool
  /-- The connections that a listener has accepted, each with a handler. -/
  accepted : Listener → ι → Bool
  /-- The sender of the shutdown signal was used or dropped. Either wakes the receivers. -/
  shutdown : Bool

/-- A step of the tasks of a server, or of its capture. -/
inductive InstanceEvent (ι α κ : Type) where
  /-- `start` binds its ports and spawns its listeners, or fails. -/
  | bind (bound pairing : Bool)
  | accept (listener : Listener) (i : ι)
  /-- A step of a connection handler or of the event task. -/
  | handler (event : ServerStep ι)
  /-- A client asks to leave remote mode. -/
  | exitRemote
  | input (event : EventType α κ) (room : Bool)
  /-- `start` is woken by the signal and returns. -/
  | wakeStart
  | wakeListener (listener : Listener)

/-- The servers that the command handler has started, and the list they share. -/
structure StartedServers (ι α : Type) where
  connectedClients : List String
  current : Option (ServerInstance ι α)
  earlier : List (ServerInstance ι α)

/-- A command, or a step of one of the servers. -/
inductive LifecycleEvent (ι α κ : Type) where
  /-- The screen size is detected. The certificates may not be found; then `start` is not
  called. -/
  | startServer (screenWidth screenHeight : UInt32) (resolved : Bool)
  | stopServer
  | current (event : InstanceEvent ι α κ)
  | earlier (n : ℕ) (event : InstanceEvent ι α κ)

variable {ι α φ κ : Type}

namespace Server

/-- Nobody is registered, and the capture knows of no client. -/
structure Vacant (s : Server ι) : Prop where
  clients : ∀ name, s.clients name = none
  hasClient : s.hasClient = false

/-- No handler finds its data connection, and the event task does not come to a client that has
connected. -/
def StaysVacant (s : Server ι) : ServerStep ι → Prop
  | .poll i =>
      ∀ hello attempts, s.control i = .waiting hello attempts → s.pendingData hello.name = none
  | .processEvent =>
      s.lagged = false → ∀ name rest, s.notifications ≠ .clientConnected name :: rest
  | _ => True

variable {s : Server ι}

/-- What Vacant depends on. -/
theorem Vacant.congr (h : s.Vacant) {s' : Server ι} (hclients : s'.clients = s.clients)
    (hclient : s'.hasClient = s.hasClient) : s'.Vacant := by
  constructor
  · rw [hclients]
    exact h.clients
  · rw [hclient]
    exact h.hasClient

/-- A notification leaves a vacant server vacant. -/
theorem Vacant.notify (h : s.Vacant) (event : ServerEvent) : (s.notify event).Vacant := by
  refine h.congr (notify_clients s event) ?_
  unfold Server.notify
  split <;> rfl

variable [DecidableEq ι]

/-- What is neither a poll nor the event task's leaves a vacant server vacant. -/
theorem Vacant.moves (h : s.Vacant) {event : ServerStep ι} {s' : Server ι}
    (hmove : s.Moves event s') (hpoll : ∀ i, event ≠ .poll i) (hprocess : event ≠ .processEvent) :
    s'.Vacant := by
  cases hmove with
  | register => exact absurd rfl (hpoll _)
  | process => exact absurd rfl hprocess
  | announce => exact (h.notify _).congr rfl rfl
  | depart => exact (h.notify _).congr rfl rfl
  | paired => exact h.notify _
  | cleanup =>
    refine ⟨fun other => ?_, h.hasClient⟩
    simp only [Function.update_apply]
    split
    · rfl
    · exact h.clients other
  | _ => exact h.congr rfl rfl

/-- A poll leaves a vacant server vacant exactly if it finds no data connection. -/
theorem Vacant.poll_iff (h : s.Vacant) (i : ι) :
    (s.step (.poll i)).Vacant ↔ s.StaysVacant (.poll i) := by
  cases hphase : s.control i with
  | waiting hello attempts =>
    simp only [step, hphase, StaysVacant, pollPending]
    cases hpending : s.pendingData hello.name with
    | none =>
      simp only
      refine iff_of_true ?_ ?_
      · split <;> exact h.congr rfl rfl
      · intro hello' attempts' hwaiting
        obtain ⟨rfl, -⟩ := ControlPhase.waiting.inj hwaiting
        exact hpending
    | some dataTx =>
      refine iff_of_false (fun hvacant => ?_) fun hnone => ?_
      · have hclient := hvacant.clients hello.name
        simp [register] at hclient
      · rw [hnone hello attempts rfl] at hpending
        exact absurd hpending (by simp)
  | _ =>
    simp only [step, hphase, StaysVacant]
    exact iff_of_true h fun _ _ hwaiting => by simp at hwaiting

/-- The event task leaves a vacant server vacant exactly if no client has connected. -/
theorem Vacant.processEvent_iff (h : s.Vacant) :
    (s.step .processEvent).Vacant ↔ s.StaysVacant .processEvent := by
  simp only [step, StaysVacant]
  split
  · rename_i event rest hlagged hqueue
    cases event with
    | clientConnected name =>
      refine iff_of_false (fun hvacant => ?_) fun hother => hother hlagged name rest hqueue
      exact absurd hvacant.hasClient (by simp [handleEvent])
    | clientDisconnected name =>
      refine iff_of_true ⟨h.clients, ?_⟩ fun _ name' rest' hsame => ?_
      · simp only [handleEvent, h.hasClient, ite_self]
      · simp [hqueue] at hsame
    | clientPaired name =>
      refine iff_of_true (h.congr rfl rfl) fun _ name' rest' hsame => ?_
      simp [hqueue] at hsame
  · rename_i hnone
    exact iff_of_true h fun hlagged name rest hqueue => hnone _ _ hlagged hqueue

/-- A step leaves a vacant server vacant exactly if it is of this kind. -/
theorem Vacant.step_iff (h : s.Vacant) (event : ServerStep ι) :
    (s.step event).Vacant ↔ s.StaysVacant event := by
  cases event with
  | poll i => exact h.poll_iff i
  | processEvent => exact h.processEvent_iff
  | _ => exact iff_of_true (h.moves (s.moves_step _) (by simp) (by simp)) trivial

end Server

namespace ServerInstance

variable [CursorNumber α φ]

/-- A server and its capture when the handler has set them up. -/
def spawned (screenWidth screenHeight : UInt32) (resolved : Bool) : ServerInstance ι α where
  server := .start
  callback := .start screenWidth screenHeight
  exitRemote := false
  phase := if resolved then .binding else .returned
  listening _ := false
  accepted _ _ := false
  shutdown := false

/-- A handler starts once its connection was accepted. -/
def allows (s : ServerInstance ι α) : ServerStep ι → Bool
  | .controlHandshake i _ => s.accepted .control i
  | .dataHandshake i _ => s.accepted .data i
  | _ => true

variable [DecidableEq ι]

/-- One step. -/
def step (lib : KeyLib κ) (s : ServerInstance ι α) : InstanceEvent ι α κ → ServerInstance ι α
  | .bind bound pairing =>
      if s.phase = .binding then
        if bound then
          { s with phase := .serving, listening := fun l => l ≠ .pairing || pairing }
        else { s with phase := .returned }
      else s
  | .accept listener i =>
      if s.listening listener then
        { s with
          accepted := Function.update s.accepted listener
            (Function.update (s.accepted listener) i true) }
      else s
  | .handler event => if s.allows event then { s with server := s.server.step event } else s
  | .exitRemote => { s with exitRemote := true }
  | .input event room =>
      { s with
        callback :=
          (SuperShare.callback lib s.callback ⟨event, s.exitRemote, s.server.hasClient, room⟩).1
        exitRemote := false }
  | .wakeStart =>
      if s.shutdown && s.phase = .serving then { s with phase := .returned } else s
  | .wakeListener listener =>
      if s.shutdown then { s with listening := Function.update s.listening listener false }
      else s

/-- `start` has returned and no listener is left. -/
def Woken (s : ServerInstance ι α) : Prop :=
  s.phase = .returned ∧ ∀ listener, s.listening listener = false

/-- Nobody is registered, the capture knows of no client, and its callback lets the next event
pass and returns in local mode. -/
structure Silent (lib : KeyLib κ) (s : ServerInstance ι α) : Prop where
  clients : ∀ name, s.server.clients name = none
  hasClient : s.server.hasClient = false
  passes : ∀ event room,
    let r := SuperShare.callback lib s.callback ⟨event, s.exitRemote, s.server.hasClient, room⟩
    r.2.passed = some event ∧ r.1.isRemote = false

/-- The last of the tasks that the signal wakes has its turn. -/
def Settles (s : ServerInstance ι α) : InstanceEvent ι α κ → Prop
  | .bind bound _ => s.phase = .binding ∧ bound = false ∧ ∀ l, s.listening l = false
  | .wakeStart => s.shutdown = true ∧ s.phase = .serving ∧ ∀ l, s.listening l = false
  | .wakeListener listener =>
      s.shutdown = true ∧ s.phase = .returned ∧ ∀ l, l ≠ listener → s.listening l = false
  | _ => False

/-- A step of a handler, or of the event task, that leaves a vacant server vacant. -/
def StaysVacant (s : ServerInstance ι α) : InstanceEvent ι α κ → Prop
  | .handler event => s.allows event = true → s.server.StaysVacant event
  | _ => True

/-- After the signal, nobody is registered when the last task is woken, and from then on nobody
comes to be registered or announced. -/
def Quiet (s : ServerInstance ι α) (event : InstanceEvent ι α κ) : Prop :=
  s.shutdown = true →
    (s.Settles event → s.server.Vacant) ∧ (s.Woken → s.StaysVacant event)

omit [DecidableEq ι] in
/-- A server is silent exactly if it is vacant: without a client the callback lets pass. -/
theorem silent_iff (lib : KeyLib κ) (s : ServerInstance ι α) :
    s.Silent lib ↔ s.server.Vacant := by
  constructor
  · exact fun h => ⟨h.clients, h.hasClient⟩
  · intro h
    refine ⟨h.clients, h.hasClient, fun event room => ?_⟩
    have hexclusive := exclusive_callback (φ := φ) lib s.callback
      ⟨event, s.exitRemote, s.server.hasClient, room⟩
    obtain ⟨hlocal, hpassed⟩ := hexclusive.noClient h.hasClient
    exact ⟨hpassed, hlocal⟩

variable {s : ServerInstance ι α} (lib : KeyLib κ)

/-- The signal stays sent. -/
theorem shutdown_step (event : InstanceEvent ι α κ) :
    (s.step lib event).shutdown = s.shutdown := by
  cases event with
  | bind bound pairing =>
    simp only [step]
    split
    · split <;> rfl
    · rfl
  | exitRemote | input event room => rfl
  | _ =>
    simp only [step]
    split <;> rfl

/-- The tasks have run after a step if they had before, or if it was the turn of the last. -/
theorem woken_step (event : InstanceEvent ι α κ) :
    (s.step lib event).Woken ↔ s.Woken ∨ s.Settles event := by
  cases event with
  | bind bound pairing =>
    by_cases hphase : s.phase = .binding
    · cases bound with
      | true => simp [step, hphase, Woken, Settles]
      | false => simp [step, hphase, Woken, Settles]
    · simp [step, hphase, Settles]
  | accept listener i =>
    simp only [step, Settles, or_false]
    split <;> rfl
  | handler event =>
    simp only [step, Settles, or_false]
    split <;> rfl
  | exitRemote | input event room => exact (or_false _).symm ▸ Iff.rfl
  | wakeStart =>
    cases hshutdown : s.shutdown with
    | false => simp [step, hshutdown, Settles]
    | true =>
      by_cases hphase : s.phase = .serving
      · simp [step, hshutdown, hphase, Woken, Settles]
      · simp [step, hshutdown, hphase, Settles]
  | wakeListener listener =>
    cases hshutdown : s.shutdown with
    | false => simp [step, hshutdown, Settles]
    | true =>
      simp only [step, hshutdown, if_true, Woken, Settles, true_and]
      constructor
      · rintro ⟨hphase, hlistening⟩
        refine .inr ⟨hphase, fun l hl => ?_⟩
        have hclosed := hlistening l
        rwa [Function.update_of_ne hl] at hclosed
      · rintro (⟨hphase, hlistening⟩ | ⟨hphase, hlistening⟩)
        · refine ⟨hphase, fun l => ?_⟩
          rw [Function.update_apply]
          split
          · rfl
          · exact hlistening l
        · refine ⟨hphase, fun l => ?_⟩
          rw [Function.update_apply]
          split
          · rfl
          · rename_i hl
            exact hlistening l hl

/-- Only a step of a handler or of the event task changes the server. -/
theorem vacant_step_iff {event : InstanceEvent ι α κ} (h : s.server.Vacant) :
    (s.step lib event).server.Vacant ↔ s.StaysVacant event := by
  cases event with
  | handler event =>
    simp only [step, StaysVacant]
    split
    · rename_i hallows
      rw [h.step_iff event]
      exact ⟨fun hstays _ => hstays, fun hstays => hstays hallows⟩
    · rename_i hallows
      exact iff_of_true h fun htrue => absurd htrue hallows
  | bind bound pairing =>
    refine iff_of_true ?_ trivial
    simp only [step]
    split
    · split <;> exact h
    · exact h
  | exitRemote | input event room => exact iff_of_true h trivial
  | _ =>
    refine iff_of_true ?_ trivial
    simp only [step]
    split <;> exact h

/-- The tasks that the signal wakes do not change the server. -/
theorem server_step_of_settles {event : InstanceEvent ι α κ} (h : s.Settles event) :
    (s.step lib event).server = s.server ∧ s.StaysVacant event := by
  cases event with
  | bind bound pairing =>
    refine ⟨?_, trivial⟩
    simp only [step]
    split
    · split <;> rfl
    · rfl
  | wakeStart | wakeListener listener =>
    refine ⟨?_, trivial⟩
    simp only [step]
    split <;> rfl
  | _ => exact h.elim

/-- A server that is vacant once stopped stays so exactly in a quiet step. -/
theorem quiet_iff (h : s.shutdown = true → s.Woken → s.server.Vacant)
    (event : InstanceEvent ι α κ) :
    ((s.step lib event).shutdown = true → (s.step lib event).Woken →
      (s.step lib event).server.Vacant) ↔ s.Quiet event := by
  rw [shutdown_step, woken_step]
  constructor
  · intro hstopped hshutdown
    constructor
    · intro hsettles
      have hvacant := hstopped hshutdown (.inr hsettles)
      rwa [(server_step_of_settles lib hsettles).1] at hvacant
    · intro hwoken
      exact (vacant_step_iff lib (h hshutdown hwoken)).mp (hstopped hshutdown (.inl hwoken))
  · intro hquiet hshutdown hstopped
    obtain ⟨hlast, hstays⟩ := hquiet hshutdown
    rcases hstopped with hwoken | hsettles
    · exact (vacant_step_iff lib (h hshutdown hwoken)).mpr (hstays hwoken)
    · exact (vacant_step_iff lib (hlast hsettles)).mpr (server_step_of_settles lib hsettles).2

/-- The server with the list of names that all servers share. -/
def sharing (s : ServerInstance ι α) (names : List String) : ServerInstance ι α :=
  { s with server := { s.server with connectedClients := names } }

omit [CursorNumber α φ] [DecidableEq ι] in
/-- Nobody looks at the shared list to tell whether a server is vacant. -/
theorem vacant_sharing {names : List String} :
    (s.sharing names).server.Vacant ↔ s.server.Vacant :=
  ⟨fun h => h.congr rfl rfl, fun h => h.congr rfl rfl⟩

omit [CursorNumber α φ] [DecidableEq ι] in
/-- Nor to tell whether a step is quiet. -/
theorem quiet_sharing {names : List String} (event : InstanceEvent ι α κ) :
    (s.sharing names).Quiet event ↔ s.Quiet event := by
  have hlast : (s.sharing names).Settles event ↔ s.Settles event := by
    cases event <;> exact Iff.rfl
  have hstays : (s.sharing names).StaysVacant event ↔ s.StaysVacant event := by
    cases event with
    | handler event => cases event <;> exact Iff.rfl
    | _ => exact Iff.rfl
  rw [Quiet, Quiet, hlast, hstays, vacant_sharing]
  exact Iff.rfl

end ServerInstance

namespace StartedServers

/-- No server has been started. -/
def start : StartedServers ι α := ⟨[], none, []⟩

variable [DecidableEq ι] [CursorNumber α φ]

/-- One step. A new server's sender takes the place of the last one's, which is dropped. -/
def step (lib : KeyLib κ) (s : StartedServers ι α) : LifecycleEvent ι α κ → StartedServers ι α
  | .startServer screenWidth screenHeight resolved =>
      { s with
        current := some (.spawned screenWidth screenHeight resolved)
        earlier :=
          (s.current.map fun server => { server with shutdown := true }).toList ++ s.earlier }
  | .stopServer =>
      { s with
        connectedClients := []
        current := s.current.map fun server => { server with shutdown := true } }
  | .current event =>
      match s.current with
      | some server =>
          let next := (server.sharing s.connectedClients).step lib event
          { s with connectedClients := next.server.connectedClients, current := some next }
      | none => s
  | .earlier n event =>
      match s.earlier[n]? with
      | some server =>
          let next := (server.sharing s.connectedClients).step lib event
          { s with
            connectedClients := next.server.connectedClients
            earlier := s.earlier.set n next }
      | none => s

/-- Until the next start, a stopped server is silent once the tasks that the signal wakes have
run. -/
def Stopped (lib : KeyLib κ) (s : StartedServers ι α) : Prop :=
  ∀ server ∈ s.current, server.shutdown = true → server.Woken → server.Silent lib

/-- The current server takes a quiet step, and a stop that nothing is left to wake finds it
vacant. -/
def Quiet (s : StartedServers ι α) : LifecycleEvent ι α κ → Prop
  | .stopServer => ∀ server ∈ s.current, server.Woken → server.server.Vacant
  | .current event => ∀ server ∈ s.current, server.Quiet event
  | _ => True

variable {s : StartedServers ι α}

/-- A step keeps the current server stopped exactly if it is quiet. -/
theorem Stopped.step_iff (lib : KeyLib κ) (h : s.Stopped lib) (event : LifecycleEvent ι α κ) :
    (s.step lib event).Stopped lib ↔ s.Quiet event := by
  simp only [Stopped, ServerInstance.silent_iff] at h ⊢
  cases event with
  | startServer screenWidth screenHeight resolved =>
    refine iff_of_true ?_ trivial
    rintro server hserver hshutdown
    obtain rfl := Option.some.inj hserver
    exact absurd hshutdown Bool.false_ne_true
  | stopServer =>
    cases hcurrent : s.current with
    | none => simp [step, Quiet, hcurrent]
    | some server =>
      simp only [step, Quiet, hcurrent, Option.map_some, Option.mem_def, Option.some.injEq,
        forall_eq', forall_const]
      exact Iff.rfl
  | current event =>
    cases hcurrent : s.current with
    | none => simp [step, Quiet, hcurrent]
    | some server =>
      have hshared : (server.sharing s.connectedClients).shutdown = true →
          (server.sharing s.connectedClients).Woken →
            (server.sharing s.connectedClients).server.Vacant := by
        rw [ServerInstance.vacant_sharing]
        exact h server hcurrent
      have hquiet := ServerInstance.quiet_iff lib hshared event
      simp only [step, Quiet, hcurrent, Option.mem_def, Option.some.injEq, forall_eq']
      rw [hquiet, ServerInstance.quiet_sharing]
  | earlier n event =>
    refine iff_of_true ?_ trivial
    simp only [step]
    split
    · exact h
    · exact h

/-- **Stopping.** In a run of the commands, the servers' tasks and their captures in any order,
in every state reached the stopped server is silent, once the tasks that the signal wakes have
run and until the next start, if and only if every step is quiet. -/
theorem stopped_iff_quiet (lib : KeyLib κ) (events : List (LifecycleEvent ι α κ)) :
    (∀ first, first <+: events →
        (first.foldl (step lib) (start : StartedServers ι α)).Stopped lib) ↔
      Run.Along (step lib) Quiet (start : StartedServers ι α) events := by
  have hstart : (start : StartedServers ι α).Stopped lib := fun server hserver => nomatch hserver
  exact Run.forall_reached_iff_along (Stopped lib)
    (fun s event hok h => (h.step_iff lib event).mpr hok)
    (fun s event h => h.step_iff lib event) hstart hstart events

/-- A client connects to a server, which is then stopped. -/
def stoppedWithClient : List (LifecycleEvent Unit ℤ String) :=
  [.startServer 100 100 true, .current (.bind true false), .current (.accept .control ()),
    .current (.accept .data ()),
    .current (.handler (.controlHandshake () (some (.handshake 1 "laptop" 1920 1080)))),
    .current (.handler (.screenConfig () true)),
    .current (.handler (.dataHandshake () (some (.handshake 1 "laptop" 1920 1080)))),
    .current (.handler (.poll ())), .current (.handler (.announce ())),
    .current (.handler .processEvent), .stopServer, .current .wakeStart,
    .current (.wakeListener .control), .current (.wakeListener .data),
    .current (.input (.mouseMove 50 50) true)]

/-- The client stays registered, and the next motion across the edge is suppressed. -/
theorem stoppedWithClient_captures :
    let s := stoppedWithClient.foldl (step .constant) (start : StartedServers Unit ℤ)
    ∃ server, s.current = some server ∧ server.shutdown = true ∧ server.Woken ∧
      (server.server.clients "laptop").isSome = true ∧
      (callback .constant server.callback
        ⟨.mouseMove 99 50, false, server.server.hasClient, true⟩).2.passed.isNone = true ∧
      ¬ s.Stopped .constant := by
  intro s
  obtain ⟨server, hcurrent, hshutdown, hphase, hlistening, hclient, hsuppressed⟩ :
      ∃ server, s.current = some server ∧ server.shutdown = true ∧ server.phase = .returned ∧
        (∀ listener, server.listening listener = false) ∧
        (server.server.clients "laptop").isSome = true ∧
        (callback .constant server.callback
          ⟨.mouseMove 99 50, false, server.server.hasClient, true⟩).2.passed.isNone = true :=
    ⟨_, rfl, rfl, rfl, fun listener => by cases listener <;> rfl, rfl, rfl⟩
  refine ⟨server, hcurrent, hshutdown, ⟨hphase, hlistening⟩, hclient, hsuppressed, fun h => ?_⟩
  have hsilent := h server hcurrent hshutdown ⟨hphase, hlistening⟩
  rw [hsilent.clients "laptop"] at hclient
  exact absurd hclient Bool.false_ne_true

end StartedServers

end SuperShare
