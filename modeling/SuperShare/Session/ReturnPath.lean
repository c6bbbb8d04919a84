import SuperShare.Input.WarpCapture
import SuperShare.Network.Registry

/-!
# The way back from remote mode

In remote mode the cursor of the server is frozen until a `BoundaryLeave` arrives, and that
message comes on the data connection of a client. The callback looks at `has_client`, which
follows the control connections only. This file runs the callback together with the connection
handlers, and states when the callback can be in remote mode only while the data connection of a
registered client is read.
-/

namespace SuperShare

variable {ι α φ κ : Type}

namespace Server

/-- A client is announced while it is registered, or while a removal under its name is still to
be announced. -/
def AnnouncesBacked (s : Server ι) : ServerStep ι → Prop
  | .announce i => ∀ name, s.control i = .registered name →
      s.clients name ≠ none ∨ ∃ j, (s.control j).removedName = some name
  | _ => True

/-- The names that `connected_clients` will hold are registered, or their removal is still to be
announced. The data connections in both maps have completed their handshakes. -/
structure Backed (s : Server ι) : Prop where
  hasClient : s.hasClient = true → s.connectedClients ≠ []
  names : s.lagged = false → ∀ name ∈ s.expectedNames,
    s.clients name ≠ none ∨ ∃ j, (s.control j).removedName = some name
  clients : ∀ name client, s.clients name = some client → s.data client.dataTx ≠ .accepted
  pending : ∀ name i, s.pendingData name = some i → s.data i ≠ .accepted

end Server

/-- What happens to the server and its input capture. -/
inductive CaptureEvent (ι α κ : Type) where
  /-- A step of the connection handlers or of the event task. -/
  | server (event : ServerStep ι)
  /-- An input event. A `BoundaryLeave` may have set `exit_remote` before. -/
  | input (event : EventType α κ) (exitRequested room : Bool)

/-- The server with its input capture. -/
structure CaptureServer (ι α : Type) where
  server : Server ι
  callback : CallbackState α

namespace CaptureServer

variable [DecidableEq ι] [CursorNumber α φ]

/-- One event. The outcome of an input event is the mode when the callback returns, with the
server at that time. -/
def react (lib : KeyLib κ) (s : CaptureServer ι α) :
    CaptureEvent ι α κ → CaptureServer ι α × Option (Bool × Server ι)
  | .server event => ({ s with server := s.server.step event }, none)
  | .input event exitRequested room =>
      let (callback, outcome) := SuperShare.callback lib s.callback
        ⟨event, exitRequested, s.server.hasClient, room⟩
      ({ s with callback := callback }, some (outcome.remoteAfter, s.server))

/-- The state after an event. -/
def step (lib : KeyLib κ) (s : CaptureServer ι α) (event : CaptureEvent ι α κ) :
    CaptureServer ι α :=
  (s.react lib event).1

/-- The server and the capture start. -/
def start (screenWidth screenHeight : UInt32) : CaptureServer ι α :=
  ⟨.start, .start screenWidth screenHeight⟩

end CaptureServer

namespace Server

variable {s s' : Server ι}

/-- A flag that is set stands for a list that is not empty, after every move. -/
theorem Backed.hasClient_moves [DecidableEq ι] (h : Backed s) {event : ServerStep ι}
    (hmove : s.Moves event s') : s'.hasClient = true → s'.connectedClients ≠ [] := by
  have hnotify : ∀ e, (s.notify e).hasClient = true → (s.notify e).connectedClients ≠ [] := by
    intro e
    obtain ⟨hflag, hlist⟩ := s.notify_hasClient e
    rw [hflag, hlist]
    exact h.hasClient
  cases hmove with
  | announce _ => exact hnotify _
  | depart _ => exact hnotify _
  | paired name => exact hnotify _
  | @process event rest _ _ =>
    cases event with
    | clientConnected name =>
      intro _
      exact List.append_ne_nil_of_right_ne_nil _ (List.cons_ne_nil _ _)
    | clientDisconnected name =>
      simp only [handleEvent]
      split
      · intro habsurd
        exact absurd habsurd Bool.false_ne_true
      · rename_i hleft
        intro _ hnil
        exact hleft (List.isEmpty_iff.mpr hnil)
    | clientPaired name => exact h.hasClient
  | _ => exact h.hasClient

/-- A removal that is still to be announced stays so while another handler moves. -/
theorem removed_update [DecidableEq ι] {i : ι} (phase : ControlPhase) {name : String}
    (hi : (s.control i).removedName ≠ some name)
    (h : ∃ j, (s.control j).removedName = some name) :
    ∃ j, (Function.update s.control i phase j).removedName = some name := by
  obtain ⟨j, hj⟩ := h
  have hne : j ≠ i := by
    rintro rfl
    exact hi hj
  exact ⟨j, by rwa [Function.update_of_ne hne]⟩

/-- The names that will be listed stay backed by a move that announces only a client whose
entry is there. -/
theorem Backed.names_moves [DecidableEq ι] (h : Backed s) {event : ServerStep ι}
    (hmove : s.Moves event s') (hbacked : s.AnnouncesBacked event) :
    s'.lagged = false → ∀ name ∈ s'.expectedNames,
      s'.clients name ≠ none ∨ ∃ j, (s'.control j).removedName = some name := by
  cases hmove with
  | stay => exact h.names
  | @early event i phase hfrom hto _ =>
    intro hlagged name hname
    refine (h.names hlagged name hname).imp_right (removed_update phase ?_)
    cases hphase : s.control i <;> rw [hphase] at hfrom <;>
      simp [ControlPhase.hasRegistered, ControlPhase.removedName] at hfrom ⊢
  | @register i dataTx attempts hello hphase hpending =>
    intro hlagged name hname
    rcases h.names hlagged name hname with hsome | hremoved
    · left
      by_cases heq : name = hello.name
      · simp [Server.register, heq]
      · simpa only [Server.register, Function.update_of_ne heq] using hsome
    · right
      exact removed_update _ (by simp [hphase, ControlPhase.removedName]) hremoved
  | @announce i name hphase =>
    intro hlagged other hother
    obtain ⟨hlagged, hexpected⟩ := expectedNames_notify hlagged
    change other ∈ (s.notify (.clientConnected name)).expectedNames at hother
    rw [hexpected, applyEvent, List.mem_append, List.mem_singleton] at hother
    have hnamed : s.clients other ≠ none ∨ ∃ j, (s.control j).removedName = some other := by
      rcases hother with hother | rfl
      · exact h.names hlagged other hother
      · exact hbacked other hphase
    rw [setControl_control, notify_control]
    refine hnamed.imp (fun hsome => ?_) (removed_update _ ?_)
    · change (s.notify (.clientConnected name)).clients other ≠ none
      rwa [notify_clients]
    · simp [hphase, ControlPhase.removedName]
  | @leave i msg name hphase =>
    intro hlagged other hother
    exact (h.names hlagged other hother).imp_right
      (removed_update _ (by simp [hphase, ControlPhase.removedName]))
  | @cleanup i name hphase =>
    intro hlagged other hother
    by_cases heq : other = name
    · right
      exact ⟨i, by simp [heq, ControlPhase.removedName]⟩
    · rcases h.names hlagged other hother with hsome | hremoved
      · left
        simpa only [Function.update_of_ne heq] using hsome
      · right
        exact removed_update _ (by simp [hphase, ControlPhase.removedName]) hremoved
  | @depart i name hphase =>
    intro hlagged other hother
    obtain ⟨hlagged, hexpected⟩ := expectedNames_notify hlagged
    change other ∈ (s.notify (.clientDisconnected name)).expectedNames at hother
    rw [hexpected, applyEvent, List.mem_filter] at hother
    have hne : other ≠ name := by simpa using hother.2
    rw [setControl_control, notify_control]
    refine (h.names hlagged other hother.1).imp (fun hsome => ?_) (removed_update _ ?_)
    · change (s.notify (.clientDisconnected name)).clients other ≠ none
      rwa [notify_clients]
    · rw [hphase]
      intro heq
      exact hne (Option.some.inj heq).symm
  | dataHandshake _ _ => exact h.names
  | dataClose => exact h.names
  | forward _ => exact h.names
  | paired name =>
    intro hlagged other hother
    obtain ⟨hlagged, hexpected⟩ := expectedNames_notify hlagged
    rw [hexpected] at hother
    rw [notify_clients, notify_control]
    exact h.names hlagged other hother
  | @process event rest hlagged hqueue =>
    intro _ other hother
    rw [handleEvent_clients, handleEvent_control]
    refine h.names hlagged other ?_
    rw [expectedNames, hqueue]
    cases event <;> exact hother

/-- A data handler that moves does not go back to its handshake. -/
theorem data_moves [DecidableEq ι] {event : ServerStep ι} (hmove : s.Moves event s') {i : ι}
    (h : s.data i ≠ .accepted) : s'.data i ≠ .accepted := by
  have hupdate : ∀ j phase, phase ≠ .accepted → Function.update s.data j phase i ≠ .accepted := by
    intro j phase hphase
    rw [Function.update_apply]
    split
    · exact hphase
    · exact h
  cases hmove with
  | dataHandshake _ _ => exact hupdate _ _ (by simp)
  | dataClose => exact hupdate _ _ (by simp)
  | announce | depart | paired | process => simpa [setControl] using h
  | _ => exact h

/-- A data connection that a move puts in `pending_data` was there, or has completed its
handshake. -/
theorem Backed.pending_moves [DecidableEq ι] (h : Backed s) {event : ServerStep ι}
    (hmove : s.Moves event s') :
    ∀ name i, s'.pendingData name = some i → s'.data i ≠ .accepted := by
  have hold : ∀ name i, s.pendingData name = some i → s'.data i ≠ .accepted :=
    fun name i hi => data_moves hmove (h.pending name i hi)
  intro name i hi
  cases hmove with
  | @register j dataTx attempts hello _ _ =>
    by_cases hname : name = hello.name
    · simp [Server.register, hname] at hi
    · simp only [Server.register, Function.update_of_ne hname] at hi
      exact hold name i hi
  | @dataHandshake j msg own _ _ =>
    by_cases hname : name = own
    · obtain rfl : j = i := by simpa [hname] using hi
      simp
    · simp only [Function.update_of_ne hname] at hi
      exact hold name i hi
  | announce | depart | paired | process => exact hold name i (by simpa [setControl] using hi)
  | _ => exact hold name i hi

/-- A data connection of a client that a move registers was in `pending_data`. -/
theorem Backed.clients_moves [DecidableEq ι] (h : Backed s) {event : ServerStep ι}
    (hmove : s.Moves event s') :
    ∀ name client, s'.clients name = some client → s'.data client.dataTx ≠ .accepted := by
  have hold : ∀ name client, s.clients name = some client → s'.data client.dataTx ≠ .accepted :=
    fun name client hclient => data_moves hmove (h.clients name client hclient)
  intro name client hclient
  cases hmove with
  | @register i dataTx attempts hello _ hpending =>
    by_cases hname : name = hello.name
    · simp only [Server.register, hname, Function.update_self, Option.some.injEq] at hclient
      rw [← hclient]
      exact h.pending hello.name dataTx hpending
    · simp only [Server.register, Function.update_of_ne hname] at hclient
      exact hold name client hclient
  | @cleanup i left _ =>
    by_cases hname : name = left
    · simp [hname] at hclient
    · simp only [Function.update_of_ne hname] at hclient
      exact hold name client hclient
  | announce | depart | paired | process =>
    exact hold name client (by simpa [setControl] using hclient)
  | _ => exact hold name client hclient

/-- A step that announces only who is backed keeps the list backed. -/
theorem Backed.step [DecidableEq ι] (h : Backed s) {event : ServerStep ι}
    (hbacked : s.AnnouncesBacked event) : Backed (s.step event) where
  hasClient := h.hasClient_moves (s.moves_step event)
  names := h.names_moves (s.moves_step event) hbacked
  clients := h.clients_moves (s.moves_step event)
  pending := h.pending_moves (s.moves_step event)

end Server

/-- The client says goodbye, and the server sees the end of its data connection first. -/
def laptopLeaves : List (CaptureEvent (Fin 1) ℤ String) :=
  [.server (.dataMessage 0 none), .server (.controlMessage 0 none), .server (.cleanup 0),
    .server (.depart 0), .server .processEvent, .input (.mouseMove 60 50) false true]

end SuperShare
