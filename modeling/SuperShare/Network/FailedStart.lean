import SuperShare.Lib.Holding
import SuperShare.Network.ServerLifecycle

/-!
# Starts without certificates

The `StartServer` branch of the command handler sets up the input capture, the clipboard monitor
and their tasks, and replaces the sender of the shutdown signal, before it resolves the
certificates, which is the first thing that can fail. What a failed start leaves is stated over
every state of the handler, and the branch is related to the servers of `StartedServers`.
-/

namespace SuperShare

/-- The command, as far as the branch reads it itself. -/
structure StartServer where
  controlPort : UInt16
  certPath : Option String
  keyPath : Option String
  caPath : Option String

/-- The paths of the server's CA. -/
structure ServerCa where
  caCertPath : String
  caKeyPath : String
  serverCertPath : String
  serverKeyPath : String

/-- Resolved server TLS material. -/
structure ResolvedServerCerts where
  certPath : String
  keyPath : String
  caPath : String
  caCertPem : String
  caKeyPem : String

/-- The file system, as `resolve_server_certs` sees it. -/
structure CertFiles where
  readToString : String → Except String String
  /-- The path of the CA's key by convention, `ca-key.pem` next to `ca.pem`. -/
  keyNextTo : String → String
  /-- The trust directory is there, with a CA in it, or an error. -/
  ensured : Except String ServerCa

/-- Explicit paths are used if all are given, and else the CA of the trust directory. -/
def resolveServerCerts (files : CertFiles) (certPath keyPath caPath : Option String) :
    Except String ResolvedServerCerts :=
  match certPath, keyPath, caPath with
  | some cert, some key, some ca => do
      let caCertPem ← files.readToString ca
      let caKeyPem :=
        match files.readToString (files.keyNextTo ca) with
        | .ok pem => pem
        | .error _ => ""
      return ⟨cert, key, ca, caCertPem, caKeyPem⟩
  | _, _, _ => do
      let ca ← files.ensured
      let caCertPem ← files.readToString ca.caCertPath
      let caKeyPem ← files.readToString ca.caKeyPath
      return ⟨ca.serverCertPath, ca.serverKeyPath, ca.caCertPath, caCertPem, caKeyPem⟩

/-- The thread and the tasks that the branch spawns before it resolves the certificates. -/
inductive Background where
  | capture
  | eventTask
  | monitor
  | forwardInput
  | receive
  | forwardClipboard
  | logTask
  deriving DecidableEq, Repr

/-- Who has a sender of the channel that a task reads, while `start` was not called. The loops of
the capture, if the system grants it the input, and of the monitor have no end. The channels of the
server state close with the last task that has the state. -/
def Background.heldBy (grabbed : Bool) : Background → List Background
  | .capture => if grabbed then [.capture] else []
  | .monitor => [.monitor]
  | .forwardInput => [.capture]
  | .forwardClipboard => [.monitor]
  | .eventTask | .receive | .logTask => [.forwardInput, .forwardClipboard]

/-- One start of a server: its state, and what runs of its background. -/
structure Start (ι α : Type) where
  server : ServerInstance ι α
  background : Background → Bool
  /-- The system grants the input to the capture. -/
  grabbed : Bool

/-- What the command handler holds, and what it has started so far, in this order. -/
structure HandlerState (ι α : Type) where
  starts : List (Start ι α)
  connectedClients : List String
  /-- The start whose sender is stored in `server_shutdown`, by its number. -/
  serverShutdown : Option ℕ
  status : ServerStatus

/-- A command about the server, or what another task does in between. -/
inductive HandlerEvent (ι α κ : Type) where
  | startServer (command : StartServer) (screenWidth screenHeight : UInt32) (grabbed : Bool)
      (files : CertFiles)
  | stopServer
  | server (n : ℕ) (event : InstanceEvent ι α κ)
  /-- The task of a server displays that `start` has failed. -/
  | displayError (error : String)

/-- An element of the first of two lists is modified. -/
private theorem modify_append_left {β : Type} (f : β → β) {l l' : List β} {n : ℕ}
    (h : n < l.length) : (l ++ l').modify n f = l.modify n f ++ l' := by
  induction l generalizing n with
  | nil => simp at h
  | cons a l ih =>
    cases n with
    | zero => rfl
    | succ n => simp [ih (Nat.lt_of_succ_lt_succ h)]

/-- The element after a list is modified. -/
private theorem modify_concat {β : Type} (f : β → β) (l : List β) (a : β) :
    (l ++ [a]).modify l.length f = l ++ [f a] := by
  induction l with
  | nil => rfl
  | cons b l ih => simp [ih]

variable {ι α φ κ : Type}

/-! ## One start -/

namespace Start

/-- The server's sender is used or dropped, and either wakes its receivers. -/
def signal (start : Start ι α) : Start ι α :=
  { start with server := { start.server with shutdown := true } }

/-- The start goes on to run a part of its background, whatever turns its tasks take. -/
def Keeps (start : Start ι α) (part : Background) : Prop :=
  ∀ turns : List Background,
    turns.foldl (Holding.turn (Background.heldBy start.grabbed)) start.background part = true

variable [CursorNumber α φ]

/-- The server state, the capture and the tasks, in the order of the branch. -/
def setUp (screenWidth screenHeight : UInt32) (grabbed : Bool) : Start ι α where
  server := .spawned screenWidth screenHeight false
  background :=
    [.capture, .eventTask, .monitor, .forwardInput, .receive, .forwardClipboard, .logTask].foldl
      (fun running part => Function.update running part true) fun _ => false
  grabbed := grabbed

/-- A start whose certificates were resolved or not. -/
def called (screenWidth screenHeight : UInt32) (grabbed resolved : Bool) : Start ι α :=
  { (setUp screenWidth screenHeight grabbed : Start ι α) with
    server := .spawned screenWidth screenHeight resolved }

/-- Everything has been set going. -/
theorem background_setUp (screenWidth screenHeight : UInt32) (grabbed : Bool)
    (part : Background) :
    (setUp screenWidth screenHeight grabbed : Start ι α).background part = true := by
  cases part <;> rfl

/-- **Left behind.** As long as `start` was not called, whatever turns the tasks take, the monitor,
the event task and the others run on, and the capture and the task that reads it do so exactly if
the system grants it the input. -/
theorem keeps_called_iff (screenWidth screenHeight : UInt32) (grabbed : Bool)
    (part : Background) :
    (called screenWidth screenHeight grabbed false : Start ι α).Keeps part ↔
      (grabbed = true ∨ part ≠ .capture ∧ part ≠ .forwardInput) := by
  constructor
  · intro hkeeps
    cases grabbed with
    | true => exact .inl rfl
    | false =>
      refine .inr ⟨?_, ?_⟩
      · rintro rfl
        exact absurd (hkeeps [.capture]) Bool.false_ne_true
      · rintro rfl
        exact absurd (hkeeps [.capture, .forwardInput]) Bool.false_ne_true
  · intro hpart turns
    have hsupported : Holding.Supported (Background.heldBy grabbed)
        {part | grabbed = true ∨ part ≠ .capture ∧ part ≠ .forwardInput} := by
      intro part hpart
      cases part with
      | capture =>
        have hgrabbed : grabbed = true := by simpa using hpart
        exact ⟨.capture, by simp [Background.heldBy, hgrabbed], hpart⟩
      | forwardInput => exact ⟨.capture, by simp [Background.heldBy], by simpa using hpart⟩
      | monitor => exact ⟨.monitor, by simp [Background.heldBy], hpart⟩
      | forwardClipboard => exact ⟨.monitor, by simp [Background.heldBy], by simp⟩
      | eventTask | receive | logTask =>
        exact ⟨.forwardClipboard, by simp [Background.heldBy], by simp⟩
    exact hsupported.run (fun part _ => background_setUp screenWidth screenHeight grabbed part)
      turns part hpart

end Start

namespace ServerInstance

/-- The server is bound, and the signal has been sent. -/
structure Signalled (server : ServerInstance ι α) : Prop where
  shutdown : server.shutdown = true
  phase : server.phase ≠ .binding

variable [CursorNumber α φ] [DecidableEq ι] {server : ServerInstance ι α}

/-- No step revokes the signal, lets `start` go on that has returned, or opens a listener. -/
theorem Signalled.step (h : server.Signalled) (lib : KeyLib κ) (names : List String)
    (event : InstanceEvent ι α κ) :
    let next := (server.sharing names).step lib event
    next.Signalled ∧ (server.phase = .returned → next.phase = .returned) ∧
      ∀ listener, server.listening listener = false → next.listening listener = false := by
  have hphase := h.phase
  intro next
  have hshutdown : next.shutdown = true := (shutdown_step lib event).trans h.shutdown
  cases event with
  | bind bound pairing =>
    have hnext : next = server.sharing names := if_neg hphase
    rw [hnext]
    exact ⟨⟨h.shutdown, hphase⟩, id, fun _ => id⟩
  | accept listener i | handler event =>
    have hnext : next.phase = server.phase ∧ next.listening = server.listening := by
      simp only [next, ServerInstance.step]
      split <;> exact ⟨rfl, rfl⟩
    rw [hnext.1, hnext.2]
    exact ⟨⟨hshutdown, hnext.1.trans_ne hphase⟩, id, fun _ => id⟩
  | exitRemote | input event room => exact ⟨⟨hshutdown, hphase⟩, id, fun _ => id⟩
  | wakeStart =>
    simp only [next, ServerInstance.step]
    split
    · exact ⟨⟨h.shutdown, by simp⟩, fun _ => rfl, fun _ => id⟩
    · exact ⟨⟨h.shutdown, hphase⟩, id, fun _ => id⟩
  | wakeListener woken =>
    simp only [next, ServerInstance.step]
    split
    · refine ⟨⟨h.shutdown, hphase⟩, id, fun listener hlistening => ?_⟩
      simp only [Function.update_apply]
      split
      · rfl
      · exact hlistening
    · exact ⟨⟨h.shutdown, hphase⟩, id, fun _ => id⟩

/-- Woken, `start` returns. -/
theorem Signalled.phase_wakeStart (h : server.Signalled) (lib : KeyLib κ) (names : List String) :
    ((server.sharing names).step lib .wakeStart).phase = .returned := by
  have hshutdown : (server.sharing names).shutdown = true := h.shutdown
  simp only [ServerInstance.step, hshutdown, Bool.true_and, decide_eq_true_eq]
  split
  · rfl
  · rename_i hserving
    cases hphase : server.phase with
    | binding => exact absurd hphase h.phase
    | serving => exact absurd hphase hserving
    | returned => exact hphase

/-- Woken, a listener ends. -/
theorem Signalled.listening_wakeListener (h : server.Signalled) (lib : KeyLib κ)
    (names : List String) (listener : Listener) :
    ((server.sharing names).step lib (.wakeListener listener)).listening listener = false := by
  have hshutdown : (server.sharing names).shutdown = true := h.shutdown
  simp only [ServerInstance.step, hshutdown, if_true, Function.update_self]

end ServerInstance

/-! ## The handler -/

namespace HandlerState

/-- Nothing has been started. -/
def initial : HandlerState ι α := ⟨[], [], none, ⟨false, none, none⟩⟩

/-- The signal reaches the server of a start. -/
def signal (s : HandlerState ι α) (n : ℕ) : HandlerState ι α :=
  { s with starts := s.starts.modify n Start.signal }

/-- The stored sender, if there is one, is used or dropped. -/
def dropSender (s : HandlerState ι α) : HandlerState ι α :=
  match s.serverShutdown with
  | some n => s.signal n
  | none => s

/-- The sender of a start is stored. The one stored before is dropped. -/
def storeSender (s : HandlerState ι α) (n : ℕ) : HandlerState ι α :=
  { s.dropSender with serverShutdown := some n }

/-- `start` is called in a task of its own. -/
def callStart (s : HandlerState ι α) (n : ℕ) : HandlerState ι α :=
  { s with
    starts := s.starts.modify n fun start =>
      { start with server := { start.server with phase := .binding } } }

/-- The `StopServer` branch. -/
def stopServer (s : HandlerState ι α) : HandlerState ι α :=
  { s.dropSender with
    connectedClients := []
    serverShutdown := none
    status := { s.status with serverRunning := false, serverPort := none } }

variable [CursorNumber α φ]

/-- The `StartServer` branch. -/
def startServer (s : HandlerState ι α) (command : StartServer) (screenWidth screenHeight : UInt32)
    (grabbed : Bool) (files : CertFiles) : HandlerState ι α :=
  let n := s.starts.length
  let s := { s with starts := s.starts ++ [Start.setUp screenWidth screenHeight grabbed] }
  let s := s.storeSender n
  match resolveServerCerts files command.certPath command.keyPath command.caPath with
  | .error e =>
      { s with status := { s.status with lastError := some s!"Certificate error: {e}" } }
  | .ok _ => { s.callStart n with status := ⟨true, some command.controlPort, none⟩ }

variable [DecidableEq ι]

/-- A step of a server, which shares the displayed clients with the others. -/
def serverStep (lib : KeyLib κ) (s : HandlerState ι α) (n : ℕ) (event : InstanceEvent ι α κ) :
    HandlerState ι α :=
  match s.starts[n]? with
  | some start =>
      let next := (start.server.sharing s.connectedClients).step lib event
      { s with
        connectedClients := next.server.connectedClients
        starts := s.starts.set n { start with server := next } }
  | none => s

/-- One step. -/
def step (lib : KeyLib κ) (s : HandlerState ι α) : HandlerEvent ι α κ → HandlerState ι α
  | .startServer command screenWidth screenHeight grabbed files =>
      s.startServer command screenWidth screenHeight grabbed files
  | .stopServer => s.stopServer
  | .server n event => s.serverStep lib n event
  | .displayError error =>
      { s with status := ⟨false, none, some s!"Server error: {error}"⟩ }

end HandlerState

/-! ## Which servers have had the signal -/

namespace HandlerState

/-- The sender of a server is stored exactly as long as the server has had no signal, and it is that
of the last start. -/
structure Valid (s : HandlerState ι α) : Prop where
  last : ∀ n, s.serverShutdown = some n → n + 1 = s.starts.length
  stored : ∀ n start, s.starts[n]? = some start →
    (start.server.shutdown = false ↔ s.serverShutdown = some n)

/-- A start goes on to run a part of its background. -/
def Keeps (s : HandlerState ι α) (n : ℕ) (part : Background) : Prop :=
  ∃ start, s.starts[n]? = some start ∧ start.Keeps part

/-- The server of a start runs, and has had no signal. -/
def Serves (s : HandlerState ι α) (n : ℕ) : Prop :=
  ∃ start, s.starts[n]? = some start ∧ start.server.phase ≠ .returned ∧
    start.server.shutdown = false

/-- Everything is as it was, apart from `last_error`: nothing of a new start runs on, the stored
sender is kept, and a running server keeps running. -/
structure Unchanged (s s' : HandlerState ι α) : Prop where
  background : ∀ n part, s'.Keeps n part → s.Keeps n part
  serverShutdown : s'.serverShutdown = s.serverShutdown
  servers : ∀ n, s.Serves n → s'.Serves n
  connectedClients : s'.connectedClients = s.connectedClients
  status : { s'.status with lastError := s.status.lastError } = s.status

variable {s : HandlerState ι α}

/-- The signal does not change a start whose sender is not stored. -/
theorem Valid.signal_eq (h : s.Valid) {n : ℕ} {start : Start ι α} (hn : s.starts[n]? = some start)
    (hother : s.serverShutdown ≠ some n) : start.signal = start := by
  have hshutdown : start.server.shutdown = true := by
    rw [← Bool.not_eq_false, h.stored n start hn]
    exact hother
  unfold Start.signal
  rw [← hshutdown]

/-- Without its sender, every start has had the signal. -/
theorem Valid.starts_dropSender (h : s.Valid) :
    s.dropSender.starts = s.starts.map Start.signal := by
  apply List.ext_getElem?
  intro n
  rw [List.getElem?_map]
  cases hn : s.starts[n]? with
  | none =>
    unfold dropSender
    split
    · simp [signal, List.getElem?_modify, hn]
    · exact hn
  | some start =>
    unfold dropSender
    split
    · rename_i old hold
      simp only [signal, List.getElem?_modify, hn, Option.map_eq_map, Option.map_some]
      split
      · rfl
      · rename_i hne
        rw [h.signal_eq hn fun hsame => hne (Option.some.inj (hold.symm.trans hsame))]
    · rename_i hnone
      rw [hn, Option.map_some, h.signal_eq hn fun hsame => by simp [hnone] at hsame]

/-- A new start is not the one whose sender is dropped. -/
theorem Valid.starts_dropSender_append (h : s.Valid) (start : Start ι α) :
    ({ s with starts := s.starts ++ [start] } : HandlerState ι α).dropSender.starts =
      s.starts.map Start.signal ++ [start] := by
  rw [← h.starts_dropSender]
  unfold dropSender
  cases hstored : s.serverShutdown with
  | none => rfl
  | some old =>
    have hold : old < s.starts.length := by
      have hlast := h.last old hstored
      omega
    exact modify_append_left Start.signal hold

variable [CursorNumber α φ]

/-- The starts after the branch: every server so far has had the signal, and there is a new start,
whose `start` is called if the certificates were resolved. -/
theorem Valid.starts_startServer (h : s.Valid) (command : StartServer)
    (screenWidth screenHeight : UInt32) (grabbed : Bool) (files : CertFiles) :
    (s.startServer command screenWidth screenHeight grabbed files).starts =
      s.starts.map Start.signal ++ [.called screenWidth screenHeight grabbed
        (resolveServerCerts files command.certPath command.keyPath command.caPath).isOk] := by
  unfold startServer
  cases resolveServerCerts files command.certPath command.keyPath command.caPath with
  | error e => exact h.starts_dropSender_append _
  | ok resolved =>
    have hlength : s.starts.length = (s.starts.map Start.signal).length := by simp
    simp only [callStart, storeSender, h.starts_dropSender_append]
    rw [hlength, modify_concat]
    rfl

/-- The number that the new start has. -/
theorem Valid.getElem?_startServer (h : s.Valid) (command : StartServer)
    (screenWidth screenHeight : UInt32) (grabbed : Bool) (files : CertFiles) :
    (s.startServer command screenWidth screenHeight grabbed files).starts[s.starts.length]? =
      some (.called screenWidth screenHeight grabbed
        (resolveServerCerts files command.certPath command.keyPath command.caPath).isOk) := by
  rw [h.starts_startServer, List.getElem?_append_right (by simp)]
  simp

/-- An earlier start has had the signal after the branch. -/
theorem Valid.getElem?_startServer_earlier (h : s.Valid) (command : StartServer)
    (screenWidth screenHeight : UInt32) (grabbed : Bool) (files : CertFiles) {n : ℕ}
    {start : Start ι α} (hn : s.starts[n]? = some start) :
    (s.startServer command screenWidth screenHeight grabbed files).starts[n]? =
      some start.signal := by
  have hlength : n < s.starts.length := (List.getElem?_eq_some_iff.mp hn).1
  rw [h.starts_startServer, List.getElem?_append_left (by simpa using hlength),
    List.getElem?_map, hn, Option.map_some]

/-- The sender of the new start is stored, whether the certificates are resolved or not. -/
theorem serverShutdown_startServer (s : HandlerState ι α) (command : StartServer)
    (screenWidth screenHeight : UInt32) (grabbed : Bool) (files : CertFiles) :
    (s.startServer command screenWidth screenHeight grabbed files).serverShutdown =
      some s.starts.length := by
  unfold startServer
  cases resolveServerCerts files command.certPath command.keyPath command.caPath with
  | error e => rfl
  | ok resolved => rfl

omit [CursorNumber α φ] in
/-- Dropping a sender does not change which clients are displayed. -/
theorem connectedClients_dropSender (s : HandlerState ι α) :
    s.dropSender.connectedClients = s.connectedClients := by
  unfold dropSender
  split <;> rfl

/-- A start does not change which clients are displayed. -/
theorem connectedClients_startServer (s : HandlerState ι α) (command : StartServer)
    (screenWidth screenHeight : UInt32) (grabbed : Bool) (files : CertFiles) :
    (s.startServer command screenWidth screenHeight grabbed files).connectedClients =
      s.connectedClients := by
  have hclients := connectedClients_dropSender
    { s with starts := s.starts ++ [Start.setUp screenWidth screenHeight grabbed] }
  unfold startServer
  cases resolveServerCerts files command.certPath command.keyPath command.caPath with
  | error e => exact hclients
  | ok resolved => exact hclients

/-- The branch keeps the handler valid. -/
theorem Valid.startServer (h : s.Valid) (command : StartServer)
    (screenWidth screenHeight : UInt32) (grabbed : Bool) (files : CertFiles) :
    (s.startServer command screenWidth screenHeight grabbed files).Valid := by
  constructor
  · intro n hn
    rw [serverShutdown_startServer] at hn
    rw [h.starts_startServer, ← Option.some.inj hn]
    simp
  · intro n start hstart
    rw [serverShutdown_startServer, Option.some.injEq]
    have hlength := (List.getElem?_eq_some_iff.mp hstart).1
    rw [h.starts_startServer, List.length_append, List.length_map, List.length_singleton]
      at hlength
    rcases Nat.lt_succ_iff_lt_or_eq.mp hlength with hn | rfl
    · rw [h.getElem?_startServer_earlier command screenWidth screenHeight grabbed files
        (List.getElem?_eq_getElem hn)] at hstart
      obtain rfl := Option.some.inj hstart
      exact iff_of_false (by simp [Start.signal]) hn.ne'
    · rw [h.getElem?_startServer] at hstart
      obtain rfl := Option.some.inj hstart
      exact iff_of_true rfl rfl

omit [CursorNumber α φ] in
/-- A stop keeps the handler valid. -/
theorem Valid.stopServer (h : s.Valid) : s.stopServer.Valid := by
  constructor
  · exact fun n hn => nomatch hn
  · intro n start hstart
    have hsignalled : (s.starts.map Start.signal)[n]? = some start := by
      rw [← h.starts_dropSender]
      exact hstart
    rw [List.getElem?_map] at hsignalled
    obtain ⟨old, -, rfl⟩ := Option.map_eq_some_iff.mp hsignalled
    exact iff_of_false (by simp [Start.signal]) (by simp [HandlerState.stopServer])

variable [DecidableEq ι]

/-- A step of a server keeps the handler valid. -/
theorem Valid.serverStep (h : s.Valid) (lib : KeyLib κ) (n : ℕ) (event : InstanceEvent ι α κ) :
    (s.serverStep lib n event).Valid := by
  unfold HandlerState.serverStep
  cases hn : s.starts[n]? with
  | none => exact h
  | some old =>
    have hshutdown : ((old.server.sharing s.connectedClients).step lib event).shutdown =
        old.server.shutdown := ServerInstance.shutdown_step lib event
    constructor
    · intro m hm
      simpa using h.last m hm
    · intro m start hstart
      simp only [List.getElem?_set] at hstart
      split at hstart
      · rename_i hsame
        subst hsame
        split at hstart
        · obtain rfl := Option.some.inj hstart
          rw [← h.stored n old hn, ← hshutdown]
        · exact absurd hstart (by simp)
      · exact h.stored m start hstart

/-- Every step keeps the handler valid. -/
theorem Valid.step (h : s.Valid) (lib : KeyLib κ) (event : HandlerEvent ι α κ) :
    (s.step lib event).Valid := by
  cases event with
  | startServer command screenWidth screenHeight grabbed files =>
    exact h.startServer command screenWidth screenHeight grabbed files
  | stopServer => exact h.stopServer
  | server n event => exact h.serverStep lib n event
  | displayError error => exact ⟨h.last, h.stored⟩

/-- The server of a start has a property. -/
def Has (s : HandlerState ι α) (n : ℕ) (p : ServerInstance ι α → Prop) : Prop :=
  ∃ start, s.starts[n]? = some start ∧ p start.server

/-- A property that the signal and the steps of a server keep is kept by every step. -/
theorem Has.step {n : ℕ} {p : ServerInstance ι α → Prop} (h : s.Has n p) (hs : s.Valid)
    (lib : KeyLib κ) (hsignal : ∀ start : Start ι α, p start.server → p start.signal.server)
    (hstep : ∀ (server : ServerInstance ι α) names (event : InstanceEvent ι α κ), p server →
      p ((server.sharing names).step lib event))
    (event : HandlerEvent ι α κ) : (s.step lib event).Has n p := by
  obtain ⟨start, hn, hp⟩ := h
  cases event with
  | startServer command screenWidth screenHeight grabbed files =>
    exact ⟨start.signal, hs.getElem?_startServer_earlier command screenWidth screenHeight grabbed
      files hn, hsignal start hp⟩
  | stopServer =>
    have hstops : s.stopServer.starts = s.starts.map Start.signal := hs.starts_dropSender
    refine ⟨start.signal, ?_, hsignal start hp⟩
    rw [HandlerState.step, hstops, List.getElem?_map, hn, Option.map_some]
  | server m event =>
    simp only [HandlerState.step, HandlerState.serverStep]
    cases hm : s.starts[m]? with
    | none => exact ⟨start, hn, hp⟩
    | some other =>
      by_cases hsame : m = n
      · subst hsame
        obtain rfl := Option.some.inj (hn.symm.trans hm)
        have hlength : m < s.starts.length := (List.getElem?_eq_some_iff.mp hn).1
        exact ⟨_, List.getElem?_set_self hlength, hstep _ _ event hp⟩
      · exact ⟨start, by rw [List.getElem?_set_ne hsame]; exact hn, hp⟩
  | displayError error => exact ⟨start, hn, hp⟩

end HandlerState

/-! ## Failed starts -/

/-- The CA is where it is looked for. -/
def CertFiles.complete : CertFiles where
  readToString path := .ok path
  keyNextTo _ := "ca-key.pem"
  ensured := .ok ⟨"ca.pem", "ca-key.pem", "server.pem", "server-key.pem"⟩

/-- No file is there, and the trust directory cannot be created. -/
def CertFiles.missing : CertFiles where
  readToString _ := .error "No such file or directory (os error 2)"
  keyNextTo _ := "ca-key.pem"
  ensured := .error "Could not determine config directory"

/-- A command with explicit paths. -/
def explicitPaths : StartServer where
  controlPort := 9876
  certPath := some "server.pem"
  keyPath := some "server-key.pem"
  caPath := some "ca.pem"

/-- The command handler, in a state in which the stored sender is that of the last start as long as
its server has had no signal. -/
structure CommandHandler (ι α : Type) extends HandlerState ι α where
  valid : toHandlerState.Valid

namespace CommandHandler

/-- Nothing has been started. -/
def initial : CommandHandler ι α where
  toHandlerState := .initial
  valid := ⟨fun _ hn => (nomatch hn), fun _ _ hstart => (nomatch hstart)⟩

/-- One step. -/
def step [CursorNumber α φ] [DecidableEq ι] (lib : KeyLib κ) (s : CommandHandler ι α)
    (event : HandlerEvent ι α κ) : CommandHandler ι α where
  toHandlerState := s.toHandlerState.step lib event
  valid := s.valid.step lib event

variable [CursorNumber α φ]

/-- **Failed starts.** In no state of the handler does a start whose certificates cannot be
resolved leave everything as it was: the monitor and the event task of the start run on, and so
does its capture if the system grants it the input, a sender that was stored is not kept, and a
server that was running has had the signal. -/
theorem failedStart_not_unchanged (s : CommandHandler ι α) {command : StartServer}
    (screenWidth screenHeight : UInt32) (grabbed : Bool) {files : CertFiles} {error : String}
    (hfails : resolveServerCerts files command.certPath command.keyPath command.caPath =
      .error error) :
    let s' := s.startServer command screenWidth screenHeight grabbed files
    ¬ s.Unchanged s' ∧
      (∀ part, s'.Keeps s.starts.length part ↔
        (grabbed = true ∨ part ≠ .capture ∧ part ≠ .forwardInput)) ∧
      (∀ n, s.serverShutdown = some n → s'.serverShutdown ≠ some n) ∧
      ∀ n, s.Serves n → ¬ s'.Serves n := by
  intro s'
  have hnew : s'.starts[s.starts.length]? =
      some (.called screenWidth screenHeight grabbed false) := by
    rw [s.valid.getElem?_startServer, hfails]
    rfl
  have hkeeps (part : Background) : s'.Keeps s.starts.length part ↔
      (grabbed = true ∨ part ≠ .capture ∧ part ≠ .forwardInput) := by
    rw [← Start.keeps_called_iff (ι := ι) (α := α) screenWidth screenHeight grabbed part]
    constructor
    · rintro ⟨start, hstart, hpart⟩
      obtain rfl := Option.some.inj (hnew.symm.trans hstart)
      exact hpart
    · exact fun hpart => ⟨_, hnew, hpart⟩
  refine ⟨fun h => ?_, hkeeps, fun n hn => ?_, ?_⟩
  · -- The monitor is the start's own, whatever the system grants.
    obtain ⟨start, hstart, -⟩ := h.background s.starts.length .monitor
      ((hkeeps .monitor).mpr (.inr ⟨by decide, by decide⟩))
    simp at hstart
  · have hlast := s.valid.last n hn
    rw [HandlerState.serverShutdown_startServer, Ne, Option.some.injEq]
    omega
  · rintro n ⟨start, hstart, -⟩ ⟨later, hlater, -, hshutdown⟩
    have hsignalled := s.valid.getElem?_startServer_earlier command screenWidth screenHeight
      grabbed files hstart
    obtain rfl := Option.some.inj (hsignalled.symm.trans hlater)
    exact absurd hshutdown (by simp [Start.signal])

/-- A server runs. -/
def running : CommandHandler Unit ℤ :=
  [.startServer explicitPaths 1920 1080 true .complete, .server 0 (.bind true true)].foldl
    (step .constant) initial

/-- A second start does not find its CA. -/
theorem failedStart_not_unchanged_running :
    let s' := running.startServer explicitPaths 1920 1080 true .missing
    ¬ running.Unchanged s' ∧
      (∀ part, s'.Keeps 1 part ↔ (true = true ∨ part ≠ .capture ∧ part ≠ .forwardInput)) ∧
      (∀ n, running.serverShutdown = some n → s'.serverShutdown ≠ some n) ∧
      ∀ n, running.Serves n → ¬ s'.Serves n :=
  failedStart_not_unchanged running 1920 1080 true
    (show resolveServerCerts .missing explicitPaths.certPath explicitPaths.keyPath
      explicitPaths.caPath = .error "No such file or directory (os error 2)" from rfl)

/-- The server has had the signal then, and is still displayed as running. -/
theorem running_stopped :
    let s' := running.startServer explicitPaths 1920 1080 true .missing
    running.Serves 0 ∧ running.serverShutdown = some 0 ∧ ¬ s'.Serves 0 ∧
      s'.serverShutdown = some 1 ∧ (∃ start, s'.starts[1]? = some start ∧
        start.background .capture = true ∧ start.background .monitor = true ∧
        start.background .eventTask = true) ∧
      s'.status = ⟨true, some 9876,
        some "Certificate error: No such file or directory (os error 2)"⟩ ∧
      ¬ running.Unchanged s' := by
  intro s'
  have hserves : running.Serves 0 := ⟨_, rfl, by decide, rfl⟩
  have hstopped : ¬ s'.Serves 0 := by
    rintro ⟨start, hstart, -, hshutdown⟩
    obtain rfl := Option.some.inj hstart
    exact Bool.false_ne_true hshutdown.symm
  exact ⟨hserves, rfl, hstopped, rfl, ⟨_, rfl, rfl, rfl, rfl⟩, rfl,
    fun h => hstopped (h.servers 0 hserves)⟩

/-- A start sends the signal to every server that is bound, whether its own certificates are
resolved or not. -/
theorem signalled_startServer (s : CommandHandler ι α) (command : StartServer)
    (screenWidth screenHeight : UInt32) (grabbed : Bool) (files : CertFiles) {n : ℕ}
    (h : s.Has n fun server => server.phase ≠ .binding) :
    (s.startServer command screenWidth screenHeight grabbed files).Has n
      ServerInstance.Signalled := by
  obtain ⟨start, hn, hphase⟩ := h
  exact ⟨start.signal, s.valid.getElem?_startServer_earlier command screenWidth screenHeight
    grabbed files hn, rfl, hphase⟩

variable [DecidableEq ι]

/-- A turn of a woken receiver has its effect in every run in which it happens. -/
theorem has_of_wake (lib : KeyLib κ) {n : ℕ} (effect : ServerInstance ι α → Prop)
    {wake : InstanceEvent ι α κ}
    (hsignal : ∀ start : Start ι α, effect start.server → effect start.signal.server)
    (hstep : ∀ (server : ServerInstance ι α) names (event : InstanceEvent ι α κ),
      server.Signalled → effect server → effect ((server.sharing names).step lib event))
    (hwake : ∀ (server : ServerInstance ι α) names, server.Signalled →
      effect ((server.sharing names).step lib wake))
    {s : CommandHandler ι α} (h : s.Has n ServerInstance.Signalled)
    {events : List (HandlerEvent ι α κ)} (hmem : .server n wake ∈ events) :
    (events.foldl (step lib) s).Has n effect := by
  have hreached : (events.foldl (step lib) s).Has n fun server =>
      server.Signalled ∧ effect server := by
    refine Run.foldl_of_mem (fun s : CommandHandler ι α => s.Has n ServerInstance.Signalled)
      (fun s : CommandHandler ι α => s.Has n fun server => server.Signalled ∧ effect server)
      ?_ ?_ ?_ h hmem
    · intro s event hs
      refine hs.step s.valid lib (fun _ hserver => ⟨rfl, hserver.phase⟩) ?_ event
      exact fun server names event hserver => (hserver.step lib names event).1
    · intro s event hs
      refine hs.step s.valid lib
        (fun start hstart => ⟨⟨rfl, hstart.1.phase⟩, hsignal start hstart.2⟩) ?_ event
      exact fun server names event hserver =>
        ⟨(hserver.1.step lib names event).1, hstep server names event hserver.1 hserver.2⟩
    · rintro s ⟨start, hn, hserver⟩
      have hlength : n < s.starts.length := (List.getElem?_eq_some_iff.mp hn).1
      let next := (start.server.sharing s.connectedClients).step lib wake
      have hnext : (s.starts.set n { start with server := next })[n]? =
          some { start with server := next } := List.getElem?_set_self hlength
      refine ⟨{ start with server := next }, ?_, (hserver.step lib s.connectedClients wake).1,
        hwake start.server s.connectedClients hserver⟩
      simp only [step, HandlerState.step, HandlerState.serverStep, hn]
      exact hnext
  obtain ⟨start, hn, -, heffect⟩ := hreached
  exact ⟨start, hn, heffect⟩

/-- **Stopped servers.** Once a server that is bound has had the signal, in every run in which its
`start` and its listeners have their turns, `start` has returned and no listener is left. -/
theorem woken_of_turns (lib : KeyLib κ) {s : CommandHandler ι α} {n : ℕ}
    (h : s.Has n ServerInstance.Signalled) {events : List (HandlerEvent ι α κ)}
    (hstart : .server n .wakeStart ∈ events)
    (hlisteners : ∀ listener, .server n (.wakeListener listener) ∈ events) :
    (events.foldl (step lib) s).Has n ServerInstance.Woken := by
  obtain ⟨start, hn, hphase⟩ := has_of_wake lib (fun server => server.phase = .returned)
    (fun _ => id) (fun server names event hserver => (hserver.step lib names event).2.1)
    (fun server names hserver => hserver.phase_wakeStart lib names) h hstart
  refine ⟨start, hn, hphase, fun listener => ?_⟩
  obtain ⟨start', hn', hlistening⟩ := has_of_wake lib
    (fun server => server.listening listener = false) (fun _ => id)
    (fun server names event hserver => (hserver.step lib names event).2.2 listener)
    (fun server names hserver => hserver.listening_wakeListener lib names listener) h
    (hlisteners listener)
  obtain rfl := Option.some.inj (hn.symm.trans hn')
  exact hlistening

/-- A server that is bound does not outlive another start, even one that fails. -/
theorem woken_of_startServer (lib : KeyLib κ) {s : CommandHandler ι α} {n : ℕ}
    (h : s.Has n fun server => server.phase ≠ .binding) (command : StartServer)
    (screenWidth screenHeight : UInt32) (grabbed : Bool) (files : CertFiles)
    {events : List (HandlerEvent ι α κ)} (hstart : .server n .wakeStart ∈ events)
    (hlisteners : ∀ listener, .server n (.wakeListener listener) ∈ events) :
    ((.startServer command screenWidth screenHeight grabbed files :: events).foldl
      (step lib) s).Has n ServerInstance.Woken := by
  have hsignalled : (s.step lib (.startServer command screenWidth screenHeight grabbed
      files)).Has n ServerInstance.Signalled :=
    s.signalled_startServer command screenWidth screenHeight grabbed files h
  exact woken_of_turns lib hsignalled hstart hlisteners

end CommandHandler

/-! ## The servers -/

namespace HandlerState

/-- The servers, the last start first. -/
def startedServers (s : HandlerState ι α) : StartedServers ι α where
  connectedClients := s.connectedClients
  current := (s.starts.map Start.server).getLast?
  earlier := (s.starts.map Start.server).dropLast.reverse

/-- What an event is for the servers. -/
def lifecycle (s : HandlerState ι α) : HandlerEvent ι α κ → List (LifecycleEvent ι α κ)
  | .startServer command screenWidth screenHeight _ files =>
      [.startServer screenWidth screenHeight
        (resolveServerCerts files command.certPath command.keyPath command.caPath).isOk]
  | .stopServer => [.stopServer]
  | .server n event =>
      if n + 1 = s.starts.length then [.current event]
      else if n < s.starts.length then [.earlier (s.starts.length - 2 - n) event]
      else []
  | .displayError _ => []

variable {s : HandlerState ι α}

/-- All starts but the last have had the signal. -/
theorem Valid.map_signal (h : s.Valid) {first : List (Start ι α)} {last : Start ι α}
    (hstarts : s.starts = first ++ [last]) :
    s.starts.map Start.signal = first ++ [last.signal] := by
  have hfirst : first.map Start.signal = first.map id := by
    refine List.map_congr_left fun start hstart => ?_
    obtain ⟨n, hlength, rfl⟩ := List.getElem_of_mem hstart
    have hn : s.starts[n]? = some first[n] := by
      rw [hstarts, List.getElem?_append_left hlength, List.getElem?_eq_getElem hlength]
    refine h.signal_eq hn fun hstored => ?_
    have hlast := h.last n hstored
    rw [hstarts, List.length_append, List.length_singleton] at hlast
    omega
  rw [hstarts, List.map_append, hfirst, List.map_id, List.map_singleton]

/-- The signal reaches the last server, and has reached the others before. -/
theorem Valid.startedServers_signal (h : s.Valid) :
    ((s.starts.map Start.signal).map Start.server).reverse =
      (s.startedServers.current.map fun server => { server with shutdown := true }).toList ++
        s.startedServers.earlier := by
  rcases List.eq_nil_or_concat s.starts with hnil | ⟨first, last, hstarts⟩
  · simp [startedServers, hnil]
  · rw [List.concat_eq_append] at hstarts
    rw [h.map_signal hstarts]
    simp [startedServers, hstarts, Start.signal]

/-- An element of a list, counted from its end. -/
private theorem reverse_set {β : Type} (l : List β) {n : ℕ} (hn : n < l.length) (b : β) :
    (l.set n b).reverse = l.reverse.set (l.length - 1 - n) b := by
  refine List.ext_getElem (by simp) fun k hk hk' => ?_
  have hlength : k < l.length := by simpa using hk
  have hindex : n = l.length - 1 - k ↔ l.length - 1 - n = k := by omega
  simp only [List.getElem_reverse, List.getElem_set, List.length_set, hindex]

variable [CursorNumber α φ]

/-- A stop, for the servers. -/
theorem Valid.startedServers_stopServer [DecidableEq ι] (h : s.Valid) (lib : KeyLib κ) :
    s.stopServer.startedServers = s.startedServers.step lib .stopServer := by
  have hstops : s.stopServer.starts = s.starts.map Start.signal := h.starts_dropSender
  rcases List.eq_nil_or_concat s.starts with hnil | ⟨first, last, hstarts⟩
  · simp only [startedServers, StartedServers.step, hstops, hnil]
    rfl
  · rw [List.concat_eq_append] at hstarts
    simp only [startedServers, StartedServers.step, hstops, h.map_signal hstarts]
    simp [hstarts, Start.signal, HandlerState.stopServer]

/-- A start, for the servers. -/
theorem Valid.startedServers_startServer [DecidableEq ι] (h : s.Valid) (lib : KeyLib κ)
    (command : StartServer) (screenWidth screenHeight : UInt32) (grabbed : Bool)
    (files : CertFiles) :
    (s.startServer command screenWidth screenHeight grabbed files).startedServers =
      s.startedServers.step lib (.startServer screenWidth screenHeight
        (resolveServerCerts files command.certPath command.keyPath command.caPath).isOk) := by
  have hsignalled := h.startedServers_signal
  simp only [startedServers, StartedServers.step, h.starts_startServer,
    connectedClients_startServer, List.map_append, List.map_singleton, List.getLast?_concat,
    List.dropLast_concat]
  rw [hsignalled]
  rfl

/-- A step of a server, among the servers. -/
theorem startedServers_serverStep [DecidableEq ι] (lib : KeyLib κ) (s : HandlerState ι α) (n : ℕ)
    (event : InstanceEvent ι α κ) :
    (s.serverStep lib n event).startedServers =
      (s.lifecycle (.server n event)).foldl (StartedServers.step lib) s.startedServers := by
  simp only [lifecycle]
  cases hn : s.starts[n]? with
  | none =>
    have hlength : s.starts.length ≤ n := List.getElem?_eq_none_iff.mp hn
    rw [if_neg (by omega), if_neg (by omega)]
    simp only [serverStep, hn]
    rfl
  | some start =>
    have hlength : n < s.starts.length := (List.getElem?_eq_some_iff.mp hn).1
    rcases List.eq_nil_or_concat s.starts with hnil | ⟨first, last, hstarts⟩
    · simp [hnil] at hlength
    · rw [List.concat_eq_append] at hstarts
      rw [hstarts, List.length_append, List.length_singleton] at hlength ⊢
      rw [hstarts] at hn
      by_cases hcurrent : n = first.length
      · subst hcurrent
        obtain rfl : last = start := by simpa using hn
        rw [if_pos rfl]
        simp [serverStep, startedServers, StartedServers.step, hstarts]
      · have hearlier : n < first.length := by omega
        rw [List.getElem?_append_left hearlier] at hn
        rw [if_neg (by omega), if_pos (by omega)]
        have hindex : first.length + 1 - 2 - n = first.length - 1 - n := by omega
        have hreversed : (first.map Start.server).reverse[first.length - 1 - n]? =
            some start.server := by
          rw [List.getElem?_reverse' (j := n) (by simp; omega), List.getElem?_map, hn,
            Option.map_some]
        have hset := reverse_set (first.map Start.server) (n := n) (by simpa using hearlier)
          ((start.server.sharing s.connectedClients).step lib event)
        rw [List.length_map] at hset
        simp only [List.foldl_cons, List.foldl_nil, serverStep, startedServers,
          StartedServers.step, hstarts, hindex, List.getElem?_append_left hearlier, hn,
          List.map_append, List.map_singleton, List.dropLast_concat, hreversed,
          List.set_append_left n _ hearlier, List.map_set, hset, List.getLast?_concat]

/-- Every step of the handler is one of the servers, or none. -/
theorem Valid.startedServers_step [DecidableEq ι] (h : s.Valid) (lib : KeyLib κ)
    (event : HandlerEvent ι α κ) :
    (s.step lib event).startedServers =
      (s.lifecycle event).foldl (StartedServers.step lib) s.startedServers := by
  cases event with
  | startServer command screenWidth screenHeight grabbed files =>
    exact h.startedServers_startServer lib command screenWidth screenHeight grabbed files
  | stopServer => exact h.startedServers_stopServer lib
  | server n event => exact s.startedServers_serverStep lib n event
  | displayError error => rfl

end HandlerState

/-- **Refinement.** A run of the handler is a run of the servers. -/
theorem CommandHandler.startedServers_run [CursorNumber α φ] [DecidableEq ι] (lib : KeyLib κ)
    (s : CommandHandler ι α) (events : List (HandlerEvent ι α κ)) :
    ∃ lifecycle : List (LifecycleEvent ι α κ),
      (events.foldl (step lib) s).startedServers =
        lifecycle.foldl (StartedServers.step lib) s.startedServers := by
  induction events generalizing s with
  | nil => exact ⟨[], rfl⟩
  | cons event events ih =>
    obtain ⟨lifecycle, hlifecycle⟩ := ih (s.step lib event)
    refine ⟨s.lifecycle event ++ lifecycle, ?_⟩
    rw [List.foldl_cons, hlifecycle, List.foldl_append]
    exact congrArg (lifecycle.foldl (StartedServers.step lib))
      (s.valid.startedServers_step lib event)

end SuperShare
