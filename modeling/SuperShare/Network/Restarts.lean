import Mathlib.Data.Set.Finite.Basic
import SuperShare.Network.Registry
import SuperShare.Network.ServerLifecycle

/-!
# Clients of an earlier server

The event tasks of all servers that were started write one list of connected clients, and each
reads it to tell whether its capture has a client left. A stop clears the list and ends neither
the handlers nor the event task. So the list and the flag of the server that runs are right for
good only if no server before it has anything left to report.
-/

namespace SuperShare

variable {ι α φ κ : Type}

/-- The name under which a handler stands that has registered a client and has not returned. -/
def ControlPhase.heldName : ControlPhase → Option String
  | registered name | connected name | leaving name | removed name => some name
  | _ => none

/-- A handler that has registered no client holds no name. -/
theorem ControlPhase.heldName_eq_none {phase : ControlPhase} (h : phase.hasRegistered = false) :
    phase.heldName = none := by
  cases phase <;> first | rfl | exact absurd h (by simp [hasRegistered])

/-- A handler that is live under a name holds it. -/
theorem ControlPhase.heldName_of_liveName {phase : ControlPhase} {name : String}
    (h : phase.liveName = some name) : phase.heldName = some name := by
  cases phase <;> first | exact h | exact absurd h (by simp [liveName])

namespace Server

/-- The window lists the clients that are registered, and the capture knows whether there is
one. -/
structure Shown (s : Server ι) : Prop where
  listed : ∀ name, name ∈ s.connectedClients ↔ s.clients name ≠ none
  hasClient : s.hasClient = true ↔ ∃ name, s.clients name ≠ none

/-- A client is registered under a name that no handler holds. -/
def RegistersApart (s : Server ι) : ServerStep ι → Prop
  | .poll i => ∀ hello attempts, s.control i = .waiting hello attempts →
      s.pendingData hello.name ≠ none → ∀ j, (s.control j).heldName ≠ some hello.name
  | _ => True

/-- No two handlers hold one name. -/
def Separate (s : Server ι) : Prop :=
  ∀ i j name, (s.control i).heldName = some name → (s.control j).heldName = some name → i = j

/-- Only some connections have been made. -/
def FewMade (s : Server ι) : Prop := {i | s.control i ≠ .accepted ∨ s.data i ≠ .accepted}.Finite

/-- The map of clients follows handlers of different names, on some of the connections. -/
structure Sound (s : Server ι) : Prop where
  registered : s.Registered
  separate : s.Separate
  fewMade : s.FewMade

variable {s s' : Server ι}

/-! ## The handlers of one server -/

/-- A server that has just been started is sound. -/
theorem sound_start : Sound (start : Server ι) where
  registered := registered_start
  separate i j name hi := by simp [start, ControlPhase.heldName] at hi
  fewMade := by simp [FewMade, start]

/-- The list in the window does not matter. -/
theorem Sound.congr (h : s.Sound) (hcontrol : s'.control = s.control) (hdata : s'.data = s.data)
    (hregistrations : s'.registrations = s.registrations) (hclients : s'.clients = s.clients) :
    s'.Sound where
  registered := h.registered.congr hcontrol hregistrations hclients
  separate := by
    rw [Separate, hcontrol]
    exact h.separate
  fewMade := by
    rw [FewMade, hcontrol, hdata]
    exact h.fewMade

/-- Where no two handlers hold one name, a handler that leaves is the last of its name. -/
theorem Separate.lastOfName (h : s.Separate) (event : ServerStep ι) : s.LastOfName event := by
  cases event with
  | cleanup i =>
    intro name hname j hj
    cases hphase : s.control i <;> rw [hphase] at hname <;>
      simp only [ControlPhase.leavingName, Option.mem_def, reduceCtorEq, Option.some.injEq] at hname
    subst hname
    exact h j i _ (ControlPhase.heldName_of_liveName hj) (by rw [hphase]; rfl)
  | depart i =>
    intro name hname j hj
    cases hphase : s.control i <;> rw [hphase] at hname <;>
      simp only [ControlPhase.removedName, Option.mem_def, reduceCtorEq, Option.some.injEq] at hname
    subst hname
    rename_i held
    have hlive : (s.control j).liveName = some held := by
      cases hother : s.control j <;> rw [hother] at hj <;>
        first | exact hj | exact absurd hj (by simp [ControlPhase.announcedName])
    obtain rfl := h j i _ (ControlPhase.heldName_of_liveName hlive) (by rw [hphase]; rfl)
    rw [hphase] at hj
    exact absurd hj (by simp [ControlPhase.announcedName])
  | _ => trivial

variable [DecidableEq ι]

/-- A handler may move if it takes no name. -/
theorem Separate.update (h : s.Separate) {i : ι} {phase : ControlPhase}
    (hheld : phase.heldName = none ∨ phase.heldName = (s.control i).heldName)
    (hcontrol : s'.control = Function.update s.control i phase) : s'.Separate := by
  have hkept : ∀ j name, (s'.control j).heldName = some name →
      (s.control j).heldName = some name := by
    intro j name hj
    rw [hcontrol] at hj
    by_cases hji : j = i
    · subst hji
      rw [Function.update_self] at hj
      rcases hheld with hnone | hsame
      · rw [hnone] at hj
        exact absurd hj (by simp)
      · rwa [← hsame]
    · rwa [Function.update_of_ne hji] at hj
  intro j k name hj hk
  exact h j k name (hkept j name hj) (hkept k name hk)

/-- A handler may take a name that no handler holds. -/
theorem Separate.register (h : s.Separate) {i dataTx : ι} {hello : Hello}
    (hfree : ∀ j, (s.control j).heldName ≠ some hello.name) :
    (s.register i hello dataTx).Separate := by
  have hname : ∀ j name, ((s.register i hello dataTx).control j).heldName = some name →
      j = i ∧ name = hello.name ∨ (s.control j).heldName = some name := by
    intro j name hj
    by_cases hji : j = i
    · subst hji
      rw [register_control, Function.update_self] at hj
      exact .inl ⟨rfl, (Option.some.inj hj).symm⟩
    · rw [register_control, Function.update_of_ne hji] at hj
      exact .inr hj
  intro j k name hj hk
  rcases hname j name hj with ⟨hji, hjname⟩ | hj
  · rcases hname k name hk with ⟨hki, -⟩ | hk
    · rw [hji, hki]
    · exact absurd (hjname ▸ hk) (hfree k)
  · rcases hname k name hk with ⟨-, hkname⟩ | hk
    · exact absurd (hkname ▸ hj) (hfree j)
    · exact h j k name hj hk

/-- Handlers stay apart when clients register apart. -/
theorem Separate.moves (h : s.Separate) {event : ServerStep ι} (hmove : s.Moves event s')
    (hapart : s.RegistersApart event) : s'.Separate := by
  cases hmove with
  | stay => exact h
  | early hfrom hto _ => exact h.update (.inl (ControlPhase.heldName_eq_none hto)) rfl
  | register hphase hpending =>
    exact h.register (hapart _ _ hphase (by rw [hpending]; simp))
  | announce hphase =>
    exact h.update (.inr (by rw [hphase]; rfl))
      (congrArg (Function.update · _ _) (s.notify_control _))
  | leave hphase => exact h.update (.inr (by rw [hphase]; rfl)) rfl
  | cleanup hphase => exact h.update (.inr (by rw [hphase]; rfl)) rfl
  | depart _ => exact h.update (.inl rfl) (congrArg (Function.update · _ _) (s.notify_control _))
  | dataHandshake _ _ => exact h
  | dataClose => exact h
  | forward _ => exact h
  | paired name => exact fun i j other => by simpa only [notify_control] using h i j other
  | process _ _ => exact fun i j other => by simpa only [handleEvent_control] using h i j other

/-- A step makes at most one more connection. -/
theorem FewMade.moves (h : s.FewMade) {event : ServerStep ι} (hmove : s.Moves event s') :
    s'.FewMade := by
  -- The two maps change at one connection.
  have hone : ∀ i, (∀ j, j ≠ i → s'.control j = s.control j ∧ s'.data j = s.data j) →
      s'.FewMade := by
    intro i hsame
    refine (h.insert i).subset fun j hj => ?_
    by_cases hji : j = i
    · exact .inl hji
    · simp only [Set.mem_ofPred_eq, (hsame j hji).1, (hsame j hji).2] at hj
      exact .inr hj
  have hnone : s'.control = s.control → s'.data = s.data → s'.FewMade := by
    intro hcontrol hdata
    rwa [FewMade, hcontrol, hdata]
  cases hmove with
  | stay => exact h
  | @early _ i _ _ _ _ => exact hone i fun j hj => ⟨Function.update_of_ne hj .., rfl⟩
  | @register i _ _ _ _ _ => exact hone i fun j hj => ⟨Function.update_of_ne hj .., rfl⟩
  | @announce i _ _ =>
    exact hone i fun j hj => ⟨by simp [Function.update_of_ne hj], by simp [setControl]⟩
  | @leave i _ _ _ => exact hone i fun j hj => ⟨Function.update_of_ne hj .., rfl⟩
  | @cleanup i _ _ => exact hone i fun j hj => ⟨Function.update_of_ne hj .., rfl⟩
  | @depart i _ _ =>
    exact hone i fun j hj => ⟨by simp [Function.update_of_ne hj], by simp [setControl]⟩
  | @dataHandshake i _ _ _ _ => exact hone i fun j hj => ⟨rfl, Function.update_of_ne hj ..⟩
  | @dataClose _ i => exact hone i fun j hj => ⟨rfl, Function.update_of_ne hj ..⟩
  | forward _ => exact hnone rfl rfl
  | paired name => exact hnone (s.notify_control _) (s.notify_data _)
  | process _ _ => exact hnone (handleEvent_control _ _) (handleEvent_data _ _)

/-- A step in which clients register apart keeps a server sound. -/
theorem Sound.step (h : s.Sound) {event : ServerStep ι} (hapart : s.RegistersApart event) :
    (s.step event).Sound where
  registered := h.registered.moves (s.moves_step event) (h.separate.lastOfName event)
  separate := h.separate.moves (s.moves_step event) hapart
  fewMade := h.fewMade.moves (s.moves_step event)

omit [DecidableEq ι] in
/-- In a settled state a handler holds a name as long as it is live and announced under it. -/
theorem Settled.names (h : s.Settled) (i : ι) (name : String) :
    ((s.control i).heldName = some name ↔ (s.control i).liveName = some name) ∧
      ((s.control i).announcedName = some name ↔ (s.control i).liveName = some name) ∧
        (s.control i).removedName ≠ some name := by
  have howes := h.2.2 i
  cases hphase : s.control i <;> rw [hphase] at howes <;> first
    | exact ⟨Iff.rfl, Iff.rfl, by simp [ControlPhase.removedName]⟩
    | exact absurd howes (by simp [ControlPhase.owesEvent])

omit [DecidableEq ι] in
/-- In a settled state the window is right exactly if the event task is. -/
theorem Settled.shown_iff_announced (h : s.Settled) (hreg : s.Registered) :
    s.Shown ↔ s.Announced := by
  have hexpected : s.expectedNames = s.connectedClients := by
    rw [expectedNames, h.1]
    rfl
  constructor
  · intro hshown
    have hnonempty : s.connectedClients ≠ [] ↔ ∃ name, s.clients name ≠ none := by
      rw [← exists_congr hshown.listed]
      constructor
      · exact List.exists_mem_of_ne_nil _
      · rintro ⟨name, hname⟩
        exact List.ne_nil_of_mem hname
    refine ⟨hshown.hasClient.trans hnonempty.symm, fun _ i name hi => ?_, fun _ name hname => ?_⟩
    · rw [hexpected, hshown.listed name, hreg.clients_ne_none]
      exact ⟨i, (h.names i name).2.1.mp hi⟩
    · rw [hexpected, hshown.listed name, hreg.clients_ne_none] at hname
      obtain ⟨i, hi⟩ := hname
      exact ⟨i, .inl ((h.names i name).2.1.mpr hi)⟩
  · intro hann
    refine ⟨fun name => ?_, h.hasClient hreg hann⟩
    rw [hreg.clients_ne_none, ← hexpected]
    constructor
    · intro hname
      obtain ⟨i, hi | hi⟩ := hann.announced h.2.1 name hname
      · exact ⟨i, (h.names i name).2.1.mp hi⟩
      · exact absurd hi (h.names i name).2.2
    · rintro ⟨i, hi⟩
      exact hann.expected h.2.1 i name ((h.names i name).2.1.mpr hi)

/-- A client connects. -/
def connecting (i : ι) (name : String) : List (ServerStep ι) :=
  [.controlHandshake i (some (.handshake 1 name 0 0)), .screenConfig i true,
    .dataHandshake i (some (.handshake 1 name 0 0)), .poll i, .announce i, .processEvent]

/-- A client closes its control connection. -/
def departing (i : ι) : List (ServerStep ι) :=
  [.controlMessage i none, .cleanup i, .depart i, .processEvent]

omit [DecidableEq ι] in
/-- Where no notification waits, there is room for one. -/
theorem notify_of_nil (h : s.notifications = []) (event : ServerEvent) :
    s.notify event = { s with notifications := [event] } := by
  simp [notify, h, notifyCapacity]

/-- What the connection of a client does to the server. -/
theorem Settled.foldl_connecting (h : s.Settled) {i : ι} (hcontrol : s.control i = .accepted)
    (hdata : s.data i = .accepted) (name : String) :
    (connecting i name).foldl Server.step s =
      { s with
        control := Function.update s.control i (.connected name)
        data := Function.update s.data i (.reading name)
        pendingData := Function.update s.pendingData name none
        clients := Function.update s.clients name (some ⟨name, i, i, 0, 0⟩)
        registrations := ⟨name, i, i, 0, 0⟩ :: s.registrations
        connectedClients := s.connectedClients ++ [name]
        hasClient := true } := by
  simp [connecting, Server.step, hcontrol, Hello.ofControl, setControl, hdata, dataName,
    pollPending, register, notify_of_nil, h.1, h.2.1, handleEvent]

/-- What the end of its control connection does. -/
theorem Settled.foldl_departing (h : s.Settled) {i : ι} {name : String}
    (hlive : (s.control i).liveName = some name) :
    let left := s.connectedClients.filter (· ≠ name)
    (departing i).foldl Server.step s =
      { s with
        control := Function.update s.control i .closed
        clients := Function.update s.clients name none
        connectedClients := left
        hasClient := if left.isEmpty then false else s.hasClient } := by
  have howes := h.2.2 i
  cases hphase : s.control i <;> rw [hphase] at hlive howes <;>
    simp only [ControlPhase.liveName, ControlPhase.owesEvent, reduceCtorEq, Option.some.injEq]
      at hlive howes
  all_goals
    subst hlive
    simp [departing, Server.step, hphase, setControl, notify_of_nil, h.1, h.2.1, handleEvent]

omit [DecidableEq ι] in
/-- A server stays settled when a handler moves and owes no notification. -/
theorem Settled.update [DecidableEq ι] (h : s.Settled) {i : ι} {phase : ControlPhase}
    (hphase : phase.owesEvent = false) (hcontrol : s'.control = Function.update s.control i phase)
    (hnotifications : s'.notifications = s.notifications) (hlagged : s'.lagged = s.lagged) :
    s'.Settled := by
  refine ⟨hnotifications.trans h.1, hlagged.trans h.2.1, fun j => ?_⟩
  rw [hcontrol]
  by_cases hji : j = i
  · rw [hji, Function.update_self, hphase]
  · rw [Function.update_of_ne hji]
    exact h.2.2 j

/-- A client with a new connection gets registered. -/
theorem Settled.after_connecting (h : s.Settled) {i : ι} (hcontrol : s.control i = .accepted)
    (hdata : s.data i = .accepted) (name : String) :
    ((connecting i name).foldl Server.step s).Settled ∧
      ((connecting i name).foldl Server.step s).clients name ≠ none := by
  rw [h.foldl_connecting hcontrol hdata name]
  exact ⟨h.update rfl rfl rfl rfl, by simp⟩

/-- A client whose control connection is closed is no longer registered. -/
theorem Settled.after_departing (h : s.Settled) {i : ι} {name : String}
    (hlive : (s.control i).liveName = some name) :
    ((departing i).foldl Server.step s).Settled ∧
      ((departing i).foldl Server.step s).clients name = none := by
  rw [h.foldl_departing hlive]
  exact ⟨h.update rfl rfl rfl rfl, Function.update_self ..⟩

/-- A client may connect under a name that is not registered. -/
theorem Settled.along_connecting (h : s.Settled) (hreg : s.Registered) {i : ι} {name : String}
    (hcontrol : s.control i = .accepted) (hdata : s.data i = .accepted)
    (hfree : s.clients name = none) :
    Run.Along Server.step RegistersApart s (connecting i name) := by
  have hheld : ∀ j, (s.control j).heldName ≠ some name := by
    intro j hj
    exact (hreg.clients_ne_none name).mpr ⟨j, (h.names j name).1.mp hj⟩ hfree
  refine ⟨trivial, trivial, trivial, ?_, trivial, trivial, trivial⟩
  intro hello attempts hwaiting _ j
  simp only [Server.step, hcontrol, Hello.ofControl, setControl, hdata, dataName, ne_eq,
    not_true_eq_false, if_false, if_true, Function.update_self, Function.update_idem,
    ControlPhase.waiting.injEq] at hwaiting ⊢
  obtain ⟨rfl, -⟩ := hwaiting
  by_cases hji : j = i
  · rw [hji, Function.update_self]
    simp [ControlPhase.heldName]
  · rw [Function.update_of_ne hji]
    exact hheld j

/-! ## What the window does not matter for -/

/-- The server without what its handlers do not read. -/
def blank (s : Server ι) : Server ι :=
  { s with
    clients := fun _ => none
    registrations := []
    broadcast := []
    connectedClients := []
    hasClient := false }

omit [DecidableEq ι] in
/-- A notification is sent whatever the window lists. -/
theorem blank_notify (s : Server ι) (event : ServerEvent) :
    (s.notify event).blank = (s.blank.notify event).blank := by
  have hsame : s.blank.notifications = s.notifications := rfl
  simp only [notify, hsame]
  split <;> rfl

/-- The handlers and the event task take the same steps whatever the window lists. -/
theorem blank_step (s : Server ι) (event : ServerStep ι) :
    (s.step event).blank = (s.blank.step event).blank := by
  have hcontrol (i : ι) : s.blank.control i = s.control i := rfl
  have hdata (i : ι) : s.blank.data i = s.data i := rfl
  cases event with
  | controlHandshake i msg =>
    simp only [step, hcontrol]
    cases s.control i <;> first | rfl | (cases Hello.ofControl msg <;> rfl)
  | screenConfig i written =>
    simp only [step, hcontrol]
    cases s.control i <;> first | rfl | (cases written <;> rfl)
  | poll i =>
    simp only [step, hcontrol]
    cases s.control i with
    | waiting hello attempts =>
      have hpending : s.blank.pendingData = s.pendingData := rfl
      simp only [pollPending, hpending]
      cases s.pendingData hello.name with
      | some dataTx => rfl
      | none =>
        dsimp only
        split <;> rfl
    | _ => rfl
  | announce i =>
    simp only [step, hcontrol]
    cases s.control i with
    | registered name =>
      exact congrArg (setControl · i (.connected name)) (s.blank_notify (.clientConnected name))
    | _ => rfl
  | controlMessage i msg =>
    simp only [step, hcontrol]
    cases s.control i with
    | connected name =>
      cases msg with
      | none => rfl
      | some msg => cases msg <;> rfl
    | _ => rfl
  | cleanup i =>
    simp only [step, hcontrol]
    cases s.control i <;> rfl
  | depart i =>
    simp only [step, hcontrol]
    cases s.control i with
    | removed name =>
      exact congrArg (setControl · i .closed) (s.blank_notify (.clientDisconnected name))
    | _ => rfl
  | dataHandshake i msg =>
    simp only [step, hdata]
    cases s.data i <;> first | rfl | (cases dataName msg <;> rfl)
  | dataMessage i msg =>
    simp only [step, hdata]
    cases s.data i <;> first | rfl | (cases msg <;> rfl)
  | paired name => exact s.blank_notify (.clientPaired name)
  | processEvent =>
    have hlagged : s.blank.lagged = s.lagged := rfl
    have hqueue : s.blank.notifications = s.notifications := rfl
    simp only [step, hlagged, hqueue]
    split
    · rename_i event rest _ _
      cases event <;> rfl
    · rfl

/-- Only the event task writes the list, when it comes to a client. -/
theorem Moves.connectedClients_eq {event : ServerStep ι} (hmove : s.Moves event s')
    (hquiet : s.lagged = false → ∀ name rest, s.notifications ≠ .clientConnected name :: rest ∧
      s.notifications ≠ .clientDisconnected name :: rest) :
    s'.connectedClients = s.connectedClients := by
  cases hmove with
  | announce _ => exact (s.notify_hasClient _).2
  | depart _ => exact (s.notify_hasClient _).2
  | paired name => exact (s.notify_hasClient _).2
  | @process event rest hlagged hqueue =>
    cases event with
    | clientConnected name => exact absurd hqueue (hquiet hlagged name rest).1
    | clientDisconnected name => exact absurd hqueue (hquiet hlagged name rest).2
    | clientPaired name => rfl
  | _ => rfl

end Server

namespace ServerInstance

/-- The event task comes to a client that has connected or left. -/
def Reports (s : ServerInstance ι α) : Prop :=
  s.server.lagged = false ∧ ∃ name rest, s.server.notifications = .clientConnected name :: rest ∨
    s.server.notifications = .clientDisconnected name :: rest

variable [CursorNumber α φ] [DecidableEq ι]

/-- The server's tasks can bring its event task to such a client. -/
def CanReport (lib : KeyLib κ) (s : ServerInstance ι α) : Prop :=
  Run.CanReach (step lib) (fun _ => True) Reports s

/-- The server without what its handlers, its listeners and its event task do not read. -/
def blank (s : ServerInstance ι α) : ServerInstance ι α :=
  { s with server := s.server.blank, callback := .start 0 0, exitRemote := false }

variable {s s' : ServerInstance ι α} (lib : KeyLib κ)

/-- They take the same steps whatever the window lists and the capture does. -/
theorem blank_step (s : ServerInstance ι α) (event : InstanceEvent ι α κ) :
    (s.step lib event).blank = (s.blank.step lib event).blank := by
  cases event with
  | bind bound pairing =>
    have hphase : s.blank.phase = s.phase := rfl
    simp only [step, hphase]
    split
    · split <;> rfl
    · rfl
  | accept listener i =>
    have hlistening : s.blank.listening = s.listening := rfl
    simp only [step, hlistening]
    split <;> rfl
  | handler event =>
    have hallows : s.blank.allows event = s.allows event := by cases event <;> rfl
    simp only [step, hallows]
    split
    · exact congrArg (fun server => { s.blank with server := server })
        (s.server.blank_step event)
    · rfl
  | exitRemote => rfl
  | input event room => rfl
  | wakeStart =>
    have hsame : s.blank.shutdown = s.shutdown ∧ s.blank.phase = s.phase := ⟨rfl, rfl⟩
    simp only [step, hsame]
    split <;> rfl
  | wakeListener listener =>
    have hshutdown : s.blank.shutdown = s.shutdown := rfl
    simp only [step, hshutdown]
    split <;> rfl

/-- So they take the same runs. -/
theorem blank_foldl (h : s.blank = s'.blank) (events : List (InstanceEvent ι α κ)) :
    (events.foldl (step lib) s).blank = (events.foldl (step lib) s').blank := by
  induction events generalizing s s' with
  | nil => exact h
  | cons event events ih =>
    refine ih ?_
    rw [blank_step, h, ← blank_step]

omit [DecidableEq ι] in
/-- Whether the event task comes to a client does not depend on the rest. -/
theorem Reports.congr (h : s.Reports) (hsame : s.blank = s'.blank) : s'.Reports := by
  have hlagged : s.server.lagged = s'.server.lagged := congrArg (·.server.lagged) hsame
  have hqueue : s.server.notifications = s'.server.notifications :=
    congrArg (·.server.notifications) hsame
  rwa [Reports, ← hlagged, ← hqueue]

/-- Nor does whether it can. -/
theorem CanReport.congr (h : s.CanReport lib) (hsame : s.blank = s'.blank) :
    s'.CanReport lib := by
  obtain ⟨events, hevents, hreports⟩ := h
  exact ⟨events, hevents, hreports.congr (blank_foldl lib hsame events)⟩

/-- A step is one of the server, or leaves it alone. -/
theorem server_step (s : ServerInstance ι α) (event : InstanceEvent ι α κ) :
    (s.step lib event).server = s.server ∨
      ∃ step, event = .handler step ∧ (s.step lib event).server = s.server.step step := by
  cases event with
  | handler event =>
    simp only [step]
    split
    · exact .inr ⟨event, rfl, rfl⟩
    · exact .inl rfl
  | bind bound pairing =>
    simp only [step]
    split
    · split <;> exact .inl rfl
    · exact .inl rfl
  | exitRemote | input event room => exact .inl rfl
  | _ =>
    simp only [step]
    split <;> exact .inl rfl

/-- A server that does not report leaves the list alone. -/
theorem connectedClients_step (h : ¬ s.Reports) (event : InstanceEvent ι α κ) :
    (s.step lib event).server.connectedClients = s.server.connectedClients := by
  rcases s.server_step lib event with hsame | ⟨event, rfl, hstep⟩
  · rw [hsame]
  · rw [hstep]
    refine (s.server.moves_step event).connectedClients_eq fun hlagged name rest => ?_
    exact ⟨fun hqueue => h ⟨hlagged, name, rest, .inl hqueue⟩,
      fun hqueue => h ⟨hlagged, name, rest, .inr hqueue⟩⟩

/-- A server whose event task has not stopped can report a client as long as a handler holds its
name. -/
theorem canReport_of_heldName (hlagged : s.server.lagged = false) {i : ι} {name : String}
    (hheld : (s.server.control i).heldName = some name) : s.CanReport lib := by
  induction hqueue : s.server.notifications generalizing s with
  | nil =>
    -- The handler goes on to its next notification.
    have hrun : ∀ events : List (ServerStep ι),
        ((events.map InstanceEvent.handler).foldl (step lib) s).Reports → s.CanReport lib :=
      fun events hreports => ⟨events.map .handler, by simp, hreports⟩
    cases hphase : s.server.control i with
    | registered name =>
      refine hrun [.announce i] ?_
      simp [Reports, step, allows, Server.step, hphase, Server.notify_of_nil, hqueue,
        Server.setControl, hlagged]
    | connected name =>
      refine hrun [.controlMessage i none, .cleanup i, .depart i] ?_
      simp [Reports, step, allows, Server.step, hphase, Server.notify_of_nil, hqueue,
        Server.setControl, hlagged]
    | leaving name =>
      refine hrun [.cleanup i, .depart i] ?_
      simp [Reports, step, allows, Server.step, hphase, Server.notify_of_nil, hqueue,
        Server.setControl, hlagged]
    | removed name =>
      refine hrun [.depart i] ?_
      simp [Reports, step, allows, Server.step, hphase, Server.notify_of_nil, hqueue,
        Server.setControl, hlagged]
    | _ => simp [hphase, ControlPhase.heldName] at hheld
  | cons event rest ih =>
    cases event with
    | clientConnected other =>
      exact Run.canReach_of_goal ⟨hlagged, other, rest, .inl hqueue⟩
    | clientDisconnected other =>
      exact Run.canReach_of_goal ⟨hlagged, other, rest, .inr hqueue⟩
    | clientPaired other =>
      have hnext : s.step lib (.handler .processEvent) =
          { s with server := { s.server with notifications := rest } } := by
        simp [step, allows, Server.step, hlagged, hqueue, Server.handleEvent]
      refine Run.canReach_of_run [.handler .processEvent] (by simp) ?_
      rw [List.foldl_cons, List.foldl_nil, hnext]
      exact ih hlagged hheld rfl

/-- A client is registered under a name that no handler holds. -/
def RegistersApart (s : ServerInstance ι α) : InstanceEvent ι α κ → Prop
  | .handler event => s.server.RegistersApart event
  | _ => True

/-- A step of a handler that has been accepted is one of the server. -/
theorem step_of_allows {event : ServerStep ι} (h : s.allows event = true) :
    s.step lib (.handler event) = { s with server := s.server.step event } := by
  simp only [step, h, if_true]

omit [CursorNumber α φ] [DecidableEq ι] in
/-- Which connections have been accepted does not depend on what the handlers do. -/
theorem allows_server (s : ServerInstance ι α) (server : Server ι) (event : ServerStep ι) :
    ({ s with server := server } : ServerInstance ι α).allows event = s.allows event := by
  cases event <;> rfl

/-- So it is for a run. -/
theorem foldl_handlers {events : List (ServerStep ι)}
    (hallows : ∀ event ∈ events, s.allows event = true) :
    (events.map .handler).foldl (step lib) s =
      { s with server := events.foldl Server.step s.server } := by
  induction events generalizing s with
  | nil => rfl
  | cons event events ih =>
    obtain ⟨hfirst, hrest⟩ := List.forall_mem_cons.mp hallows
    rw [List.map_cons, List.foldl_cons, s.step_of_allows lib hfirst]
    exact ih fun event hmem => (s.allows_server _ event).trans (hrest event hmem)

/-- Their clients register apart. -/
theorem along_handlers {events : List (ServerStep ι)}
    (hallows : ∀ event ∈ events, s.allows event = true)
    (h : Run.Along Server.step Server.RegistersApart s.server events) :
    Run.Along (step lib) RegistersApart s (events.map .handler) := by
  induction events generalizing s with
  | nil => trivial
  | cons event events ih =>
    obtain ⟨hfirst, hrest⟩ := List.forall_mem_cons.mp hallows
    refine ⟨h.1, ?_⟩
    rw [s.step_of_allows lib hfirst]
    exact ih (fun event hmem => (s.allows_server _ event).trans (hrest event hmem)) h.2

end ServerInstance

/-- The event is a command. -/
def LifecycleEvent.isCommand : LifecycleEvent ι α κ → Bool
  | startServer .. | stopServer => true
  | current _ | earlier .. => false

namespace StartedServers

/-- The server started last, with the list in the window. -/
def displayed (s : StartedServers ι α) : Option (ServerInstance ι α) :=
  s.current.map (·.sharing s.connectedClients)

/-- No client connects to the server started last under a name that is held there. -/
def Apart (s : StartedServers ι α) : LifecycleEvent ι α κ → Prop
  | .current event => ∀ server ∈ s.displayed, server.RegistersApart event
  | _ => True

variable [CursorNumber α φ] [DecidableEq ι]

/-- Until the next command, the window and the capture are right whenever the server started last
is settled, as long as its clients connect under names of their own. -/
def StaysShown (lib : KeyLib κ) (s : StartedServers ι α) : Prop :=
  ∀ events : List (LifecycleEvent ι α κ), (∀ event ∈ events, event.isCommand = false) →
    Run.Along (step lib) Apart s events →
      ∀ server ∈ (events.foldl (step lib) s).displayed,
        server.server.Settled → server.server.Shown

variable {s : StartedServers ι α} (lib : KeyLib κ)

/-- The server started last takes a step with the list. -/
theorem displayed_current (s : StartedServers ι α) (event : InstanceEvent ι α κ) :
    (s.step lib (.current event)).displayed = s.displayed.map (·.step lib event) := by
  cases hcurrent : s.current <;> simp only [step, displayed, hcurrent] <;> rfl

/-- It leaves the others alone. -/
theorem earlier_current (s : StartedServers ι α) (event : InstanceEvent ι α κ) :
    (s.step lib (.current event)).earlier = s.earlier := by
  cases hcurrent : s.current <;> simp only [step, hcurrent]

/-- The same of a run of it. -/
theorem foldl_current (s : StartedServers ι α) (events : List (InstanceEvent ι α κ)) :
    let after := (events.map LifecycleEvent.current).foldl (step lib) s
    after.displayed = s.displayed.map (events.foldl (ServerInstance.step lib)) ∧
      after.earlier = s.earlier := by
  induction events generalizing s with
  | nil => simp
  | cons event events ih =>
    obtain ⟨hdisplayed, hearlier⟩ := ih (s.step lib (.current event))
    refine ⟨?_, hearlier.trans (s.earlier_current lib event)⟩
    rw [List.map_cons, List.foldl_cons, hdisplayed, displayed_current, Option.map_map]
    rfl

/-- A run of the server started last is apart if it is by itself. -/
theorem along_current {server : ServerInstance ι α} (hserver : server ∈ s.displayed)
    {events : List (InstanceEvent ι α κ)}
    (h : Run.Along (ServerInstance.step lib) ServerInstance.RegistersApart server events) :
    Run.Along (step lib) Apart s (events.map .current) := by
  induction events generalizing s server with
  | nil => trivial
  | cons event events ih =>
    refine ⟨fun other hother => ?_, ih ?_ h.2⟩
    · obtain rfl := Option.some.inj (hserver.symm.trans hother)
      exact h.1
    · rw [Option.mem_def, displayed_current, Option.mem_def.mp hserver]
      rfl

/-- A step of another server leaves the server started last as it is, except for the list. -/
theorem displayed_earlier (s : StartedServers ι α) (n : ℕ) (event : InstanceEvent ι α κ) :
    (s.step lib (.earlier n event)).displayed =
      s.displayed.map (·.sharing (s.step lib (.earlier n event)).connectedClients) := by
  cases hearlier : s.earlier[n]? <;> cases hcurrent : s.current <;>
    simp only [step, displayed, hearlier, hcurrent] <;> rfl

/-- Another server takes its step with the list. -/
theorem step_earlier {n : ℕ} {server : ServerInstance ι α} (hearlier : s.earlier[n]? = some server)
    (event : InstanceEvent ι α κ) :
    let next := (server.sharing s.connectedClients).step lib event
    s.step lib (.earlier n event) =
      { s with
        connectedClients := next.server.connectedClients, earlier := s.earlier.set n next } := by
  simp only [step, hearlier]

/-- A run of another server goes as it would by itself, as far as its handlers are concerned, and
leaves the server started last as it is, except for the list. -/
theorem foldl_earlier {n : ℕ} {server earlier : ServerInstance ι α}
    (hserver : server ∈ s.displayed) (hearlier : s.earlier[n]? = some earlier)
    (events : List (InstanceEvent ι α κ)) :
    let after := (events.map (LifecycleEvent.earlier n)).foldl (step lib) s
    ∃ names other, server.sharing names ∈ after.displayed ∧ after.earlier[n]? = some other ∧
      other.blank = (events.foldl (ServerInstance.step lib) earlier).blank := by
  induction events generalizing s server earlier with
  | nil =>
    refine ⟨server.server.connectedClients, earlier, ?_, hearlier, rfl⟩
    exact hserver
  | cons event events ih =>
    let next := (earlier.sharing s.connectedClients).step lib event
    have hnext : (s.step lib (.earlier n event)).earlier[n]? = some next := by
      rw [s.step_earlier lib hearlier]
      exact List.getElem?_set_self (List.getElem?_eq_some_iff.mp hearlier).1
    have hdisplayed : server.sharing (s.step lib (.earlier n event)).connectedClients ∈
        (s.step lib (.earlier n event)).displayed := by
      rw [Option.mem_def, displayed_earlier, Option.mem_def.mp hserver]
      rfl
    obtain ⟨names, other, hshared, hother, hblank⟩ := ih hdisplayed hnext
    refine ⟨names, other, hshared, hother, hblank.trans ?_⟩
    refine ServerInstance.blank_foldl lib ?_ events
    rw [ServerInstance.blank_step, ServerInstance.blank_step (s := earlier)]
    rfl

/-- Whatever the server started last is, the events of another server are apart. -/
theorem along_earlier (s : StartedServers ι α) (n : ℕ) (events : List (InstanceEvent ι α κ)) :
    Run.Along (step lib) Apart s (events.map (.earlier n)) := by
  refine Run.along_of_forall (fun event hmem s => ?_) s
  obtain ⟨event, -, rfl⟩ := List.mem_map.mp hmem
  trivial

/-! ## What an earlier server spoils -/

/-- What stays right stays so later. -/
theorem StaysShown.run (h : s.StaysShown lib) {events : List (LifecycleEvent ι α κ)}
    (hevents : ∀ event ∈ events, event.isCommand = false)
    (hapart : Run.Along (step lib) Apart s events) :
    (events.foldl (step lib) s).StaysShown lib := by
  intro rest hrest hlater server hserver
  rw [← List.foldl_append] at hserver
  refine h (events ++ rest) (fun event hmem => ?_) (Run.along_append.mpr ⟨hapart, hlater⟩) server
    hserver
  rcases List.mem_append.mp hmem with hmem | hmem
  · exact hevents event hmem
  · exact hrest event hmem

/-- The event task of another server lists a client that is not registered, or takes one off the
list that is. -/
theorem not_staysShown_of_report {n : ℕ} {server earlier : ServerInstance ι α}
    (hserver : server ∈ s.displayed) (hsettled : server.server.Settled)
    (hearlier : s.earlier[n]? = some earlier) (hlagged : earlier.server.lagged = false)
    {event : ServerEvent} {rest : List ServerEvent}
    (hqueue : earlier.server.notifications = event :: rest) {name : String}
    (hwrong : event = .clientConnected name ∧ server.server.clients name = none ∨
      event = .clientDisconnected name ∧ server.server.clients name ≠ none) :
    ¬ s.StaysShown lib := by
  intro hstays
  let after := s.step lib (.earlier n (.handler .processEvent))
  have hnames : after.connectedClients = Server.applyEvent s.connectedClients event := by
    simp only [after, step, hearlier, ServerInstance.step, ServerInstance.allows, if_true,
      Server.step, ServerInstance.sharing, hlagged, hqueue]
    cases event <;> rfl
  have hdisplayed : server.sharing after.connectedClients ∈ after.displayed := by
    rw [Option.mem_def, displayed_earlier, Option.mem_def.mp hserver]
    rfl
  have hshown : (server.sharing after.connectedClients).server.Shown :=
    hstays [.earlier n (.handler .processEvent)] (by simp [LifecycleEvent.isCommand])
      ⟨trivial, trivial⟩ _ hdisplayed hsettled
  have hlisted := hshown.listed name
  rcases hwrong with ⟨rfl, hnone⟩ | ⟨rfl, hsome⟩
  · have hmem : name ∈ after.connectedClients := by
      rw [hnames]
      simp [Server.applyEvent]
    exact hlisted.mp hmem hnone
  · have hmem : name ∈ after.connectedClients := hlisted.mpr hsome
    rw [hnames] at hmem
    simp [Server.applyEvent] at hmem

/-- The server started last may take steps in which its clients register apart. -/
theorem StaysShown.current (h : s.StaysShown lib) {server : ServerInstance ι α}
    (hserver : server ∈ s.displayed) (events : List (InstanceEvent ι α κ))
    (hapart : Run.Along (ServerInstance.step lib) ServerInstance.RegistersApart server events) :
    ∃ after : StartedServers ι α, after.StaysShown lib ∧ after.earlier = s.earlier ∧
      events.foldl (ServerInstance.step lib) server ∈ after.displayed := by
  obtain ⟨hdisplayed, hearlier⟩ := s.foldl_current lib events
  refine ⟨_, h.run lib (fun event hmem => ?_) (along_current lib hserver hapart), hearlier, ?_⟩
  · obtain ⟨event, -, rfl⟩ := List.mem_map.mp hmem
    rfl
  · rw [Option.mem_def, hdisplayed, Option.mem_def.mp hserver, Option.map_some]

/-- Its handlers may take steps. -/
theorem StaysShown.handlers (h : s.StaysShown lib) {server : ServerInstance ι α}
    (hserver : server ∈ s.displayed) (events : List (ServerStep ι))
    (hallows : ∀ event ∈ events, server.allows event = true)
    (hapart : Run.Along Server.step Server.RegistersApart server.server events) :
    ∃ after : StartedServers ι α, after.StaysShown lib ∧ after.earlier = s.earlier ∧
      { server with server := events.foldl Server.step server.server } ∈ after.displayed := by
  rw [← server.foldl_handlers lib hallows]
  exact h.current lib hserver _ (server.along_handlers lib hallows hapart)

/-- A client of the server started last may leave. -/
theorem StaysShown.depart (h : s.StaysShown lib) {server : ServerInstance ι α}
    (hserver : server ∈ s.displayed) (hsettled : server.server.Settled)
    (hregistered : server.server.Registered) {name : String}
    (hclient : server.server.clients name ≠ none) :
    ∃ after : StartedServers ι α, after.StaysShown lib ∧ after.earlier = s.earlier ∧
      ∃ server' ∈ after.displayed, server'.server.Settled ∧
        server'.server.clients name = none := by
  obtain ⟨i, hi⟩ := (hregistered.clients_ne_none name).mp hclient
  obtain ⟨after, hstays, hearlier, hafter⟩ :=
    h.handlers lib hserver (Server.departing i)
      (by simp [Server.departing, ServerInstance.allows])
      (by simp [Server.departing, Run.Along, Server.RegistersApart])
  exact ⟨after, hstays, hearlier, _, hafter, hsettled.after_departing hi⟩

/-- A client may connect to it under a name that is not registered. -/
theorem StaysShown.connect [Infinite ι] (h : s.StaysShown lib) {server : ServerInstance ι α}
    (hserver : server ∈ s.displayed) (hsettled : server.server.Settled)
    (hregistered : server.server.Registered) (hfew : server.server.FewMade)
    (hopen : server.listening .control = true ∧ server.listening .data = true) {name : String}
    (hfree : server.server.clients name = none) :
    ∃ after : StartedServers ι α, after.StaysShown lib ∧ after.earlier = s.earlier ∧
      ∃ server' ∈ after.displayed, server'.server.Settled ∧
        server'.server.clients name ≠ none := by
  obtain ⟨i, hi⟩ := hfew.exists_notMem
  obtain ⟨hcontrol, hdata⟩ :
      server.server.control i = .accepted ∧ server.server.data i = .accepted := by
    simpa using hi
  -- The listeners accept a connection of each kind.
  let accepting : List (InstanceEvent ι α κ) := [.accept .control i, .accept .data i]
  obtain ⟨accepted, haccepting, haccepted⟩ : ∃ accepted : Listener → ι → Bool,
      accepting.foldl (ServerInstance.step lib) server = { server with accepted := accepted } ∧
        accepted .control i = true ∧ accepted .data i = true :=
    ⟨_, by simp only [accepting, List.foldl, ServerInstance.step, hopen, if_true]; rfl,
      by simp, by simp⟩
  obtain ⟨before, hbefore, hsame, hmem⟩ :=
    h.current lib hserver accepting ⟨trivial, trivial, trivial⟩
  rw [haccepting] at hmem
  obtain ⟨after, hstays, hearlier, hafter⟩ :=
    hbefore.handlers lib hmem (Server.connecting i name)
      (by simp [Server.connecting, ServerInstance.allows, haccepted])
      (hsettled.along_connecting hregistered hcontrol hdata hfree)
  exact ⟨after, hstays, hearlier.trans hsame, _, hafter,
    hsettled.after_connecting hcontrol hdata name⟩

/-! ## Every run -/

/-- A step in which clients register apart leaves the server started last sound. -/
theorem sound_step (h : ∀ server ∈ s.displayed, server.server.Sound)
    {event : LifecycleEvent ι α κ} (hapart : s.Apart event) :
    ∀ server ∈ (s.step lib event).displayed, server.server.Sound := by
  cases event with
  | startServer screenWidth screenHeight resolved =>
    intro server hserver
    obtain rfl := Option.some.inj hserver
    exact Server.sound_start.congr rfl rfl rfl rfl
  | stopServer =>
    intro server hserver
    cases hcurrent : s.current with
    | none => simp [step, displayed, hcurrent] at hserver
    | some before =>
      simp only [step, displayed, hcurrent, Option.map_some, Option.mem_def,
        Option.some.injEq] at hserver
      subst hserver
      have hbefore : (before.sharing s.connectedClients).server.Sound :=
        h _ (by rw [displayed, hcurrent]; rfl)
      exact hbefore.congr rfl rfl rfl rfl
  | current event =>
    intro server hserver
    rw [Option.mem_def, displayed_current, Option.map_eq_some_iff] at hserver
    obtain ⟨before, hbefore, rfl⟩ := hserver
    rcases before.server_step lib event with hsame | ⟨event, rfl, hstep⟩
    · rw [hsame]
      exact h before hbefore
    · rw [hstep]
      exact (h before hbefore).step (hapart before hbefore)
  | earlier n event =>
    intro server hserver
    rw [Option.mem_def, displayed_earlier, Option.map_eq_some_iff] at hserver
    obtain ⟨before, hbefore, rfl⟩ := hserver
    exact (h before hbefore).congr rfl rfl rfl rfl

/-- The server started last is sound, the window and the capture will be right once it is settled,
and no other server can report a client. -/
structure Silent (s : StartedServers ι α) : Prop where
  sound : ∀ server ∈ s.displayed, server.server.Sound
  announced : ∀ server ∈ s.displayed, server.server.Announced
  silent : ∀ server ∈ s.earlier, ¬ server.CanReport lib

/-- No step of a server spoils this, as long as clients register apart. -/
theorem Silent.step (h : s.Silent lib) {event : LifecycleEvent ι α κ} (hapart : s.Apart event)
    (hcommand : event.isCommand = false) : (s.step lib event).Silent lib := by
  cases event with
  | startServer screenWidth screenHeight resolved => exact absurd hcommand Bool.noConfusion
  | stopServer => exact absurd hcommand Bool.noConfusion
  | current event =>
    refine ⟨sound_step lib h.sound hapart, ?_, ?_⟩
    · intro server hserver
      rw [Option.mem_def, displayed_current, Option.map_eq_some_iff] at hserver
      obtain ⟨before, hbefore, rfl⟩ := hserver
      rcases before.server_step lib event with hsame | ⟨event, rfl, hstep⟩
      · rw [hsame]
        exact h.announced before hbefore
      · rw [hstep]
        exact (h.announced before hbefore).moves (before.server.moves_step event)
          ((h.sound before hbefore).separate.lastOfName event)
    · rw [earlier_current]
      exact h.silent
  | earlier n event =>
    cases hearlier : s.earlier[n]? with
    | none =>
      have hsame : s.step lib (.earlier n event) = s := by simp only [StartedServers.step, hearlier]
      rwa [hsame]
    | some earlier =>
      have hquiet : ¬ (earlier.sharing s.connectedClients).CanReport lib := fun hreport =>
        h.silent earlier (List.mem_of_getElem? hearlier) (hreport.congr lib rfl)
      have hnames := (earlier.sharing s.connectedClients).connectedClients_step lib
        (fun hreports => hquiet (Run.canReach_of_goal hreports)) event
      have hstep := s.step_earlier lib hearlier event
      have hdisplayed : (s.step lib (.earlier n event)).displayed = s.displayed := by
        rw [hstep, displayed, displayed, hnames]
        rfl
      refine ⟨sound_step lib h.sound hapart, by rw [hdisplayed]; exact h.announced, ?_⟩
      intro server hserver
      rw [hstep] at hserver
      rcases List.mem_or_eq_of_mem_set hserver with hserver | rfl
      · exact h.silent server hserver
      · exact fun hreport => hquiet (Run.canReach_of_run [event] (by simp) hreport)

/-- So the window stays right. -/
theorem Silent.staysShown (h : s.Silent lib) : s.StaysShown lib := by
  intro events hevents hapart server hserver hsettled
  have hcommands : Run.Along (StartedServers.step lib) (fun _ event => event.isCommand = false) s
      events := Run.along_of_forall (fun event hmem _ => hevents event hmem) s
  have hend : (events.foldl (StartedServers.step lib) s).Silent lib :=
    (hapart.and hcommands).invariant (Silent lib) (fun s event hok h => h.step lib hok.1 hok.2) h
  exact (hsettled.shown_iff_announced (hend.sound server hserver).registered).mpr
    (hend.announced server hserver)

/-- **Restarts.** In every state that is reached by clients that connect under names of their own,
and in which the server started last accepts connections and is settled, the list in the window
and the flag of the capture are right and stay so until the next command, if and only if they are
right now and no server started before can bring its event task to a client any more. -/
theorem staysShown_iff [Infinite ι] {events : List (LifecycleEvent ι α κ)}
    (hapart : Run.Along (step lib) Apart (start : StartedServers ι α) events)
    {server : ServerInstance ι α} (hserver : server ∈ (events.foldl (step lib) start).displayed)
    (hopen : server.listening .control = true ∧ server.listening .data = true)
    (hsettled : server.server.Settled) :
    (events.foldl (step lib) start).StaysShown lib ↔ server.server.Shown ∧
      ∀ earlier ∈ (events.foldl (step lib) start).earlier, ¬ earlier.CanReport lib := by
  set s := events.foldl (step lib) start
  have hsound : ∀ server ∈ s.displayed, server.server.Sound :=
    hapart.invariant (fun s => ∀ server ∈ s.displayed, server.server.Sound)
      (fun s event hok h => sound_step lib h hok)
      fun server hserver => by simp [displayed, start] at hserver
  have hregistered := (hsound server hserver).registered
  constructor
  · intro hstays
    refine ⟨hstays [] (by simp) trivial server hserver hsettled, fun earlier hmem hreport => ?_⟩
    obtain ⟨n, hn⟩ := List.mem_iff_getElem?.mp hmem
    obtain ⟨run, -, hreports⟩ := hreport
    -- The earlier server comes to a client.
    obtain ⟨names, other, hshared, hother, hblank⟩ := foldl_earlier lib hserver hn run
    obtain ⟨hlagged, name, rest, hqueue⟩ := hreports.congr hblank.symm
    have hstays : ((run.map (.earlier n)).foldl (step lib) s).StaysShown lib := by
      refine hstays.run lib (fun event hmem => ?_) (s.along_earlier lib n run)
      obtain ⟨event, -, rfl⟩ := List.mem_map.mp hmem
      rfl
    have hregistered : (server.sharing names).server.Registered := hregistered.congr rfl rfl rfl
    rcases hqueue with hqueue | hqueue
    · by_cases hclient : server.server.clients name = none
      · exact not_staysShown_of_report lib hshared hsettled hother hlagged hqueue
          (.inl ⟨rfl, hclient⟩) hstays
      · obtain ⟨after, hafter, hearlier, server', hserver', hsettled', hnone⟩ :=
          hstays.depart lib hshared hsettled hregistered hclient
        exact not_staysShown_of_report lib hserver' hsettled' (hearlier ▸ hother) hlagged hqueue
          (.inl ⟨rfl, hnone⟩) hafter
    · by_cases hclient : server.server.clients name = none
      · obtain ⟨after, hafter, hearlier, server', hserver', hsettled', hsome⟩ :=
          hstays.connect lib hshared hsettled hregistered (hsound server hserver).fewMade hopen
            hclient
        exact not_staysShown_of_report lib hserver' hsettled' (hearlier ▸ hother) hlagged hqueue
          (.inr ⟨rfl, hsome⟩) hafter
      · exact not_staysShown_of_report lib hshared hsettled hother hlagged hqueue
          (.inr ⟨rfl, hclient⟩) hstays
  · rintro ⟨hshown, hsilent⟩
    refine Silent.staysShown lib ⟨hsound, fun other hother => ?_, hsilent⟩
    obtain rfl := Option.some.inj (hserver.symm.trans hother)
    exact (hsettled.shown_iff_announced hregistered).mp hshown

/-- A client makes its two connections to the server started last. -/
def connection (i : ℕ) (name : String) : List (LifecycleEvent ℕ ℤ String) :=
  [.current (.accept .control i), .current (.accept .data i)] ++
    ((Server.connecting i name).map .handler).map .current

/-- A client is connected to a server that is stopped, and another server is started. -/
def restartedWithClient : List (LifecycleEvent ℕ ℤ String) :=
  [.startServer 100 100 true, .current (.bind true false)] ++ connection 0 "laptop" ++
    [.stopServer, .startServer 100 100 true, .current (.bind true false)]

/-- The window is right, and does not stay so. -/
theorem staysShown_iff_restartedWithClient :
    let s := restartedWithClient.foldl (step .constant) (start : StartedServers ℕ ℤ)
    (∃ server ∈ s.displayed, server.server.Shown) ∧
      ¬ s.StaysShown (.constant : KeyLib String) := by
  intro s
  have hsettled : (Server.start : Server ℕ).Settled := ⟨rfl, rfl, fun _ => rfl⟩
  have hapart : Run.Along (step .constant) Apart (start : StartedServers ℕ ℤ)
      restartedWithClient := by
    refine Run.along_append.mpr ⟨Run.along_append.mpr ⟨?_, Run.along_append.mpr ⟨?_, ?_⟩⟩, ?_⟩
    · exact ⟨trivial, fun _ _ => trivial, trivial⟩
    · exact ⟨fun _ _ => trivial, fun _ _ => trivial, trivial⟩
    · refine along_current .constant rfl (ServerInstance.along_handlers .constant ?_ ?_)
      · simp only [Server.connecting, List.forall_mem_cons]
        exact ⟨rfl, rfl, rfl, rfl, rfl, rfl, by simp⟩
      · exact hsettled.along_connecting Server.registered_start rfl rfl rfl
    · exact ⟨trivial, trivial, fun _ _ => trivial, trivial⟩
  obtain ⟨server, hserver, hlistening, hserverSettled, hshown⟩ :
      ∃ server ∈ s.displayed,
        (server.listening .control = true ∧ server.listening .data = true) ∧
          server.server.Settled ∧ server.server.Shown := by
    refine ⟨_, rfl, ⟨rfl, rfl⟩, ⟨rfl, rfl, fun _ => rfl⟩, fun name => ?_, ?_⟩
    · exact iff_of_false List.not_mem_nil fun hne => hne rfl
    · refine iff_of_false Bool.false_ne_true ?_
      rintro ⟨name, hne⟩
      exact hne rfl
  refine ⟨⟨server, hserver, hshown⟩, fun hstays => ?_⟩
  obtain ⟨-, hsilent⟩ :=
    (staysShown_iff .constant hapart hserver hlistening hserverSettled).mp hstays
  -- The handler of the client is still in its message loop.
  refine hsilent _ List.mem_cons_self ?_
  exact ServerInstance.canReport_of_heldName .constant (i := 0) rfl rfl

/-- The client connects again, its old connection ends, and another client comes and goes. -/
def captureForgets : List (LifecycleEvent ℕ ℤ String) :=
  restartedWithClient ++ connection 1 "laptop" ++
    (Server.departing 0).map (fun step => .earlier 0 (.handler step)) ++ connection 2 "tablet" ++
    (Server.departing 2).map (fun step => .current (.handler step))

/-- The capture takes it that there is no client, while one is registered. -/
example : ((captureForgets.foldl (step .constant) (start : StartedServers ℕ ℤ)).displayed.map
    fun server => (server.server.hasClient, (server.server.clients "laptop").isSome)) =
      some (false, true) := by
  decide +kernel

end StartedServers

end SuperShare
