import SuperShare.Network.Server
import Mathlib.Data.List.Find
import Mathlib.Data.Fintype.Basic

/-!
# The map of connected clients

Registration, cleanup and notification are keyed by the device name alone. When a handler
runs its cleanup while no other live handler stands under its name, the map holds the newest
live handler of every name and `has_client` follows it. A reconnection that overlaps the old
connection breaks both.
-/

namespace SuperShare

variable {ι : Type}

namespace Server

/-- The newest registration whose handler is live under a name. -/
def newestLive (s : Server ι) (name : String) : Option (ConnectedClient ι) :=
  s.registrations.find? fun client => (s.control client.controlTx).liveName = some name

/-- The names that a notification leaves in `connected_clients`. -/
def applyEvent (names : List String) : ServerEvent → List String
  | .clientConnected name => names ++ [name]
  | .clientDisconnected name => names.filter (· ≠ name)
  | .clientPaired _ => names

/-- The names in `connected_clients` once the waiting notifications are processed. -/
def expectedNames (s : Server ι) : List String :=
  s.notifications.foldl applyEvent s.connectedClients

/-- All emitted notifications have been processed, and every handler that changed the map has
emitted the notification of it. -/
def Settled (s : Server ι) : Prop :=
  s.notifications = [] ∧ s.lagged = false ∧ ∀ i, (s.control i).owesEvent = false

instance [Fintype ι] (s : Server ι) : Decidable s.Settled :=
  inferInstanceAs (Decidable (_ ∧ _ ∧ _))

/-- A handler removes its client, and announces it, only when it is the last one under its
name: no other is live at the removal, and none is in its message loop at the notification. -/
def LastOfName (s : Server ι) : ServerStep ι → Prop
  | .cleanup i => ∀ name ∈ (s.control i).leavingName,
      ∀ j, (s.control j).liveName = some name → j = i
  | .depart i => ∀ name ∈ (s.control i).removedName,
      ∀ j, (s.control j).announcedName ≠ some name
  | _ => True

instance [Fintype ι] [DecidableEq ι] (s : Server ι) : ∀ event, Decidable (s.LastOfName event)
  | .cleanup _ => inferInstanceAs (Decidable (∀ _ ∈ _, _))
  | .depart _ => inferInstanceAs (Decidable (∀ _ ∈ _, _))
  | .controlHandshake .. | .screenConfig .. | .poll _ | .announce _ | .controlMessage ..
  | .dataHandshake .. | .dataMessage .. | .paired _ | .processEvent => isTrue trivial

/-- The map follows the handlers: it holds the newest live one of each name. -/
structure Registered (s : Server ι) : Prop where
  past : ∀ client ∈ s.registrations, (s.control client.controlTx).hasRegistered = true
  listed : ∀ i name, (s.control i).liveName = some name →
    ∃ client ∈ s.registrations, client.controlTx = i
  clients : ∀ name, s.clients name = s.newestLive name

/-- `connected_clients` and `has_client` will follow the handlers once the notifications are
processed. -/
structure Announced (s : Server ι) : Prop where
  hasClient : s.hasClient = true ↔ s.connectedClients ≠ []
  expected : s.lagged = false → ∀ i name, (s.control i).announcedName = some name →
    name ∈ s.expectedNames
  announced : s.lagged = false → ∀ name ∈ s.expectedNames,
    ∃ i, (s.control i).announcedName = some name ∨ (s.control i).removedName = some name

variable {s s' : Server ι}

/-- The server starts with nobody connected. -/
theorem registered_start : Registered (start : Server ι) where
  past := by simp [start]
  listed := by simp [start, ControlPhase.liveName]
  clients := by simp [start, newestLive]

/-- Only the handlers, the map and its history matter. -/
theorem Registered.congr (h : Registered s) (hcontrol : s'.control = s.control)
    (hregistrations : s'.registrations = s.registrations) (hclients : s'.clients = s.clients) :
    Registered s' := by
  constructor
  · rw [hcontrol, hregistrations]
    exact h.past
  · rw [hcontrol, hregistrations]
    exact h.listed
  · intro name
    rw [newestLive, hclients, hcontrol, hregistrations]
    exact h.clients name

/-- Only the handlers and the fields of the event task matter. -/
theorem Announced.congr (h : Announced s) (hcontrol : s'.control = s.control)
    (hnotifications : s'.notifications = s.notifications) (hlagged : s'.lagged = s.lagged)
    (hconnected : s'.connectedClients = s.connectedClients)
    (hflag : s'.hasClient = s.hasClient) : Announced s' := by
  constructor
  · rw [hflag, hconnected]
    exact h.hasClient
  · rw [hlagged, hcontrol, expectedNames, hnotifications, hconnected]
    exact h.expected
  · rw [hlagged, hcontrol, expectedNames, hnotifications, hconnected]
    exact h.announced

/-- A notification that is sent while the event task keeps up is applied after the others. -/
theorem expectedNames_notify {event : ServerEvent} (h : (s.notify event).lagged = false) :
    s.lagged = false ∧ (s.notify event).expectedNames = applyEvent s.expectedNames event := by
  unfold notify at h ⊢
  split at h
  · refine ⟨h, ?_⟩
    rename_i hcap
    rw [if_pos hcap]
    simp [expectedNames, List.foldl_append]
  · exact absurd h (by simp)

/-- Sending a notification does not touch what the event task has done. -/
theorem notify_hasClient (s : Server ι) (event : ServerEvent) :
    (s.notify event).hasClient = s.hasClient ∧
      (s.notify event).connectedClients = s.connectedClients := by
  unfold notify
  split <;> exact ⟨rfl, rfl⟩

/-- Other notifications do not concern the list. -/
theorem Announced.paired (h : Announced s) (name : String) :
    Announced (s.notify (.clientPaired name)) := by
  constructor
  · have hsame := s.notify_hasClient (.clientPaired name)
    rw [hsame.1, hsame.2]
    exact h.hasClient
  · intro hlagged j other hj
    obtain ⟨hlagged, hexpected⟩ := expectedNames_notify hlagged
    rw [notify_control] at hj
    rw [hexpected]
    exact h.expected hlagged j other hj
  · intro hlagged other hother
    obtain ⟨hlagged, hexpected⟩ := expectedNames_notify hlagged
    rw [hexpected] at hother
    rw [notify_control]
    exact h.announced hlagged other hother

/-- The event task does what was expected of it, and keeps the flag with the list. -/
theorem Announced.process (h : Announced s) {event : ServerEvent} {rest : List ServerEvent}
    (hqueue : s.notifications = event :: rest) :
    Announced ({ s with notifications := rest }.handleEvent event) := by
  have hexpected : ({ s with notifications := rest }.handleEvent event).expectedNames =
      s.expectedNames := by
    rw [expectedNames, expectedNames, hqueue]
    cases event <;> rfl
  have hlagged : ({ s with notifications := rest }.handleEvent event).lagged = s.lagged := by
    cases event <;> rfl
  constructor
  · cases event with
    | clientConnected name => simp [handleEvent]
    | clientDisconnected name =>
      simp only [handleEvent]
      by_cases hleft : (s.connectedClients.filter (· ≠ name)).isEmpty = true
      · simp only [hleft, if_true]
        simpa using hleft
      · have hsome : s.connectedClients ≠ [] := by
          rintro hnil
          simp [hnil] at hleft
        rw [if_neg hleft]
        exact iff_of_true (h.hasClient.mpr hsome) (by simpa using hleft)
    | clientPaired name => exact h.hasClient
  · rw [hlagged, hexpected, handleEvent_control]
    exact h.expected
  · rw [hlagged, hexpected, handleEvent_control]
    exact h.announced

/-- There is an entry exactly for the names of live handlers. -/
theorem Registered.clients_ne_none (h : Registered s) (name : String) :
    s.clients name ≠ none ↔ ∃ i, (s.control i).liveName = some name := by
  rw [h.clients name, newestLive, ne_eq, List.find?_eq_none]
  constructor
  · intro hfound
    by_contra hnone
    push Not at hnone
    exact hfound fun client _ hclient => hnone client.controlTx (of_decide_eq_true hclient)
  · rintro ⟨i, hi⟩ hnone
    obtain ⟨client, hclient, rfl⟩ := h.listed i name hi
    exact hnone client hclient (decide_eq_true hi)

/-- In a settled state the flag says whether anybody is connected. -/
theorem Settled.hasClient (hsettled : Settled s) (hreg : Registered s) (hann : Announced s) :
    s.hasClient = true ↔ ∃ name, s.clients name ≠ none := by
  obtain ⟨hempty, hlagged, howes⟩ := hsettled
  have hnames : s.expectedNames = s.connectedClients := by
    rw [expectedNames, hempty]
    rfl
  -- Between its registration and its cleanup a handler of a settled state is announced.
  have hlive : ∀ i name, (s.control i).liveName = some name ↔
      (s.control i).announcedName = some name := by
    intro i name
    have hphase := howes i
    cases h : s.control i <;> rw [h] at hphase <;> first
      | exact Iff.rfl
      | exact absurd hphase (by simp [ControlPhase.owesEvent])
  have hremoved : ∀ i, (s.control i).removedName = none := by
    intro i
    have hphase := howes i
    cases h : s.control i <;> rw [h] at hphase <;> first
      | rfl
      | exact absurd hphase (by simp [ControlPhase.owesEvent])
  rw [hann.hasClient, ← hnames]
  constructor
  · intro hne
    obtain ⟨name, hname⟩ := List.exists_mem_of_ne_nil _ hne
    obtain ⟨i, hi | hi⟩ := hann.announced hlagged name hname
    · exact ⟨name, (hreg.clients_ne_none name).mpr ⟨i, (hlive i name).mpr hi⟩⟩
    · rw [hremoved i] at hi
      exact absurd hi (by simp)
  · rintro ⟨name, hname⟩
    obtain ⟨i, hi⟩ := (hreg.clients_ne_none name).mp hname
    exact List.ne_nil_of_mem (hann.expected hlagged i name ((hlive i name).mp hi))

variable [DecidableEq ι]

/-- A handler may move as long as it stays live under its name, or not live. -/
theorem Registered.setControl (h : Registered s) {i : ι} {phase : ControlPhase}
    (hlive : phase.liveName = (s.control i).liveName)
    (hreg : phase.hasRegistered = (s.control i).hasRegistered) :
    Registered (s.setControl i phase) := by
  have hname : ∀ j, (Function.update s.control i phase j).liveName = (s.control j).liveName := by
    intro j
    by_cases hj : j = i
    · rw [hj, Function.update_self, hlive]
    · rw [Function.update_of_ne hj]
  have hpast : ∀ j, (Function.update s.control i phase j).hasRegistered =
      (s.control j).hasRegistered := by
    intro j
    by_cases hj : j = i
    · rw [hj, Function.update_self, hreg]
    · rw [Function.update_of_ne hj]
  constructor
  · intro client hclient
    rw [setControl_control, hpast]
    exact h.past client hclient
  · intro j name hj
    rw [setControl_control, hname] at hj
    exact h.listed j name hj
  · intro name
    simp only [newestLive, setControl_control, hname]
    exact h.clients name

/-- A client that registers becomes the newest of its name. -/
theorem Registered.register (h : Registered s) {i dataTx : ι} {attempts : ℕ} {hello : Hello}
    (hphase : s.control i = .waiting hello attempts) : Registered (s.register i hello dataTx) := by
  have hother : ∀ client ∈ s.registrations, client.controlTx ≠ i := by
    intro client hclient hi
    have hpast := h.past client hclient
    rw [hi, hphase] at hpast
    exact absurd hpast (by simp [ControlPhase.hasRegistered])
  constructor
  · intro client hclient
    rw [register_control]
    rcases List.mem_cons.mp hclient with rfl | hclient
    · rw [Function.update_self]
      rfl
    · rw [Function.update_of_ne (hother client hclient)]
      exact h.past client hclient
  · intro j name hj
    by_cases hji : j = i
    · exact ⟨_, List.mem_cons_self, hji.symm⟩
    · rw [register_control, Function.update_of_ne hji] at hj
      obtain ⟨client, hclient, htx⟩ := h.listed j name hj
      exact ⟨client, List.mem_cons_of_mem _ hclient, htx⟩
  · intro name
    have hrest : s.registrations.find? (fun client => decide
        ((Function.update s.control i (.registered hello.name) client.controlTx).liveName =
          some name)) = s.newestLive name := by
      refine List.find?_congr fun client hclient => ?_
      rw [Function.update_of_ne (hother client hclient)]
    rw [newestLive, register_registrations, register_control, List.find?_cons,
      Function.update_self]
    by_cases hname : name = hello.name
    · subst hname
      simp [Server.register, ControlPhase.liveName]
    · have hhead : ¬ (ControlPhase.registered hello.name).liveName = some name := by
        simpa [ControlPhase.liveName, eq_comm] using hname
      rw [decide_eq_false hhead]
      simp only [hrest, Server.register, Function.update_of_ne hname]
      exact h.clients name

/-- The cleanup of the last live handler of a name leaves no entry and no live handler. -/
theorem Registered.cleanup (h : Registered s) {i : ι} {name : String}
    (hphase : s.control i = .leaving name)
    (halone : ∀ j, (s.control j).liveName = some name → j = i) :
    Registered { s.setControl i (.removed name) with
      clients := Function.update s.clients name none } := by
  have hlive : ∀ j other, (Function.update s.control i (.removed name) j).liveName = some other ↔
      (s.control j).liveName = some other ∧ other ≠ name := by
    intro j other
    by_cases hj : j = i
    · subst hj
      simp [hphase, ControlPhase.liveName, eq_comm]
    · rw [Function.update_of_ne hj]
      refine ⟨fun hother => ⟨hother, ?_⟩, And.left⟩
      rintro rfl
      exact hj (halone j hother)
  constructor
  · intro client hclient
    by_cases hi : client.controlTx = i
    · simp [hi, ControlPhase.hasRegistered]
    · simpa [Function.update_of_ne hi] using h.past client hclient
  · intro j other hj
    exact h.listed j other ((hlive j other).mp hj).1
  · intro other
    by_cases hother : other = name
    · subst hother
      simp only [newestLive, setControl_control, hlive, ne_eq, not_true_eq_false, and_false,
        decide_false, Function.update_self]
      exact (List.find?_eq_none.mpr fun _ _ => Bool.false_ne_true).symm
    · simp only [newestLive, setControl_control, hlive, ne_eq, hother, not_false_eq_true,
        and_true, Function.update_of_ne hother]
      exact h.clients other

/-- A move in which a handler that cleans up is the last of its name keeps the map right. -/
theorem Registered.moves (h : Registered s) {event : ServerStep ι} (hmove : s.Moves event s')
    (hlast : LastOfName s event) : Registered s' := by
  cases hmove with
  | stay => exact h
  | early hfrom hto _ =>
    refine h.setControl ?_ (hto.trans hfrom.symm)
    rw [ControlPhase.liveName_eq_none hfrom, ControlPhase.liveName_eq_none hto]
  | register hphase _ => exact h.register hphase
  | announce hphase =>
    refine (h.congr (s.notify_control _) (s.notify_registrations _)
      (s.notify_clients _)).setControl ?_ ?_ <;> rw [notify_control, hphase] <;> rfl
  | leave hphase => exact h.setControl (by rw [hphase]; rfl) (by rw [hphase]; rfl)
  | cleanup hphase => exact h.cleanup hphase (hlast _ (by rw [hphase]; rfl))
  | depart hphase =>
    refine (h.congr (s.notify_control _) (s.notify_registrations _)
      (s.notify_clients _)).setControl ?_ ?_ <;> rw [notify_control, hphase] <;> rfl
  | dataHandshake _ _ => exact h.congr rfl rfl rfl
  | dataClose => exact h.congr rfl rfl rfl
  | forward _ => exact h.congr rfl rfl rfl
  | paired name =>
    exact h.congr (s.notify_control _) (s.notify_registrations _) (s.notify_clients _)
  | process _ _ =>
    exact h.congr (handleEvent_control _ _) (handleEvent_registrations _ _)
      (handleEvent_clients _ _)

/-- A handler may move as long as its announcement stands. -/
theorem Announced.setControl (h : Announced s) {i : ι} {phase : ControlPhase}
    (hname : phase.announcedName = (s.control i).announcedName)
    (hremoved : (s.control i).removedName = none) : Announced (s.setControl i phase) := by
  have hsame : ∀ j, (Function.update s.control i phase j).announcedName =
      (s.control j).announcedName := by
    intro j
    by_cases hj : j = i
    · rw [hj, Function.update_self, hname]
    · rw [Function.update_of_ne hj]
  refine ⟨h.hasClient, ?_, ?_⟩
  · intro hlagged j name hj
    rw [setControl_control, hsame] at hj
    exact h.expected hlagged j name hj
  · intro hlagged name hname
    obtain ⟨j, hj⟩ := h.announced hlagged name hname
    refine ⟨j, ?_⟩
    rw [setControl_control, hsame]
    refine hj.imp_right fun hphase => ?_
    have hji : j ≠ i := by
      rintro rfl
      rw [hremoved] at hphase
      exact absurd hphase (by simp)
    rw [Function.update_of_ne hji, hphase]

/-- A handler that announces its client will be listed. -/
theorem Announced.announce (h : Announced s) {i : ι} {name : String}
    (hphase : s.control i = .registered name) :
    Announced ((s.notify (.clientConnected name)).setControl i (.connected name)) := by
  constructor
  · have hsame := s.notify_hasClient (.clientConnected name)
    simp only [Server.setControl, hsame.1, hsame.2]
    exact h.hasClient
  · intro hlagged j other hj
    obtain ⟨hlagged, hexpected⟩ := expectedNames_notify hlagged
    change other ∈ (s.notify (.clientConnected name)).expectedNames
    rw [hexpected, applyEvent, List.mem_append, List.mem_singleton]
    rw [setControl_control, notify_control] at hj
    by_cases hji : j = i
    · rw [hji, Function.update_self] at hj
      exact .inr (Option.some.inj hj).symm
    · rw [Function.update_of_ne hji] at hj
      exact .inl (h.expected hlagged j other hj)
  · intro hlagged other hother
    obtain ⟨hlagged, hexpected⟩ := expectedNames_notify hlagged
    change other ∈ (s.notify (.clientConnected name)).expectedNames at hother
    rw [hexpected, applyEvent, List.mem_append, List.mem_singleton] at hother
    rw [setControl_control, notify_control]
    rcases hother with hother | rfl
    · obtain ⟨j, hj⟩ := h.announced hlagged other hother
      have hji : j ≠ i := by
        rintro rfl
        rw [hphase] at hj
        simp [ControlPhase.announcedName, ControlPhase.removedName] at hj
      exact ⟨j, by rwa [Function.update_of_ne hji]⟩
    · exact ⟨i, .inl (by rw [Function.update_self]; rfl)⟩

/-- A handler that has removed its client is still listed until it says so. -/
theorem Announced.cleanup (h : Announced s) {i : ι} {name : String}
    (hphase : s.control i = .leaving name) :
    Announced { s.setControl i (.removed name) with
      clients := Function.update s.clients name none } := by
  refine ⟨h.hasClient, ?_, ?_⟩
  · intro hlagged j other hj
    by_cases hji : j = i
    · simp [hji, ControlPhase.announcedName] at hj
    · simp only [setControl_control, Function.update_of_ne hji] at hj
      exact h.expected hlagged j other hj
  · intro hlagged other hother
    obtain ⟨j, hj⟩ := h.announced hlagged other hother
    refine ⟨j, ?_⟩
    by_cases hji : j = i
    · rw [hji, hphase] at hj
      simpa [hji, ControlPhase.announcedName, ControlPhase.removedName] using hj
    · simpa only [setControl_control, Function.update_of_ne hji] using hj

/-- A handler that leaves last takes its name off the list. -/
theorem Announced.depart (h : Announced s) {i : ι} {name : String}
    (hphase : s.control i = .removed name) (halone : ∀ j, (s.control j).announcedName ≠ some name) :
    Announced ((s.notify (.clientDisconnected name)).setControl i .closed) := by
  constructor
  · have hsame := s.notify_hasClient (.clientDisconnected name)
    simp only [Server.setControl, hsame.1, hsame.2]
    exact h.hasClient
  · intro hlagged j other hj
    obtain ⟨hlagged, hexpected⟩ := expectedNames_notify hlagged
    change other ∈ (s.notify (.clientDisconnected name)).expectedNames
    rw [setControl_control, notify_control] at hj
    by_cases hji : j = i
    · rw [hji, Function.update_self] at hj
      simp [ControlPhase.announcedName] at hj
    · rw [Function.update_of_ne hji] at hj
      have hne : other ≠ name := by
        rintro rfl
        exact halone j hj
      rw [hexpected, applyEvent, List.mem_filter]
      exact ⟨h.expected hlagged j other hj, by simpa using hne⟩
  · intro hlagged other hother
    obtain ⟨hlagged, hexpected⟩ := expectedNames_notify hlagged
    change other ∈ (s.notify (.clientDisconnected name)).expectedNames at hother
    rw [hexpected, applyEvent, List.mem_filter] at hother
    have hne : other ≠ name := by simpa using hother.2
    obtain ⟨j, hj⟩ := h.announced hlagged other hother.1
    have hji : j ≠ i := by
      rintro rfl
      rw [hphase] at hj
      rcases hj with hj | hj
      · simp [ControlPhase.announcedName] at hj
      · exact hne (Option.some.inj hj).symm
    refine ⟨j, ?_⟩
    rwa [setControl_control, notify_control, Function.update_of_ne hji]

/-- A move in which a handler that leaves is the last of its name keeps the list right. -/
theorem Announced.moves (h : Announced s) {event : ServerStep ι} (hmove : s.Moves event s')
    (hlast : LastOfName s event) : Announced s' := by
  cases hmove with
  | stay => exact h
  | early hfrom hto _ =>
    have hannounced : ∀ {p : ControlPhase}, p.hasRegistered = false → p.announcedName = none := by
      intro p hp
      cases p <;> first | rfl | exact absurd hp (by simp [ControlPhase.hasRegistered])
    have hremoved : ∀ {p : ControlPhase}, p.hasRegistered = false → p.removedName = none := by
      intro p hp
      cases p <;> first | rfl | exact absurd hp (by simp [ControlPhase.hasRegistered])
    exact h.setControl (by rw [hannounced hfrom, hannounced hto]) (hremoved hfrom)
  | @register i _ _ hello hphase _ =>
    have hmoved : Announced (s.setControl i (.registered hello.name)) :=
      h.setControl (by rw [hphase]; rfl) (by rw [hphase]; rfl)
    exact hmoved.congr rfl rfl rfl rfl rfl
  | announce hphase => exact h.announce hphase
  | leave hphase => exact h.setControl (by rw [hphase]; rfl) (by rw [hphase]; rfl)
  | cleanup hphase => exact h.cleanup hphase
  | depart hphase => exact h.depart hphase (hlast _ (by rw [hphase]; rfl))
  | dataHandshake _ _ => exact h.congr rfl rfl rfl rfl rfl
  | dataClose => exact h.congr rfl rfl rfl rfl rfl
  | forward _ => exact h.congr rfl rfl rfl rfl rfl
  | paired name => exact h.paired name
  | process _ hqueue => exact h.process hqueue

end Server

end SuperShare
