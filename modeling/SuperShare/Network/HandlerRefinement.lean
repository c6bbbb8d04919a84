import SuperShare.Network.LockService

/-!
# The locks keep the handlers' sections whole

The handlers are first modelled with sections that nothing interrupts: a registration takes the
data channel from `pending_data` and stores the client at once. With the locks it waits between
the two. Since it keeps `pending_data` meanwhile, nobody sees the difference: every run with the
locks is a run of the handlers, and what holds of all runs of the handlers holds of the running
server.
-/

namespace SuperShare

variable {ι μ : Type}

/-- Where a control handler with locks stands among the sections of the handlers. -/
def ControlTask.Refines : ControlTask ι → ControlPhase → Prop
  | accepted, phase => phase = .accepted
  | awaitingPending hello attempts, phase => phase = .waiting hello attempts
  | sleeping hello attempts, phase => phase = .waiting hello attempts
  | awaitingClients hello _, phase => ∃ attempts, phase = .waiting hello attempts
  | connected name, phase => phase = .connected name
  | leaving name, phase => phase = .leaving name
  | closed, phase => phase = .closed
  | gaveUp, phase => phase = .gaveUp

/-- Where a data handler with locks stands among the sections of the handlers. -/
def DataTask.phase : DataTask → DataPhase
  | accepted | awaitingPending _ => .accepted
  | reading name => .reading name
  | closed => .closed

namespace Forwarding

/-- The handlers stand in the same sections over the same maps, except that a registration that
waits for the clients has taken its data channel already. -/
structure Refines (s : Forwarding ι μ) (t : Server ι) : Prop where
  control : ∀ i, (s.control i).Refines (t.control i)
  data : ∀ i, t.data i = (s.data i).phase
  held : ∀ i hello dataTx, s.control i = .awaitingClients hello dataTx →
    t.pendingData hello.name = some dataTx ∧ s.pendingData hello.name = none
  pending : ∀ name, (∀ i hello dataTx, s.control i = .awaitingClients hello dataTx →
    hello.name ≠ name) → t.pendingData name = s.pendingData name
  clients : ∀ name, t.clients name = s.clients.find? fun client => client.name = name

/-- A registration waits for the clients. -/
def Registering (s : Forwarding ι μ) (i : ι) : Prop :=
  ∃ hello dataTx, s.control i = .awaitingClients hello dataTx

/-- A handler that stands elsewhere does not register. -/
theorem not_registering_of_eq {s : Forwarding ι μ} {i : ι} {task : ControlTask ι}
    (hcontrol : s.control i = task) (htask : ∀ hello dataTx, task ≠ .awaitingClients hello dataTx) :
    ¬ s.Registering i := by
  rintro ⟨hello, dataTx, hregistering⟩
  exact htask hello dataTx (hcontrol.symm.trans hregistering)

/-- What keeps the handlers and the maps keeps the refinement. -/
theorem Refines.congr {s s' : Forwarding ι μ} {t : Server ι} (h : s.Refines t)
    (hcontrol : s'.control = s.control) (hdata : s'.data = s.data)
    (hpending : s'.pendingData = s.pendingData) (hclients : s'.clients = s.clients) :
    s'.Refines t := by
  constructor
  · rw [hcontrol]
    exact h.control
  · rw [hdata]
    exact h.data
  · rw [hcontrol, hpending]
    exact h.held
  · rw [hcontrol, hpending]
    exact h.pending
  · rw [hclients]
    exact h.clients

/-- What keeps the handlers and the maps of the server keeps the refinement. -/
theorem Refines.congr_server {s : Forwarding ι μ} {t t' : Server ι} (h : s.Refines t)
    (hcontrol : t'.control = t.control) (hdata : t'.data = t.data)
    (hpending : t'.pendingData = t.pendingData) (hclients : t'.clients = t.clients) :
    s.Refines t' := by
  constructor
  · rw [hcontrol]
    exact h.control
  · rw [hdata]
    exact h.data
  · rw [hpending]
    exact h.held
  · rw [hpending]
    exact h.pending
  · rw [hclients]
    exact h.clients

/-- While nobody registers, the maps of pending channels agree. -/
theorem Refines.pending_eq {s : Forwarding ι μ} {t : Server ι} (h : s.Refines t)
    (hnone : ∀ i, ¬ s.Registering i) (name : String) : t.pendingData name = s.pendingData name :=
  h.pending name fun i hello dataTx hcontrol => absurd ⟨hello, dataTx, hcontrol⟩ (hnone i)

/-- A handler of which the task is known stands where its counterpart does. -/
theorem Refines.task {s : Forwarding ι μ} {t : Server ι} (h : s.Refines t) {i : ι}
    {task : ControlTask ι} (hcontrol : s.control i = task) : task.Refines (t.control i) := by
  rw [← hcontrol]
  exact h.control i

/-- Taking a job is no step of the handlers. -/
theorem Refines.take {s s' : Forwarding ι μ} {t : Server ι} (h : s.Refines t) {f : Forwarder}
    {isRemote : Bool} (htake : s.take f isRemote = some s') : s'.Refines t := by
  unfold Forwarding.take at htake
  split at htake
  · split at htake
    · exact absurd htake (by simp)
    · rename_i hjob
      obtain rfl := Option.some.inj htake
      rw [nextJob_frame hjob]
      exact h.congr rfl rfl rfl rfl
    · rename_i hjob
      obtain rfl := Option.some.inj htake
      rw [nextJob_frame hjob]
      exact h.congr rfl rfl rfl rfl
  · exact absurd htake (by simp)

/-- The handlers stand at the start when the listeners start. -/
theorem refines_start : (start : Forwarding ι μ).Refines (.start : Server ι) := by
  constructor
  · intro i
    rfl
  · intro i
    rfl
  · intro i hello dataTx hcontrol
    exact absurd hcontrol (by simp [start])
  · intro name _
    rfl
  · intro name
    rfl

/-- The client with a name is the one stored last, or else the one that was there. -/
theorem find?_insert (clients : List (ConnectedClient ι)) (client : ConnectedClient ι)
    (name : String) :
    (client :: clients.filter (·.name ≠ client.name)).find? (fun c => c.name = name) =
      Function.update (fun name => clients.find? fun c => c.name = name) client.name
        (some client) name := by
  by_cases hname : name = client.name
  · simp [hname]
  · rw [Function.update_of_ne hname, List.find?_cons_of_neg (by simpa using Ne.symm hname),
      List.find?_filter]
    congr 1
    funext c
    by_cases hc : c.name = name <;> simp [hc, hname]

/-- No client with a name is left when it has been removed. -/
theorem find?_remove (clients : List (ConnectedClient ι)) (removed name : String) :
    (clients.filter (·.name ≠ removed)).find? (fun c => c.name = name) =
      Function.update (fun name => clients.find? fun c => c.name = name) removed none name := by
  rw [List.find?_filter]
  by_cases hname : name = removed
  · subst hname
    simp
  · rw [Function.update_of_ne hname]
    congr 1
    funext c
    by_cases hc : c.name = name <;> simp [hc, hname]

variable [DecidableEq ι] {s s' : Forwarding ι μ} {t : Server ι}

/-- While a task is let in at `pending_data`, nobody registers. -/
theorem Accounted.not_registering (h : s.Accounted) {task : LockTask ι} {a : Access}
    {lock : RwLock (LockTask ι)} (hgrant : s.pendingLock.grant = some ((task, a), lock)) (i : ι) :
    ¬ s.Registering i := by
  rintro ⟨hello, dataTx, hcontrol⟩
  exact h.pendingLock.not_writing hgrant (.control i) (locks_of_control hcontrol).2.2

/-- One handler registers at a time. -/
theorem Accounted.registering_unique (h : s.Accounted) {i j : ι} (hi : s.Registering i)
    (hj : s.Registering j) : j = i := by
  obtain ⟨hello, dataTx, hi⟩ := hi
  obtain ⟨hello', dataTx', hj⟩ := hj
  have hheld : s.holdsPending (.control j) ≠ none := by
    rw [(locks_of_control hj).2.2]
    simp [ControlTask.holdsPending]
  exact LockTask.control.inj (h.pendingLock.exclusive (locks_of_control hi).2.2 hheld)

/-- A handler that moves with its counterpart, and registers neither before nor after. -/
theorem Refines.setControl (h : s.Refines t) {i : ι} {task : ControlTask ι} {phase : ControlPhase}
    (htask : task.Refines phase) (hbefore : ¬ s.Registering i)
    (hafter : ∀ hello dataTx, task ≠ .awaitingClients hello dataTx) :
    (s.setControl i task).Refines (t.setControl i phase) := by
  have hsame : ∀ {j hello dataTx}, (s.setControl i task).control j =
      .awaitingClients hello dataTx ↔ s.control j = .awaitingClients hello dataTx := by
    intro j hello dataTx
    by_cases hj : j = i
    · subst hj
      rw [setControl_control, Function.update_self]
      constructor
      · intro htask
        exact absurd htask (hafter hello dataTx)
      · intro hcontrol
        exact absurd ⟨hello, dataTx, hcontrol⟩ hbefore
    · rw [setControl_control, Function.update_of_ne hj]
  constructor
  · intro j
    by_cases hj : j = i
    · subst hj
      simpa using htask
    · simpa [Function.update_of_ne hj] using h.control j
  · exact h.data
  · intro j hello dataTx hcontrol
    exact h.held j hello dataTx (hsame.mp hcontrol)
  · intro name hfree
    exact h.pending name fun j hello dataTx hcontrol => hfree j hello dataTx (hsame.mpr hcontrol)
  · exact h.clients

/-- A data handler that moves with its counterpart. -/
theorem Refines.setData (h : s.Refines t) (i : ι) (task : DataTask) :
    (s.setData i task).Refines { t with data := Function.update t.data i task.phase } := by
  refine ⟨h.control, ?_, h.held, h.pending, h.clients⟩
  intro j
  by_cases hj : j = i
  · simp [Forwarding.setData, hj]
  · simpa [Forwarding.setData, hj] using h.data j

/-- The handshake and the `ScreenConfig` of a control connection. -/
theorem steps_handshake {i : ι} (hphase : t.control i = .accepted) (hello : Hello) :
    [.controlHandshake i (some (.handshake 1 hello.name hello.screenWidth hello.screenHeight)),
      .screenConfig i true].foldl Server.step t = t.setControl i (.waiting hello 0) := by
  simp [Server.step, hphase, Hello.ofControl, Server.setControl]

/-- A registration and its announcement. -/
theorem steps_register {i dataTx : ι} {hello : Hello} {attempts : ℕ}
    (hphase : t.control i = .waiting hello attempts)
    (hpending : t.pendingData hello.name = some dataTx) :
    [.poll i, .announce i].foldl Server.step t =
      ((t.register i hello dataTx).notify (.clientConnected hello.name)).setControl i
        (.connected hello.name) := by
  simp [Server.step, hphase, Server.pollPending, hpending, Server.register]

/-- A cleanup and its announcement. -/
theorem steps_cleanup {i : ι} {name : String} (hphase : t.control i = .leaving name) :
    [.cleanup i, .depart i].foldl Server.step t =
      (Server.notify { t.setControl i (.removed name) with
        clients := Function.update t.clients name none } (.clientDisconnected name)).setControl i
          .closed := by
  simp [Server.step, hphase, Server.setControl]

/-- A registration that is let in at `pending_data` takes its data channel, and its counterpart
has not looked yet. -/
theorem Refines.takePending (h : s.Refines t) (hnone : ∀ i, ¬ s.Registering i) {i dataTx : ι}
    {hello : Hello} {attempts : ℕ} (hcontrol : s.control i = .awaitingPending hello attempts)
    (hpending : s.pendingData hello.name = some dataTx) :
    ({ s with pendingData := Function.update s.pendingData hello.name none }.setControl i
      (.awaitingClients hello dataTx)).Refines t := by
  have hphase : t.control i = .waiting hello attempts := h.task hcontrol
  have honly : ∀ {j hello' dataTx'}, Function.update s.control i (.awaitingClients hello dataTx) j =
      .awaitingClients hello' dataTx' → hello' = hello ∧ dataTx' = dataTx := by
    intro j hello' dataTx' hj
    by_cases hji : j = i
    · rw [hji, Function.update_self] at hj
      obtain ⟨rfl, rfl⟩ := ControlTask.awaitingClients.inj hj
      exact ⟨rfl, rfl⟩
    · rw [Function.update_of_ne hji] at hj
      exact absurd ⟨hello', dataTx', hj⟩ (hnone j)
  constructor
  · intro j
    by_cases hj : j = i
    · subst hj
      rw [setControl_control, Function.update_self]
      exact ⟨attempts, hphase⟩
    · rw [setControl_control, Function.update_of_ne hj]
      exact h.control j
  · exact h.data
  · intro j hello' dataTx' hj
    obtain ⟨rfl, rfl⟩ := honly hj
    exact ⟨(h.pending_eq hnone _).trans hpending, Function.update_self ..⟩
  · intro name hfree
    have hne : name ≠ hello.name := by
      rintro rfl
      exact hfree i hello dataTx (Function.update_self ..) rfl
    exact (h.pending_eq hnone name).trans (Function.update_of_ne hne ..).symm
  · exact h.clients

/-- A data handler registers its channel. -/
theorem Refines.dataHandshake (h : s.Refines t) (hnone : ∀ i, ¬ s.Registering i) {i : ι}
    (name : String) :
    ({ s with pendingData := Function.update s.pendingData name (some i) }.setData i
      (.reading name)).Refines
        { t with
          data := Function.update t.data i (.reading name)
          pendingData := Function.update t.pendingData name (some i) } := by
  have hregistered : ({ s with pendingData := Function.update s.pendingData name (some i) } :
      Forwarding ι μ).Refines
        { t with pendingData := Function.update t.pendingData name (some i) } := by
    refine ⟨h.control, h.data, ?_, ?_, h.clients⟩
    · intro j hello dataTx hcontrol
      exact absurd ⟨hello, dataTx, hcontrol⟩ (hnone j)
    · intro name' _
      by_cases hname : name' = name
      · simp [hname]
      · simpa [hname] using h.pending_eq hnone name'
  exact hregistered.setData i (.reading name)

/-- A registration that is let in at the clients stores its client. -/
theorem Refines.register (h : s.Refines t) (haccounted : s.Accounted) {i dataTx : ι}
    {hello : Hello} (hcontrol : s.control i = .awaitingClients hello dataTx) :
    (s.register i hello dataTx).Refines
      (((t.register i hello dataTx).notify (.clientConnected hello.name)).setControl i
        (.connected hello.name)) := by
  have hregistering : s.Registering i := ⟨hello, dataTx, hcontrol⟩
  have hnone : ∀ j hello' dataTx', (s.register i hello dataTx).control j ≠
      .awaitingClients hello' dataTx' := by
    intro j hello' dataTx' hj
    by_cases hji : j = i
    · subst hji
      rw [Forwarding.register, setControl_control, Function.update_self] at hj
      exact absurd hj (by simp)
    · rw [Forwarding.register, setControl_control, Function.update_of_ne hji] at hj
      exact hji (haccounted.registering_unique hregistering ⟨hello', dataTx', hj⟩)
  constructor
  · intro j
    by_cases hj : j = i
    · simp [Forwarding.register, hj, ControlTask.Refines]
    · simpa [Forwarding.register, hj] using h.control j
  · intro j
    simpa [Server.setControl, Server.register, Forwarding.register, Forwarding.setControl] using
      h.data j
  · intro j hello' dataTx' hj
    exact absurd hj (hnone j hello' dataTx')
  · intro name _
    by_cases hname : name = hello.name
    · subst hname
      simp [Server.setControl, Server.register, Forwarding.register, Forwarding.setControl,
        (h.held i hello dataTx hcontrol).2]
    · have hpending : t.pendingData name = s.pendingData name := by
        refine h.pending name ?_
        intro j hello' dataTx' hj
        obtain rfl := haccounted.registering_unique hregistering ⟨hello', dataTx', hj⟩
        obtain ⟨rfl, -⟩ := ControlTask.awaitingClients.inj (hcontrol.symm.trans hj)
        exact Ne.symm hname
      simpa [Server.setControl, Server.register, Forwarding.register, Forwarding.setControl, hname]
        using hpending
  · intro name
    have hfind := find?_insert s.clients
      ⟨hello.name, i, dataTx, hello.screenWidth, hello.screenHeight⟩ name
    simp only [Server.setControl, Server.notify_clients, Server.register, Forwarding.register,
      Forwarding.setControl]
    rw [hfind, show t.clients = fun name => s.clients.find? fun c => c.name = name from
      funext h.clients]

/-- A handler that is let in at the clients after its loop removes its client. -/
theorem Refines.cleanup (h : s.Refines t) {i : ι} {name : String}
    (hcontrol : s.control i = .leaving name) :
    (s.cleanup i name).Refines
      ((Server.notify { t.setControl i (.removed name) with
        clients := Function.update t.clients name none } (.clientDisconnected name)).setControl i
          .closed) := by
  have hmoved : ({ s with clients := s.clients.filter (·.name ≠ name) }.setControl i
      .closed).Refines ({ t with clients := Function.update t.clients name none }.setControl i
        .closed) := by
    refine Refines.setControl ?_ rfl ?_ (by simp)
    · refine ⟨h.control, h.data, h.held, h.pending, ?_⟩
      intro other
      simp only
      rw [find?_remove, show t.clients = fun name => s.clients.find? fun c => c.name = name from
        funext h.clients]
    · exact not_registering_of_eq hcontrol (by simp)
  have hlocks : (s.cleanup i name).Refines
      ({ t with clients := Function.update t.clients name none }.setControl i .closed) :=
    hmoved.congr rfl rfl rfl rfl
  refine hlocks.congr_server ?_ ?_ ?_ ?_ <;> simp [Server.setControl]

/-- What is let in at `pending_data` is a step of the handlers, or none. -/
theorem Refines.grantPending (h : s.Refines t) (haccounted : s.Accounted)
    (hnext : s.grantPending = some s') :
    ∃ steps : List (ServerStep ι), s'.Refines (steps.foldl Server.step t) := by
  unfold Forwarding.grantPending at hnext
  split at hnext
  · exact absurd hnext (by simp)
  · rename_i i a lock hgrant
    have hnone := haccounted.not_registering hgrant
    split at hnext
    · rename_i hello attempts hcontrol
      obtain rfl := Option.some.inj hnext
      have hphase : t.control i = .waiting hello attempts := h.task hcontrol
      unfold Forwarding.pollPending
      split
      · rename_i dataTx hpending
        exact ⟨[], (h.takePending hnone hcontrol hpending).congr rfl rfl rfl rfl⟩
      · rename_i hpending
        refine ⟨[.poll i], ?_⟩
        have hnothing : t.pendingData hello.name = none := (h.pending_eq hnone _).trans hpending
        simp only [List.foldl_cons, List.foldl_nil, Server.step, hphase, Server.pollPending,
          hnothing]
        have hreleased : ({ s with pendingLock := lock.release (.control i) } :
            Forwarding ι μ).Refines t := h.congr rfl rfl rfl rfl
        by_cases hlast : attempts + 1 > Server.maxAttempts
        · simp only [if_pos hlast]
          exact hreleased.setControl rfl (hnone i) (by simp)
        · simp only [if_neg hlast]
          exact hreleased.setControl rfl (hnone i) (by simp)
    · exact absurd hnext (by simp)
  · rename_i i a lock hgrant
    have hnone := haccounted.not_registering hgrant
    split at hnext
    · rename_i name hdata
      obtain rfl := Option.some.inj hnext
      refine ⟨[.dataHandshake i (some (.handshake 1 name 0 0))], ?_⟩
      have hphase : t.data i = .accepted := by rw [h.data i, hdata, DataTask.phase]
      simp only [List.foldl_cons, List.foldl_nil, Server.step, hphase, dataName]
      exact (h.dataHandshake hnone name).congr rfl rfl rfl rfl
    · exact absurd hnext (by simp)
  · exact absurd hnext (by simp)

/-- What is let in at the clients are two steps of the handlers, or none. -/
theorem Refines.grantClients (h : s.Refines t) (haccounted : s.Accounted)
    {order : List (ConnectedClient ι)} (hnext : s.grantClients order = some s') :
    ∃ steps : List (ServerStep ι), s'.Refines (steps.foldl Server.step t) := by
  unfold Forwarding.grantClients at hnext
  split at hnext
  · exact absurd hnext (by simp)
  · split at hnext
    · split at hnext
      · obtain rfl := Option.some.inj hnext
        exact ⟨[], h.congr rfl rfl rfl rfl⟩
      · exact absurd hnext (by simp)
    · exact absurd hnext (by simp)
  · rename_i i a lock hgrant
    split at hnext
    · rename_i hello dataTx hcontrol
      obtain rfl := Option.some.inj hnext
      obtain ⟨attempts, hphase⟩ : ∃ attempts, t.control i = .waiting hello attempts :=
        h.task hcontrol
      refine ⟨[.poll i, .announce i], ?_⟩
      rw [steps_register hphase (h.held i hello dataTx hcontrol).1]
      exact (h.register haccounted hcontrol).congr rfl rfl rfl rfl
    · rename_i name hcontrol
      obtain rfl := Option.some.inj hnext
      have hphase : t.control i = .leaving name := h.task hcontrol
      refine ⟨[.cleanup i, .depart i], ?_⟩
      rw [steps_cleanup hphase]
      exact (h.cleanup hcontrol).congr rfl rfl rfl rfl
    · exact absurd hnext (by simp)
  · exact absurd hnext (by simp)

/-- Sending is no step of the handlers. -/
theorem Refines.send (h : s.Refines t) {f : Forwarder} {channel : Outgoing ι} {message : μ}
    {messages : List μ} {todo : List (Outgoing ι × List μ)}
    (hsend : s.send f channel message messages todo = some s') : s'.Refines t := by
  unfold Forwarding.send at hsend
  split at hsend
  · obtain rfl := Option.some.inj hsend
    exact h.congr rfl rfl rfl rfl
  · split at hsend
    · obtain rfl := Option.some.inj hsend
      exact h.congr rfl rfl rfl rfl
    · exact absurd hsend (by simp)

/-- What a forwarder does next is no step of the handlers. -/
theorem Refines.advance (h : s.Refines t) {f : Forwarder} (hadvance : s.advance f = some s') :
    s'.Refines t := by
  unfold Forwarding.advance at hadvance
  split at hadvance
  · obtain rfl := Option.some.inj hadvance
    exact h.congr rfl rfl rfl rfl
  · obtain rfl := Option.some.inj hadvance
    exact h.congr rfl rfl rfl rfl
  · rename_i channel message messages todo _
    obtain rfl := Option.some.inj hadvance
    cases hsend : s.send f channel message messages todo with
    | some sent => exact h.send hsend
    | none => exact h.congr rfl rfl rfl rfl
  · exact absurd hadvance (by simp)

/-- A handler that asks for the lock on `pending_data` goes to where its counterpart waits. -/
theorem Refines.askPending (h : s.Refines t) {i : ι} (hbefore : ¬ s.Registering i) (hello : Hello)
    (attempts : ℕ) :
    (s.askPending i hello attempts).Refines (t.setControl i (.waiting hello attempts)) := by
  have hasked : ({ s with pendingLock := s.pendingLock.request (.control i) .write } :
      Forwarding ι μ).Refines t := h.congr rfl rfl rfl rfl
  exact hasked.setControl rfl hbefore (by simp)

/-- Every event that is possible with the locks is a run of the handlers. -/
theorem Refines.next (h : s.Refines t) (haccounted : s.Accounted) {event : TaskEvent ι μ}
    (hnext : s.next event = some s') :
    ∃ steps : List (ServerStep ι), s'.Refines (steps.foldl Server.step t) := by
  cases event with
  | controlHandshake i hello =>
    simp only [Forwarding.next] at hnext
    split at hnext
    · rename_i hcontrol
      obtain rfl := Option.some.inj hnext
      refine ⟨[.controlHandshake i
        (some (.handshake 1 hello.name hello.screenWidth hello.screenHeight)),
          .screenConfig i true], ?_⟩
      rw [steps_handshake (h.task hcontrol) hello]
      exact h.askPending (not_registering_of_eq hcontrol (by simp)) hello 0
    · exact absurd hnext (by simp)
  | wake i =>
    simp only [Forwarding.next] at hnext
    split at hnext
    · rename_i hello attempts hcontrol
      obtain rfl := Option.some.inj hnext
      have hwaiting : t.control i = .waiting hello attempts := h.task hcontrol
      have hasked := h.askPending (not_registering_of_eq hcontrol (by simp)) hello attempts
      rw [← hwaiting, Server.setControl, Function.update_eq_self] at hasked
      exact ⟨[], hasked⟩
    · exact absurd hnext (by simp)
  | leave i =>
    simp only [Forwarding.next] at hnext
    split at hnext
    · rename_i name hcontrol
      obtain rfl := Option.some.inj hnext
      have hconnected : t.control i = .connected name := h.task hcontrol
      refine ⟨[.controlMessage i none], ?_⟩
      simp only [List.foldl_cons, List.foldl_nil, Server.step, hconnected]
      have hasked : ({ s with clientsLock := s.clientsLock.request (.control i) .write } :
          Forwarding ι μ).Refines t := h.congr rfl rfl rfl rfl
      exact hasked.setControl rfl (not_registering_of_eq hcontrol (by simp)) (by simp)
    · exact absurd hnext (by simp)
  | dataHandshake i name =>
    simp only [Forwarding.next] at hnext
    split at hnext
    · rename_i hdata
      obtain rfl := Option.some.inj hnext
      have hasked : ({ s with pendingLock := s.pendingLock.request (.data i) .write } :
          Forwarding ι μ).Refines t := h.congr rfl rfl rfl rfl
      have haccepted : t.data i = .accepted := by rw [h.data i, hdata, DataTask.phase]
      have hmoved := hasked.setData i (.awaitingPending name)
      rw [DataTask.phase, ← haccepted, Function.update_eq_self] at hmoved
      exact ⟨[], hmoved⟩
    · exact absurd hnext (by simp)
  | dataEnd i =>
    simp only [Forwarding.next] at hnext
    split at hnext
    · rename_i name hdata
      obtain rfl := Option.some.inj hnext
      have hreading : t.data i = .reading name := by rw [h.data i, hdata, DataTask.phase]
      refine ⟨[.dataMessage i none], ?_⟩
      simp only [List.foldl_cons, List.foldl_nil, Server.step, hreading]
      exact h.setData i .closed
    · exact absurd hnext (by simp)
  | capture event | change event | stall i | writeError channel =>
    simp only [Forwarding.next] at hnext
    split at hnext
    · obtain rfl := Option.some.inj hnext
      exact ⟨[], h.congr rfl rfl rfl rfl⟩
    · exact absurd hnext (by simp)
  | grantPending => exact h.grantPending haccounted hnext
  | grantClients order => exact h.grantClients haccounted hnext
  | take f isRemote => exact ⟨[], h.take hnext⟩
  | advance f => exact ⟨[], h.advance hnext⟩
  | resume f =>
    refine ⟨[], ?_⟩
    simp only [Forwarding.next, Forwarding.resume] at hnext
    split at hnext
    · exact h.send hnext
    · exact absurd hnext (by simp)
  | write channel =>
    refine ⟨[], ?_⟩
    simp only [Forwarding.next, Forwarding.write] at hnext
    split at hnext
    · obtain rfl := Option.some.inj hnext
      exact h.congr rfl rfl rfl rfl
    · exact absurd hnext (by simp)

/-- Every run with the locks is a run of the handlers. -/
theorem Refines.run (h : s.Refines t) (haccounted : s.Accounted) (events : List (TaskEvent ι μ)) :
    ∃ steps : List (ServerStep ι), (events.foldl step s).Refines (steps.foldl Server.step t) := by
  induction events generalizing s t with
  | nil => exact ⟨[], h⟩
  | cons event events ih =>
    rw [List.foldl_cons, step]
    cases hnext : s.next event with
    | none => exact ih h haccounted
    | some s' =>
      obtain ⟨first, hfirst⟩ := h.next haccounted hnext
      obtain ⟨rest, hrest⟩ := ih hfirst (haccounted.next hnext)
      refine ⟨first ++ rest, ?_⟩
      rw [List.foldl_append]
      exact hrest

/-- **The handlers with locks are the handlers.** Every run with the locks ends where a run of the
handlers ends. -/
theorem refines_handlers (events : List (TaskEvent ι μ)) :
    ∃ steps : List (ServerStep ι),
      (events.foldl step (start : Forwarding ι μ)).Refines (steps.foldl Server.step .start) :=
  refines_start.run accounted_start events

end Forwarding

end SuperShare
