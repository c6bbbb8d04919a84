import SuperShare.Network.Forwarding

/-!
# The locks serve the tasks

Who waits at the two locks, and who holds them, follows from where the tasks stand. This file
shows that every event keeps it so. In particular no task waits that is not in the queue of its
lock, and only a forwarder that sends holds the clients, and only a registration that waits for
the clients holds `pending_data`.
-/

namespace SuperShare

variable {ι μ β : Type}

/-- A value for each task that asks for locks. -/
def LockTask.elim (forwarder : Forwarder → β) (control data : ι → β) : LockTask ι → β
  | .forwarder f => forwarder f
  | .control i => control i
  | .data i => data i

/-- What a forwarder waits for at the lock on the clients. -/
def ForwarderPhase.wantsClients : ForwarderPhase ι μ → Option Access
  | waiting _ => some .read
  | idle | sending _ | blocked .. => none

/-- What a forwarder holds of the lock on the clients. -/
def ForwarderPhase.holdsClients : ForwarderPhase ι μ → Option Access
  | sending _ | blocked .. => some .read
  | idle | waiting _ => none

/-- What a control handler waits for at the lock on the clients. -/
def ControlTask.wantsClients : ControlTask ι → Option Access
  | awaitingClients .. | leaving _ => some .write
  | _ => none

/-- What a control handler waits for at the lock on `pending_data`. -/
def ControlTask.wantsPending : ControlTask ι → Option Access
  | awaitingPending .. => some .write
  | _ => none

/-- What a control handler holds of the lock on `pending_data`. -/
def ControlTask.holdsPending : ControlTask ι → Option Access
  | awaitingClients .. => some .write
  | _ => none

/-- What a data handler waits for at the lock on `pending_data`. -/
def DataTask.wantsPending : DataTask → Option Access
  | awaitingPending _ => some .write
  | _ => none

/-- The name under which a handler is in its message loop, or has left it and not cleaned up. -/
def ControlTask.listedName : ControlTask ι → Option String
  | connected name | leaving name => some name
  | _ => none

namespace Forwarding

/-- Who waits for the lock on the clients. -/
def wantsClients (s : Forwarding ι μ) : LockTask ι → Option Access :=
  LockTask.elim (ForwarderPhase.wantsClients ∘ s.forwarder) (ControlTask.wantsClients ∘ s.control)
    fun _ => none

/-- Who holds the lock on the clients between two steps. -/
def holdsClients (s : Forwarding ι μ) : LockTask ι → Option Access :=
  LockTask.elim (ForwarderPhase.holdsClients ∘ s.forwarder) (fun _ => none) fun _ => none

/-- Who waits for the lock on `pending_data`. -/
def wantsPending (s : Forwarding ι μ) : LockTask ι → Option Access :=
  LockTask.elim (fun _ => none) (ControlTask.wantsPending ∘ s.control)
    (DataTask.wantsPending ∘ s.data)

/-- Who holds the lock on `pending_data` between two steps. -/
def holdsPending (s : Forwarding ι μ) : LockTask ι → Option Access :=
  LockTask.elim (fun _ => none) (ControlTask.holdsPending ∘ s.control) fun _ => none

/-- The locks serve the tasks, and every client in the map has a handler that has not cleaned
up. -/
structure Accounted (s : Forwarding ι μ) [DecidableEq ι] : Prop where
  clientsLock : s.clientsLock.Serves s.wantsClients s.holdsClients
  pendingLock : s.pendingLock.Serves s.wantsPending s.holdsPending
  listed : ∀ client ∈ s.clients, (s.control client.controlTx).listedName = some client.name

/-- What a control handler waits for and holds follows from where it stands. -/
theorem locks_of_control {s : Forwarding ι μ} {i : ι} {phase : ControlTask ι}
    (hcontrol : s.control i = phase) :
    s.wantsClients (.control i) = phase.wantsClients ∧
      s.wantsPending (.control i) = phase.wantsPending ∧
        s.holdsPending (.control i) = phase.holdsPending := by
  subst hcontrol
  exact ⟨rfl, rfl, rfl⟩

/-- What a forwarder waits for and holds follows from where it stands. -/
theorem locks_of_forwarder {s : Forwarding ι μ} {f : Forwarder} {phase : ForwarderPhase ι μ}
    (hforwarder : s.forwarder f = phase) :
    s.wantsClients (.forwarder f) = phase.wantsClients ∧
      s.holdsClients (.forwarder f) = phase.holdsClients := by
  subst hforwarder
  exact ⟨rfl, rfl⟩

end Forwarding

section Elim

variable [DecidableEq ι] (forwarder : Forwarder → β) (control data : ι → β)

/-- A value that changes for a forwarder changes for its task. -/
theorem LockTask.elim_update_forwarder (f : Forwarder) (b : β) :
    LockTask.elim (Function.update forwarder f b) control data =
      Function.update (LockTask.elim forwarder control data) (.forwarder f) b := by
  funext t
  cases t with
  | forwarder g =>
    by_cases hg : g = f
    · simp [LockTask.elim, hg]
    · simp [LockTask.elim, hg]
  | _ => rfl

/-- A value that changes for a control handler changes for its task. -/
theorem LockTask.elim_update_control (i : ι) (b : β) :
    LockTask.elim forwarder (Function.update control i b) data =
      Function.update (LockTask.elim forwarder control data) (.control i) b := by
  funext t
  cases t with
  | control j =>
    by_cases hj : j = i
    · simp [LockTask.elim, hj]
    · simp [LockTask.elim, hj]
  | _ => rfl

/-- A value that changes for a data handler changes for its task. -/
theorem LockTask.elim_update_data (i : ι) (b : β) :
    LockTask.elim forwarder control (Function.update data i b) =
      Function.update (LockTask.elim forwarder control data) (.data i) b := by
  funext t
  cases t with
  | data j =>
    by_cases hj : j = i
    · simp [LockTask.elim, hj]
    · simp [LockTask.elim, hj]
  | _ => rfl

end Elim

namespace Forwarding

variable [DecidableEq ι] {s s' : Forwarding ι μ}

/-- A forwarder that moves changes what it waits for. -/
theorem wantsClients_setForwarder (s : Forwarding ι μ) (f : Forwarder)
    (phase : ForwarderPhase ι μ) : (s.setForwarder f phase).wantsClients =
      Function.update s.wantsClients (.forwarder f) phase.wantsClients := by
  simp only [wantsClients, setForwarder, Function.comp_update, LockTask.elim_update_forwarder]

/-- A forwarder that moves changes what it holds. -/
theorem holdsClients_setForwarder (s : Forwarding ι μ) (f : Forwarder)
    (phase : ForwarderPhase ι μ) : (s.setForwarder f phase).holdsClients =
      Function.update s.holdsClients (.forwarder f) phase.holdsClients := by
  simp only [holdsClients, setForwarder, Function.comp_update, LockTask.elim_update_forwarder]

/-- A control handler that moves changes what it waits for and holds. -/
theorem wantsClients_setControl (s : Forwarding ι μ) (i : ι) (phase : ControlTask ι) :
    (s.setControl i phase).wantsClients =
      Function.update s.wantsClients (.control i) phase.wantsClients := by
  simp only [wantsClients, setControl, Function.comp_update, LockTask.elim_update_control]

theorem wantsPending_setControl (s : Forwarding ι μ) (i : ι) (phase : ControlTask ι) :
    (s.setControl i phase).wantsPending =
      Function.update s.wantsPending (.control i) phase.wantsPending := by
  simp only [wantsPending, setControl, Function.comp_update, LockTask.elim_update_control]

theorem holdsPending_setControl (s : Forwarding ι μ) (i : ι) (phase : ControlTask ι) :
    (s.setControl i phase).holdsPending =
      Function.update s.holdsPending (.control i) phase.holdsPending := by
  simp only [holdsPending, setControl, Function.comp_update, LockTask.elim_update_control]

/-- A data handler that moves changes what it waits for. -/
theorem wantsPending_setData (s : Forwarding ι μ) (i : ι) (phase : DataTask) :
    (s.setData i phase).wantsPending =
      Function.update s.wantsPending (.data i) phase.wantsPending := by
  simp only [wantsPending, setData, Function.comp_update, LockTask.elim_update_data]

/-- The locks serve the tasks after a control handler has moved, if they serve what it then waits
for and holds. -/
theorem accounted_setControl {i : ι} {phase : ControlTask ι}
    (hclients : s.clientsLock.Serves
      (Function.update s.wantsClients (.control i) phase.wantsClients) s.holdsClients)
    (hpending : s.pendingLock.Serves
      (Function.update s.wantsPending (.control i) phase.wantsPending)
      (Function.update s.holdsPending (.control i) phase.holdsPending))
    (hlisted : ∀ client ∈ s.clients,
      (Function.update s.control i phase client.controlTx).listedName = some client.name) :
    (s.setControl i phase).Accounted := by
  constructor
  · rw [wantsClients_setControl]
    exact hclients
  · rw [wantsPending_setControl, holdsPending_setControl]
    exact hpending
  · exact hlisted

/-- The clients in the map keep their handlers when a handler moves that is in the map after the
move exactly if it was before. -/
theorem Accounted.listed_update (h : s.Accounted) {i : ι} {phase : ControlTask ι}
    (hphase : phase.listedName = (s.control i).listedName) :
    ∀ client ∈ s.clients,
      (Function.update s.control i phase client.controlTx).listedName = some client.name := by
  intro client hclient
  by_cases hi : client.controlTx = i
  · rw [hi, Function.update_self, hphase, ← hi]
    exact h.listed client hclient
  · rw [Function.update_of_ne hi]
    exact h.listed client hclient

/-- The locks serve the tasks after a forwarder has moved, if the lock on the clients serves what
it then waits for and holds. -/
theorem accounted_setForwarder {f : Forwarder} {phase : ForwarderPhase ι μ}
    (hclients : s.clientsLock.Serves
      (Function.update s.wantsClients (.forwarder f) phase.wantsClients)
      (Function.update s.holdsClients (.forwarder f) phase.holdsClients))
    (hpending : s.pendingLock.Serves s.wantsPending s.holdsPending)
    (hlisted : ∀ client ∈ s.clients,
      (s.control client.controlTx).listedName = some client.name) :
    (s.setForwarder f phase).Accounted := by
  constructor
  · rw [wantsClients_setForwarder, holdsClients_setForwarder]
    exact hclients
  · exact hpending
  · exact hlisted

/-- The locks serve the tasks after a data handler has moved, if the lock on `pending_data` serves
what it then waits for. -/
theorem accounted_setData {i : ι} {phase : DataTask}
    (hclients : s.clientsLock.Serves s.wantsClients s.holdsClients)
    (hpending : s.pendingLock.Serves
      (Function.update s.wantsPending (.data i) phase.wantsPending) s.holdsPending)
    (hlisted : ∀ client ∈ s.clients,
      (s.control client.controlTx).listedName = some client.name) :
    (s.setData i phase).Accounted := by
  constructor
  · exact hclients
  · rw [wantsPending_setData]
    exact hpending
  · exact hlisted

/-- The locks serve the tasks when the listeners start. -/
theorem accounted_start : (start : Forwarding ι μ).Accounted := by
  constructor
  · exact RwLock.serves_free (fun t => by cases t <;> rfl) fun t => by cases t <;> rfl
  · exact RwLock.serves_free (fun t => by cases t <;> rfl) fun t => by cases t <;> rfl
  · intro client hclient
    exact absurd hclient List.not_mem_nil

/-- A control handler that waits for no lock and is not in the map asks for `pending_data`. -/
theorem Accounted.askPending (h : s.Accounted) {i : ι} (hello : Hello) (attempts : ℕ)
    (hclients : s.wantsClients (.control i) = none) (hpending : s.wantsPending (.control i) = none)
    (hholds : s.holdsPending (.control i) = none) (hlisted : (s.control i).listedName = none) :
    (s.askPending i hello attempts).Accounted := by
  refine accounted_setControl ?_ ?_ (h.listed_update hlisted.symm)
  · exact h.clientsLock.same_wants hclients
  · exact (h.pendingLock.request hpending).same_holds hholds

/-- A control handler that leaves its loop asks for the lock on the clients. -/
theorem Accounted.leave (h : s.Accounted) {i : ι} {name : String}
    (hcontrol : s.control i = .connected name) :
    ({ s with clientsLock := s.clientsLock.request (.control i) .write }.setControl i
      (.leaving name)).Accounted := by
  obtain ⟨hclients, hpending, hholds⟩ := locks_of_control hcontrol
  refine accounted_setControl ?_ ?_ (h.listed_update ?_)
  · exact h.clientsLock.request hclients
  · exact (h.pendingLock.same_wants hpending).same_holds hholds
  · exact (congrArg ControlTask.listedName hcontrol).symm

/-- A control handler that is let in at `pending_data` gives the lock up, or keeps it and asks for
the lock on the clients. -/
theorem Accounted.pollPending (h : s.Accounted) {i : ι} {hello : Hello} {attempts : ℕ}
    {a : Access} {lock : RwLock (LockTask ι)}
    (hgrant : s.pendingLock.grant = some ((.control i, a), lock))
    (hcontrol : s.control i = .awaitingPending hello attempts) :
    ({ s with pendingLock := lock }.pollPending i hello attempts).Accounted := by
  obtain ⟨hclients, hpending, hholds⟩ := locks_of_control hcontrol
  have hlisted := congrArg ControlTask.listedName hcontrol
  obtain ⟨hwant, hserves⟩ := h.pendingLock.grant hgrant
  obtain rfl : .write = a := Option.some.inj (hpending.symm.trans hwant)
  unfold Forwarding.pollPending
  split
  · exact accounted_setControl (h.clientsLock.request hclients) hserves
      (h.listed_update hlisted.symm)
  · have hpassed := (h.pendingLock.pass hgrant hholds).2
    split
    · exact accounted_setControl (h.clientsLock.same_wants hclients) (hpassed.same_holds hholds)
        (h.listed_update hlisted.symm)
    · exact accounted_setControl (h.clientsLock.same_wants hclients) (hpassed.same_holds hholds)
        (h.listed_update hlisted.symm)

/-- The next task is let in at `pending_data`. -/
theorem Accounted.grantPending (h : s.Accounted) (hnext : s.grantPending = some s') :
    s'.Accounted := by
  unfold Forwarding.grantPending at hnext
  split at hnext
  · exact absurd hnext (by simp)
  · rename_i i a lock hgrant
    split at hnext
    · rename_i hello attempts hcontrol
      obtain rfl := Option.some.inj hnext
      exact h.pollPending hgrant hcontrol
    · exact absurd hnext (by simp)
  · rename_i i a lock hgrant
    split at hnext
    · rename_i name hdata
      obtain rfl := Option.some.inj hnext
      exact accounted_setData h.clientsLock (h.pendingLock.pass hgrant rfl).2 h.listed
    · exact absurd hnext (by simp)
  · exact absurd hnext (by simp)

/-- A handler that is let in at the clients with its data channel stores its client and gives up
both locks. -/
theorem Accounted.register (h : s.Accounted) {i : ι} {hello : Hello} {dataTx : ι} {a : Access}
    {lock : RwLock (LockTask ι)} (hgrant : s.clientsLock.grant = some ((.control i, a), lock))
    (hcontrol : s.control i = .awaitingClients hello dataTx) :
    ({ s with clientsLock := lock }.register i hello dataTx).Accounted := by
  obtain ⟨-, hpending, -⟩ := locks_of_control hcontrol
  refine accounted_setControl (h.clientsLock.pass hgrant rfl).2 ?_ ?_
  · exact (h.pendingLock.release (.control i)).same_wants hpending
  · intro client hclient
    rcases List.mem_cons.mp hclient with rfl | hclient
    · exact congrArg ControlTask.listedName (Function.update_self i _ s.control)
    · have hlisted := h.listed client (List.mem_of_mem_filter hclient)
      have hi : client.controlTx ≠ i := by
        rintro rfl
        rw [hcontrol] at hlisted
        exact absurd hlisted (by simp [ControlTask.listedName])
      exact (congrArg ControlTask.listedName (Function.update_of_ne hi _ s.control)).trans hlisted

/-- A handler that is let in at the clients after its loop removes its client. -/
theorem Accounted.cleanup (h : s.Accounted) {i : ι} {name : String} {a : Access}
    {lock : RwLock (LockTask ι)} (hgrant : s.clientsLock.grant = some ((.control i, a), lock))
    (hcontrol : s.control i = .leaving name) :
    ({ s with clientsLock := lock }.cleanup i name).Accounted := by
  obtain ⟨-, hpending, hholds⟩ := locks_of_control hcontrol
  refine accounted_setControl (h.clientsLock.pass hgrant rfl).2 ?_ ?_
  · exact (h.pendingLock.same_wants hpending).same_holds hholds
  · intro client hclient
    obtain ⟨hmem, hname⟩ := List.mem_filter.mp hclient
    have hlisted := h.listed client hmem
    have hi : client.controlTx ≠ i := by
      rintro rfl
      rw [hcontrol] at hlisted
      exact absurd (Option.some.inj hlisted).symm (by simpa using hname)
    exact (congrArg ControlTask.listedName (Function.update_of_ne hi _ s.control)).trans hlisted

/-- The next task is let in at the clients. -/
theorem Accounted.grantClients (h : s.Accounted) {order : List (ConnectedClient ι)}
    (hnext : s.grantClients order = some s') : s'.Accounted := by
  unfold Forwarding.grantClients at hnext
  split at hnext
  · exact absurd hnext (by simp)
  · rename_i f a lock hgrant
    split at hnext
    · rename_i job hforwarder
      split at hnext
      · obtain rfl := Option.some.inj hnext
        obtain ⟨hwant, hserves⟩ := h.clientsLock.grant hgrant
        obtain rfl : .read = a := Option.some.inj
          ((congrArg ForwarderPhase.wantsClients hforwarder).symm.trans hwant)
        exact accounted_setForwarder hserves h.pendingLock h.listed
      · exact absurd hnext (by simp)
    · exact absurd hnext (by simp)
  · rename_i i a lock hgrant
    split at hnext
    · rename_i hello dataTx hcontrol
      obtain rfl := Option.some.inj hnext
      exact h.register hgrant hcontrol
    · rename_i name hcontrol
      obtain rfl := Option.some.inj hnext
      exact h.cleanup hgrant hcontrol
    · exact absurd hnext (by simp)
  · exact absurd hnext (by simp)

/-- A forwarder that goes on sending keeps the lock. -/
theorem Accounted.keepSending (h : s.Accounted) {f : Forwarder} {phase : ForwarderPhase ι μ}
    (hwants : s.wantsClients (.forwarder f) = phase.wantsClients)
    (hholds : s.holdsClients (.forwarder f) = phase.holdsClients) :
    (s.setForwarder f phase).Accounted :=
  accounted_setForwarder ((h.clientsLock.same_wants hwants).same_holds hholds) h.pendingLock
    h.listed

/-- What a forwarder takes from its channel is none of the locks' business. -/
theorem Accounted.nextJob (h : s.Accounted) {isRemote : Bool} {f : Forwarder}
    {job : Option (Job μ)} (hjob : s.nextJob isRemote f = some (job, s')) :
    s'.Accounted ∧ s'.forwarder = s.forwarder := by
  rw [nextJob_frame hjob]
  exact ⟨⟨h.clientsLock, h.pendingLock, h.listed⟩, rfl⟩

/-- A forwarder that has taken a job asks for the lock. -/
theorem Accounted.take (h : s.Accounted) {f : Forwarder} {isRemote : Bool}
    (hnext : s.take f isRemote = some s') : s'.Accounted := by
  unfold Forwarding.take at hnext
  split at hnext
  · rename_i hidle
    split at hnext
    · exact absurd hnext (by simp)
    · rename_i taken hjob
      obtain rfl := Option.some.inj hnext
      exact (h.nextJob hjob).1
    · rename_i job taken hjob
      obtain rfl := Option.some.inj hnext
      obtain ⟨htaken, hsame⟩ := h.nextJob hjob
      obtain ⟨hwants, hholds⟩ := locks_of_forwarder ((congrFun hsame f).trans hidle)
      exact accounted_setForwarder ((htaken.clientsLock.request hwants).same_holds hholds)
        htaken.pendingLock htaken.listed
  · exact absurd hnext (by simp)

/-- A forwarder that sends keeps the lock. -/
theorem Accounted.send (h : s.Accounted) {f : Forwarder} {channel : Outgoing ι} {message : μ}
    {messages : List μ} {todo : List (Outgoing ι × List μ)}
    (hwants : s.wantsClients (.forwarder f) = none)
    (hholds : s.holdsClients (.forwarder f) = some .read)
    (hsend : s.send f channel message messages todo = some s') : s'.Accounted := by
  unfold Forwarding.send at hsend
  split at hsend
  · obtain rfl := Option.some.inj hsend
    exact h.keepSending hwants hholds
  · split at hsend
    · obtain rfl := Option.some.inj hsend
      exact accounted_setForwarder ((h.clientsLock.same_wants hwants).same_holds hholds)
        h.pendingLock h.listed
    · exact absurd hsend (by simp)

/-- A forwarder gives the lock up when it has sent to every client, and not before. -/
theorem Accounted.advance (h : s.Accounted) {f : Forwarder} (hnext : s.advance f = some s') :
    s'.Accounted := by
  unfold Forwarding.advance at hnext
  split at hnext
  · rename_i hforwarder
    obtain rfl := Option.some.inj hnext
    obtain ⟨hwants, -⟩ := locks_of_forwarder hforwarder
    exact accounted_setForwarder ((h.clientsLock.release _).same_wants hwants) h.pendingLock
      h.listed
  · rename_i hforwarder
    obtain rfl := Option.some.inj hnext
    obtain ⟨hwants, hholds⟩ := locks_of_forwarder hforwarder
    exact h.keepSending hwants hholds
  · rename_i channel message messages todo hforwarder
    obtain rfl := Option.some.inj hnext
    obtain ⟨hwants, hholds⟩ := locks_of_forwarder hforwarder
    cases hsend : s.send f channel message messages todo with
    | some sent => exact h.send hwants hholds hsend
    | none => exact h.keepSending hwants hholds
  · exact absurd hnext (by simp)

/-- A forwarder that waited for room keeps the lock. -/
theorem Accounted.resume (h : s.Accounted) {f : Forwarder} (hnext : s.resume f = some s') :
    s'.Accounted := by
  unfold Forwarding.resume at hnext
  split at hnext
  · rename_i hforwarder
    obtain ⟨hwants, hholds⟩ := locks_of_forwarder hforwarder
    exact h.send hwants hholds hnext
  · exact absurd hnext (by simp)

/-- The locks serve the tasks after every event that is possible. -/
theorem Accounted.next (h : s.Accounted) {event : TaskEvent ι μ} (hnext : s.next event = some s') :
    s'.Accounted := by
  cases event with
  | controlHandshake i hello =>
    simp only [Forwarding.next] at hnext
    split at hnext
    · rename_i hcontrol
      obtain rfl := Option.some.inj hnext
      obtain ⟨hclients, hpending, hholds⟩ := locks_of_control hcontrol
      exact h.askPending hello 0 hclients hpending hholds
        (congrArg ControlTask.listedName hcontrol)
    · exact absurd hnext (by simp)
  | wake i =>
    simp only [Forwarding.next] at hnext
    split at hnext
    · rename_i hello attempts hcontrol
      obtain rfl := Option.some.inj hnext
      obtain ⟨hclients, hpending, hholds⟩ := locks_of_control hcontrol
      exact h.askPending hello attempts hclients hpending hholds
        (congrArg ControlTask.listedName hcontrol)
    · exact absurd hnext (by simp)
  | leave i =>
    simp only [Forwarding.next] at hnext
    split at hnext
    · rename_i name hcontrol
      obtain rfl := Option.some.inj hnext
      exact h.leave hcontrol
    · exact absurd hnext (by simp)
  | dataHandshake i name =>
    simp only [Forwarding.next] at hnext
    split at hnext
    · rename_i hdata
      obtain rfl := Option.some.inj hnext
      have hwants : s.wantsPending (.data i) = none := congrArg DataTask.wantsPending hdata
      exact accounted_setData h.clientsLock (h.pendingLock.request hwants) h.listed
    · exact absurd hnext (by simp)
  | dataEnd i =>
    simp only [Forwarding.next] at hnext
    split at hnext
    · rename_i name hdata
      obtain rfl := Option.some.inj hnext
      have hwants : s.wantsPending (.data i) = none := congrArg DataTask.wantsPending hdata
      exact accounted_setData h.clientsLock (h.pendingLock.same_wants hwants) h.listed
    · exact absurd hnext (by simp)
  | capture event | change event =>
    simp only [Forwarding.next] at hnext
    split at hnext
    · obtain rfl := Option.some.inj hnext
      exact ⟨h.clientsLock, h.pendingLock, h.listed⟩
    · exact absurd hnext (by simp)
  | stall i | writeError i =>
    simp only [Forwarding.next] at hnext
    split at hnext
    · obtain rfl := Option.some.inj hnext
      exact ⟨h.clientsLock, h.pendingLock, h.listed⟩
    · exact absurd hnext (by simp)
  | grantPending => exact h.grantPending hnext
  | grantClients order => exact h.grantClients hnext
  | take f isRemote => exact h.take hnext
  | advance f => exact h.advance hnext
  | resume f => exact h.resume hnext
  | write channel =>
    simp only [Forwarding.next, Forwarding.write] at hnext
    split at hnext
    · obtain rfl := Option.some.inj hnext
      exact ⟨h.clientsLock, h.pendingLock, h.listed⟩
    · exact absurd hnext (by simp)

/-- In a blocked server nobody can be let in at the clients. -/
theorem Accounted.clientsLock_grant (h : s.Accounted) (hquiet : s.Quiescent) :
    s.clientsLock.grant = none := by
  have hnext : s.grantClients s.clients = none := hquiet (.grantClients s.clients) rfl
  cases hgrant : s.clientsLock.grant with
  | none => rfl
  | some granted =>
    obtain ⟨⟨t, a⟩, lock⟩ := granted
    have hwant := (h.clientsLock.grant hgrant).1
    unfold Forwarding.grantClients at hnext
    rw [hgrant] at hnext
    cases t with
    | forwarder f =>
      cases hforwarder : s.forwarder f with
      | waiting job => simp [hforwarder] at hnext
      | _ =>
        rw [(locks_of_forwarder hforwarder).1] at hwant
        exact absurd hwant (by simp [ForwarderPhase.wantsClients])
    | control i =>
      cases hcontrol : s.control i with
      | awaitingClients hello dataTx => simp [hcontrol] at hnext
      | leaving name => simp [hcontrol] at hnext
      | _ =>
        rw [(locks_of_control hcontrol).1] at hwant
        exact absurd hwant (by simp [ControlTask.wantsClients])
    | data i => exact absurd hwant (by simp [wantsClients, LockTask.elim])

/-- In a blocked server nobody can be let in at `pending_data`. -/
theorem Accounted.pendingLock_grant (h : s.Accounted) (hquiet : s.Quiescent) :
    s.pendingLock.grant = none := by
  have hnext : s.grantPending = none := hquiet .grantPending rfl
  cases hgrant : s.pendingLock.grant with
  | none => rfl
  | some granted =>
    obtain ⟨⟨t, a⟩, lock⟩ := granted
    have hwant := (h.pendingLock.grant hgrant).1
    unfold Forwarding.grantPending at hnext
    rw [hgrant] at hnext
    cases t with
    | forwarder f => exact absurd hwant (by simp [wantsPending, LockTask.elim])
    | control i =>
      cases hcontrol : s.control i with
      | awaitingPending hello attempts => simp [hcontrol] at hnext
      | _ =>
        rw [(locks_of_control hcontrol).2.1] at hwant
        exact absurd hwant (by simp [ControlTask.wantsPending])
    | data i =>
      cases hdata : s.data i with
      | awaitingPending name => simp [hdata] at hnext
      | _ =>
        have hwant' : (s.data i).wantsPending = some a := hwant
        rw [hdata] at hwant'
        exact absurd hwant' (by simp [DataTask.wantsPending])

end Forwarding

end SuperShare
