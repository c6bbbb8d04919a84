import SuperShare.Network.LockService

/-!
# A client that stops reading

A forwarder that waits for room in the channel of a client keeps the read lock on the clients. If
the client has stopped reading, the room never comes: no handler can then remove its client or
register a new one, and a registration that waits keeps `pending_data` from all others. This file
shows that nothing else can hold the handlers up. As long as no forwarder comes to a full channel
of a stalled writer, a server whose tasks are all blocked owes nobody a lock.
-/

namespace SuperShare

variable {ι μ : Type}

/-- A channel has room for a message. -/
theorem Outgoing.capacity_pos (channel : Outgoing ι) : 0 < channel.capacity := by
  cases channel <;> simp [capacity]

namespace Forwarding

/-- No forwarder waits for room in the channel of a stalled writer. -/
def Unstuck (s : Forwarding ι μ) : Prop :=
  ∀ f, ∀ channel ∈ (s.forwarder f).blockedAt, s.writer channel ≠ .stalled

/-- The condition on an event: a forwarder that comes to send to a stalled writer finds room, and
a writer does not stall while a forwarder waits for room in its channel. -/
def KeepsRoom (s : Forwarding ι μ) : TaskEvent ι μ → Prop
  | .advance f => ∀ channel ∈ (s.forwarder f).nextChannel, s.writer channel = .stalled →
      (s.queue channel).length < channel.capacity
  | .stall i => ∀ f, (s.forwarder f).blockedAt ≠ some (.data i)
  | _ => True

instance [DecidableEq ι] (s : Forwarding ι μ) : ∀ event : TaskEvent ι μ,
    Decidable (s.KeepsRoom event)
  | .advance f => inferInstanceAs (Decidable (∀ channel ∈ (s.forwarder f).nextChannel, _ → _))
  | .stall i => inferInstanceAs (Decidable (∀ f, (s.forwarder f).blockedAt ≠ some (.data i)))
  | .controlHandshake .. | .wake _ | .leave _ | .dataHandshake .. | .dataEnd _ | .capture _
  | .change _ | .writeError _ | .grantPending | .grantClients _ | .take .. | .resume _ | .write _ =>
      isTrue trivial

/-- No handler that has left its read loop still has to remove its client, no connection waits for
a lock, and the clients in the map are those of handlers in their loop. -/
structure Settled (s : Forwarding ι μ) : Prop where
  removed : ∀ i name, s.control i ≠ .leaving name
  registered : ∀ i hello, (∀ attempts, s.control i ≠ .awaitingPending hello attempts) ∧
    ∀ dataTx, s.control i ≠ .awaitingClients hello dataTx
  paired : ∀ i name, s.data i ≠ .awaitingPending name
  listed : ∀ client ∈ s.clients, s.control client.controlTx = .connected client.name

/-- Where no forwarder and no writer changes, none gets stuck. -/
theorem Unstuck.congr {s s' : Forwarding ι μ} (h : s.Unstuck)
    (hforwarder : s'.forwarder = s.forwarder) (hwriter : s'.writer = s.writer) : s'.Unstuck := by
  unfold Unstuck
  rw [hforwarder, hwriter]
  exact h

/-- A forwarder that moves gets stuck only if it waits for room at a stalled writer. -/
theorem Unstuck.setForwarder {s : Forwarding ι μ} (h : s.Unstuck) {f : Forwarder}
    {phase : ForwarderPhase ι μ}
    (hphase : ∀ channel ∈ phase.blockedAt, s.writer channel ≠ .stalled) :
    (s.setForwarder f phase).Unstuck := by
  intro g channel hchannel
  by_cases hg : g = f
  · subst hg
    refine hphase channel ?_
    simpa [Forwarding.setForwarder] using hchannel
  · refine h g channel ?_
    simpa [Forwarding.setForwarder, Function.update_of_ne hg] using hchannel

/-- A forwarder that takes a job does not wait for room. -/
theorem Unstuck.take {s s' : Forwarding ι μ} (h : s.Unstuck) {f : Forwarder} {isRemote : Bool}
    (hnext : s.take f isRemote = some s') : s'.Unstuck := by
  have htaken : ∀ {job taken}, s.nextJob isRemote f = some (job, taken) → taken.Unstuck := by
    intro job taken hjob
    rw [nextJob_frame hjob]
    exact h.congr rfl rfl
  unfold Forwarding.take at hnext
  split at hnext
  · split at hnext
    · exact absurd hnext (by simp)
    · rename_i hjob
      obtain rfl := Option.some.inj hnext
      exact htaken hjob
    · rename_i hjob
      obtain rfl := Option.some.inj hnext
      exact Unstuck.setForwarder ((htaken hjob).congr rfl rfl)
        (by simp [ForwarderPhase.blockedAt])
  · exact absurd hnext (by simp)

variable [DecidableEq ι] {s s' : Forwarding ι μ}

/-- A grant of `pending_data` moves no forwarder and no writer. -/
theorem grantPending_frame (hnext : s.grantPending = some s') :
    s'.forwarder = s.forwarder ∧ s'.writer = s.writer := by
  unfold grantPending at hnext
  split at hnext
  · exact absurd hnext (by simp)
  · split at hnext
    · obtain rfl := Option.some.inj hnext
      unfold pollPending
      split <;> exact ⟨rfl, rfl⟩
    · exact absurd hnext (by simp)
  · split at hnext
    · obtain rfl := Option.some.inj hnext
      exact ⟨rfl, rfl⟩
    · exact absurd hnext (by simp)
  · exact absurd hnext (by simp)

/-- A forwarder that is let in at the clients does not wait for room yet. -/
theorem Unstuck.grantClients (h : s.Unstuck) {order : List (ConnectedClient ι)}
    (hnext : s.grantClients order = some s') : s'.Unstuck := by
  unfold Forwarding.grantClients at hnext
  split at hnext
  · exact absurd hnext (by simp)
  · split at hnext
    · split at hnext
      · obtain rfl := Option.some.inj hnext
        exact Unstuck.setForwarder (h.congr rfl rfl) (by simp [ForwarderPhase.blockedAt])
      · exact absurd hnext (by simp)
    · exact absurd hnext (by simp)
  · split at hnext
    · obtain rfl := Option.some.inj hnext
      exact h.congr rfl rfl
    · obtain rfl := Option.some.inj hnext
      exact h.congr rfl rfl
    · exact absurd hnext (by simp)
  · exact absurd hnext (by simp)

/-- A forwarder that has sent a message does not wait for room. -/
theorem Unstuck.send (h : s.Unstuck) {f : Forwarder} {channel : Outgoing ι} {message : μ}
    {messages : List μ} {todo : List (Outgoing ι × List μ)}
    (hsend : s.send f channel message messages todo = some s') : s'.Unstuck := by
  unfold Forwarding.send at hsend
  split at hsend
  · obtain rfl := Option.some.inj hsend
    exact h.setForwarder (by simp [ForwarderPhase.blockedAt])
  · split at hsend
    · obtain rfl := Option.some.inj hsend
      exact Unstuck.setForwarder (h.congr rfl rfl) (by simp [ForwarderPhase.blockedAt])
    · exact absurd hsend (by simp)

/-- A send that does not go through finds the channel full and its writer alive. -/
theorem send_eq_none {f : Forwarder} {channel : Outgoing ι} {message : μ} {messages : List μ}
    {todo : List (Outgoing ι × List μ)}
    (hsend : s.send f channel message messages todo = none) :
    s.writer channel ≠ .ended ∧ channel.capacity ≤ (s.queue channel).length := by
  unfold send at hsend
  split at hsend
  · exact absurd hsend (by simp)
  · rename_i halive
    split at hsend
    · exact absurd hsend (by simp)
    · rename_i hfull
      exact ⟨halive, by omega⟩

/-- A forwarder that finds room at the stalled writers does not get stuck. -/
theorem Unstuck.advance (h : s.Unstuck) {f : Forwarder}
    (hroom : s.KeepsRoom (.advance f : TaskEvent ι μ)) (hnext : s.advance f = some s') :
    s'.Unstuck := by
  unfold Forwarding.advance at hnext
  split at hnext
  · obtain rfl := Option.some.inj hnext
    exact Unstuck.setForwarder (h.congr rfl rfl) (by simp [ForwarderPhase.blockedAt])
  · obtain rfl := Option.some.inj hnext
    exact h.setForwarder (by simp [ForwarderPhase.blockedAt])
  · rename_i channel message messages todo hforwarder
    obtain rfl := Option.some.inj hnext
    cases hsend : s.send f channel message messages todo with
    | some sent => exact h.send hsend
    | none =>
      refine h.setForwarder ?_
      intro blocked hblocked hstalled
      obtain rfl : channel = blocked := Option.some.inj hblocked
      have hfree := hroom channel (by simp [hforwarder, ForwarderPhase.nextChannel]) hstalled
      have hfull := (send_eq_none hsend).2
      omega
  · exact absurd hnext (by simp)

/-- No event that keeps room for the forwarders leaves one stuck. -/
theorem Unstuck.next (h : s.Unstuck) {event : TaskEvent ι μ} (hroom : s.KeepsRoom event)
    (hnext : s.next event = some s') : s'.Unstuck := by
  cases event with
  | controlHandshake i | wake i | leave i | dataHandshake i | dataEnd i | capture | change =>
    simp only [Forwarding.next] at hnext
    split at hnext
    · obtain rfl := Option.some.inj hnext
      exact h.congr rfl rfl
    · exact absurd hnext (by simp)
  | stall i =>
    simp only [Forwarding.next] at hnext
    split at hnext
    · obtain rfl := Option.some.inj hnext
      intro f channel hchannel
      have hne : channel ≠ .data i := by
        rintro rfl
        exact hroom f hchannel
      simp only [Function.update_of_ne hne]
      exact h f channel hchannel
    · exact absurd hnext (by simp)
  | writeError failed =>
    simp only [Forwarding.next] at hnext
    split at hnext
    · obtain rfl := Option.some.inj hnext
      intro f channel hchannel
      by_cases hfailed : channel = failed
      · simp [hfailed]
      · simp only [Function.update_of_ne hfailed]
        exact h f channel hchannel
    · exact absurd hnext (by simp)
  | grantPending =>
    obtain ⟨hforwarder, hwriter⟩ := grantPending_frame hnext
    exact h.congr hforwarder hwriter
  | grantClients order => exact h.grantClients hnext
  | take f isRemote => exact h.take hnext
  | advance f => exact h.advance hroom hnext
  | resume f =>
    simp only [Forwarding.next, Forwarding.resume] at hnext
    split at hnext
    · exact h.send hnext
    · exact absurd hnext (by simp)
  | write channel =>
    simp only [Forwarding.next, Forwarding.write] at hnext
    split at hnext
    · obtain rfl := Option.some.inj hnext
      exact h.congr rfl rfl
    · exact absurd hnext (by simp)

/-- Where every task is blocked and no forwarder is stuck, no forwarder holds the lock. -/
theorem Unstuck.not_holding (h : s.Unstuck) (hquiet : s.Quiescent) (f : Forwarder) :
    (s.forwarder f).holdsClients = none := by
  cases hforwarder : s.forwarder f with
  | idle | waiting => rfl
  | sending todo =>
    have hadvance : s.advance f = none := hquiet (.advance f) rfl
    unfold Forwarding.advance at hadvance
    rw [hforwarder] at hadvance
    cases todo with
    | nil => exact absurd hadvance (by simp)
    | cons head todo =>
      obtain ⟨channel, messages⟩ := head
      cases messages <;> exact absurd hadvance (by simp)
  | blocked channel message messages todo =>
    have hsend : s.send f channel message messages todo = none := by
      have hresume : s.resume f = none := hquiet (.resume f) rfl
      unfold Forwarding.resume at hresume
      rwa [hforwarder] at hresume
    obtain ⟨halive, hfull⟩ := send_eq_none hsend
    have hpos := channel.capacity_pos
    have hwrite : s.write channel = none := hquiet (.write channel) rfl
    unfold Forwarding.write at hwrite
    cases hwriter : s.writer channel with
    | running =>
      rw [hwriter] at hwrite
      cases hqueue : s.queue channel with
      | nil =>
        rw [hqueue] at hfull
        simp only [List.length_nil] at hfull
        omega
      | cons next rest =>
        rw [hqueue] at hwrite
        exact absurd hwrite (by simp)
    | stalled => exact absurd hwriter (h f channel (by rw [hforwarder]; rfl))
    | ended => exact absurd hwriter halive

/-- A blocked server in which no forwarder is stuck owes nobody a lock. -/
theorem Accounted.settled (h : s.Accounted) (hunstuck : s.Unstuck) (hquiet : s.Quiescent) :
    s.Settled := by
  have hclients : ∀ t, s.wantsClients t = none := by
    refine h.clientsLock.wants_eq_none (fun t => ?_) (h.clientsLock_grant hquiet)
    cases t with
    | forwarder f => exact hunstuck.not_holding hquiet f
    | _ => rfl
  -- Who holds `pending_data` waits for the clients.
  have hpending : ∀ t, s.wantsPending t = none := by
    refine h.pendingLock.wants_eq_none (fun t => ?_) (h.pendingLock_grant hquiet)
    cases t with
    | control i =>
      have hwants := hclients (.control i)
      cases hcontrol : s.control i with
      | awaitingClients hello dataTx =>
        rw [(locks_of_control hcontrol).1] at hwants
        exact absurd hwants (by simp [ControlTask.wantsClients])
      | _ => exact (locks_of_control hcontrol).2.2
    | _ => rfl
  have hleaving : ∀ i name, s.control i ≠ .leaving name := by
    intro i name hcontrol
    have hwants := hclients (.control i)
    rw [(locks_of_control hcontrol).1] at hwants
    exact absurd hwants (by simp [ControlTask.wantsClients])
  constructor
  · exact hleaving
  · intro i hello
    constructor
    · intro attempts hcontrol
      have hwants := hpending (.control i)
      rw [(locks_of_control hcontrol).2.1] at hwants
      exact absurd hwants (by simp [ControlTask.wantsPending])
    · intro dataTx hcontrol
      have hwants := hclients (.control i)
      rw [(locks_of_control hcontrol).1] at hwants
      exact absurd hwants (by simp [ControlTask.wantsClients])
  · intro i name hdata
    have hwants : (s.data i).wantsPending = none := hpending (.data i)
    rw [hdata] at hwants
    exact absurd hwants (by simp [DataTask.wantsPending])
  · intro client hclient
    have hlisted := h.listed client hclient
    cases hcontrol : s.control client.controlTx with
    | connected name =>
      rw [hcontrol] at hlisted
      rw [Option.some.inj hlisted]
    | leaving name => exact absurd hcontrol (hleaving _ name)
    | _ =>
      rw [hcontrol] at hlisted
      exact absurd hlisted (by simp [ControlTask.listedName])

/-- **No client holds up the handlers.** In every run from the start in which forwarders find
room at the stalled writers, if every task but the stalled writers is blocked at the end, no
handler still has to remove its client, no connection waits for a lock, and only clients whose
handlers are in their loop are listed. -/
theorem quiescent_settled {events : List (TaskEvent ι μ)}
    (hrun : Run.Along step KeepsRoom (start : Forwarding ι μ) events)
    (hquiet : (events.foldl step (start : Forwarding ι μ)).Quiescent) :
    (events.foldl step (start : Forwarding ι μ)).Settled := by
  obtain ⟨haccounted, hunstuck⟩ : (events.foldl step (start : Forwarding ι μ)).Accounted ∧
      (events.foldl step (start : Forwarding ι μ)).Unstuck := by
    refine hrun.invariant (fun s => s.Accounted ∧ s.Unstuck) ?_ ⟨accounted_start, ?_⟩
    · rintro s event hroom ⟨haccounted, hunstuck⟩
      unfold step
      cases hnext : s.next event with
      | none => exact ⟨haccounted, hunstuck⟩
      | some s' => exact ⟨haccounted.next hnext, hunstuck.next hroom hnext⟩
    · intro f channel hchannel
      exact absurd hchannel (by simp [start, ForwarderPhase.blockedAt])
  exact haccounted.settled hunstuck hquiet

/-- That no task can go on, as a check. -/
def allBlocked [Fintype ι] (s : Forwarding ι μ) : Bool :=
  s.grantPending.isNone && s.clientsLock.grant.isNone &&
    decide (∀ f, (s.advance f).isNone = true ∧ (s.resume f).isNone = true ∧
      ∀ isRemote, (s.take f isRemote).isNone = true) &&
    decide (∀ i, (s.write (.control i)).isNone = true ∧ (s.write (.data i)).isNone = true)

/-- A server that passes the check is blocked. -/
theorem quiescent_of_allBlocked [Fintype ι] (h : s.allBlocked = true) : s.Quiescent := by
  simp only [allBlocked, Bool.and_eq_true, Option.isNone_iff_eq_none, decide_eq_true_eq] at h
  obtain ⟨⟨⟨hpending, hclients⟩, hforwarder⟩, hwrite⟩ := h
  intro event hstep
  cases event with
  | grantPending => exact hpending
  | grantClients order =>
    unfold Forwarding.next Forwarding.grantClients
    simp only [hclients]
  | take f isRemote => exact (hforwarder f).2.2 isRemote
  | advance f => exact (hforwarder f).1
  | resume f => exact (hforwarder f).2.1
  | write channel =>
    cases channel with
    | control i => exact (hwrite i).1
    | data i => exact (hwrite i).2
  | _ => exact absurd hstep (by simp [TaskEvent.isStep])

/-- A client connects, and then stops reading. -/
def laptopStalls : List (TaskEvent (Fin 2) Message) :=
  [.dataHandshake 0 "laptop", .grantPending, .controlHandshake 0 ⟨"laptop", 1920, 1080⟩,
    .grantPending, .grantClients [], .stall 0]

/-- A delta is captured and forwarded to the client. -/
def forwardsDelta : List (TaskEvent (Fin 2) Message) :=
  [.capture (.mouseDelta (.mouseDelta 0 0)), .take .input true,
    .grantClients [⟨"laptop", 0, 0, 1920, 1080⟩], .advance .input, .advance .input, .advance .input]

/-- The client leaves and is removed. -/
def laptopLeaves : List (TaskEvent (Fin 2) Message) := [.leave 0, .grantClients []]

/-- While the channel has room, a client that has stopped reading is removed. -/
theorem quiescent_settled_laptop :
    ((laptopStalls ++ forwardsDelta ++ laptopLeaves).foldl step start).Settled :=
  quiescent_settled (by decide +kernel) (quiescent_of_allBlocked (by decide +kernel))

/-- The client leaves, and another one connects. -/
def deskConnects : List (TaskEvent (Fin 2) Message) :=
  [.leave 0, .dataHandshake 1 "desk", .grantPending, .controlHandshake 1 ⟨"desk", 1920, 1080⟩,
    .grantPending]

/-- The forwarder waits with the sixty-fifth delta while the client leaves and the other one
connects. -/
def heldUp : Forwarding (Fin 2) Message :=
  (laptopStalls ++ (List.replicate 65 forwardsDelta).flatten ++ deskConnects).foldl step start

/-- The server is blocked with its first client still listed and the second one waiting. -/
theorem heldUp_not_settled : ¬ (heldUp.Quiescent → heldUp.Settled) := by
  intro h
  have hsettled := h (quiescent_of_allBlocked (by decide +kernel))
  exact hsettled.removed 0 "laptop" (by decide +kernel)

end Forwarding

end SuperShare
