import SuperShare.Lib.Conveyor
import SuperShare.Network.StalledClient

/-!
# Every client is sent the same

A forwarder sends each of its messages to all clients, one after the other, and may wait for room
in between, while the other forwarder does the same and clients come and go. This file accounts
for every message: what a forwarder has taken for a kind of channel is, in order, what it has
queued for a client and what it still owes this client, for each client that is in the map and
whose writer has not ended. No two clients have a channel in common, so that none is sent a
message twice.
-/

namespace SuperShare

open Conveyor

variable {ι μ : Type}

/-- The channel leads to the control connection. -/
def Outgoing.isControl : Outgoing ι → Bool
  | control _ => true
  | data _ => false

/-- The forwarder whose turn to send an event is. -/
def TaskEvent.sender : TaskEvent ι μ → Option Forwarder
  | advance f | resume f => some f
  | _ => none

/-- A client has one channel of each kind. -/
@[simp] theorem ConnectedClient.isControl_channel (client : ConnectedClient ι) (toControl : Bool) :
    (client.channel toControl).isControl = toControl := by
  cases toControl <;> rfl

namespace Forwarding

/-- The sender of a data connection is kept under the name that the connection has presented. -/
structure Named (s : Forwarding ι μ) (nameOf : ι → String) : Prop where
  data : ∀ i name, s.data i = .awaitingPending name → nameOf i = name
  pending : ∀ name i, s.pendingData name = some i → s.data i ≠ .accepted ∧ nameOf i = name
  registering : ∀ j hello i, s.control j = .awaitingClients hello i →
    s.data i ≠ .accepted ∧ nameOf i = hello.name
  clients : ∀ client ∈ s.clients, s.data client.dataTx ≠ .accepted ∧
    nameOf client.dataTx = client.name
  nodup : (s.clients.map ConnectedClient.name).Nodup

variable {s s' : Forwarding ι μ} {nameOf : ι → String}

/-- No connection has presented a name when the listeners start. -/
theorem named_start (nameOf : ι → String) : (start : Forwarding ι μ).Named nameOf := by
  constructor
  · intro i name hdata
    exact absurd hdata (by simp [start])
  · intro name i hpending
    exact absurd hpending (by simp [start])
  · intro j hello i hcontrol
    exact absurd hcontrol (by simp [start])
  · intro client hclient
    exact absurd hclient List.not_mem_nil
  · exact List.nodup_nil

/-- The names stay as long as no sender comes to a new place. -/
theorem Named.congr (h : s.Named nameOf) (hdata : s'.data = s.data)
    (hpending : ∀ name i, s'.pendingData name = some i → s.pendingData name = some i)
    (hregistering : ∀ j hello i, s'.control j = .awaitingClients hello i →
      s.control j = .awaitingClients hello i)
    (hclients : s'.clients.Sublist s.clients) : s'.Named nameOf := by
  constructor
  · rw [hdata]
    exact h.data
  · rw [hdata]
    exact fun name i hname => h.pending name i (hpending name i hname)
  · rw [hdata]
    exact fun j hello i hcontrol => h.registering j hello i (hregistering j hello i hcontrol)
  · rw [hdata]
    exact fun client hclient => h.clients client (hclients.subset hclient)
  · exact h.nodup.sublist (hclients.map _)

/-- A forwarder that takes a job was idle, and asks for the lock on the clients if there is
something to send. -/
theorem take_eq_some {f : Forwarder} {isRemote : Bool} (hnext : s.take f isRemote = some s') :
    s.forwarder f = .idle ∧ ∃ job t, s.nextJob isRemote f = some (job, t) ∧
      s' = job.elim t (t.askClients f) := by
  unfold take at hnext
  split at hnext
  · rename_i hidle
    split at hnext
    · exact absurd hnext (by simp)
    · rename_i t hjob
      exact ⟨hidle, none, t, hjob, (Option.some.inj hnext).symm⟩
    · rename_i job t hjob
      exact ⟨hidle, some job, t, hjob, (Option.some.inj hnext).symm⟩
  · exact absurd hnext (by simp)

end Forwarding

variable [DecidableEq ι]

/-- What is left to send on a channel. -/
def owedIn (channel : Outgoing ι) (todo : List (Outgoing ι × List μ)) : List μ :=
  (todo.filter fun entry => entry.1 = channel).flatMap Prod.snd

/-- What a forwarder has taken and not yet sent on a channel. -/
def ForwarderPhase.owed (channel : Outgoing ι) : ForwarderPhase ι μ → List μ
  | idle => []
  | waiting job => if job.toControl = channel.isControl then job.messages else []
  | sending todo => owedIn channel todo
  | blocked next message messages todo => owedIn channel ((next, message :: messages) :: todo)

/-- What is left for the first client comes first. -/
theorem owedIn_cons (channel next : Outgoing ι) (messages : List μ)
    (todo : List (Outgoing ι × List μ)) : owedIn channel ((next, messages) :: todo) =
      (if next = channel then messages else []) ++ owedIn channel todo := by
  by_cases h : next = channel
  · simp [owedIn, h]
  · simp [owedIn, h]

namespace Forwarding

/-- What a forwarder takes for a kind of channel at an event. -/
def taken (f : Forwarder) (toControl : Bool) (s : Forwarding ι μ) : TaskEvent ι μ → List μ
  | .take g isRemote =>
      match s.forwarder f, s.nextJob isRemote f with
      | .idle, some (some job, _) =>
          if g = f ∧ job.toControl = toControl then job.messages else []
      | _, _ => []
  | _ => []

/-- What a forwarder queues in a channel at an event. -/
def queued (f : Forwarder) (channel : Outgoing ι) (s : Forwarding ι μ) (event : TaskEvent ι μ) :
    List μ :=
  if event.sender = some f then ((s.step event).queue channel).drop (s.queue channel).length
  else []

/-- A client is in the map, and the writer of its channel has not ended. -/
def Serves (client : ConnectedClient ι) (toControl : Bool) (s : Forwarding ι μ) : Prop :=
  client ∈ s.clients ∧ s.writer (client.channel toControl) ≠ .ended

instance servesDecidable (client : ConnectedClient ι) (toControl : Bool) (s : Forwarding ι μ) :
    Decidable (s.Serves client toControl) :=
  inferInstanceAs (Decidable (_ ∧ _))

variable {s s' : Forwarding ι μ} {nameOf : ι → String}

/-- A handler that goes elsewhere than to the lock on the clients starts no registration. -/
theorem registering_of_update {i j : ι} {phase : ControlTask ι} {hello : Hello} {dataTx : ι}
    (hphase : ∀ hello dataTx, phase ≠ .awaitingClients hello dataTx)
    (hcontrol : Function.update s.control i phase j = .awaitingClients hello dataTx) :
    s.control j = .awaitingClients hello dataTx := by
  by_cases hj : j = i
  · subst hj
    rw [Function.update_self] at hcontrol
    exact absurd hcontrol (hphase hello dataTx)
  · rwa [Function.update_of_ne hj] at hcontrol

/-- A control handler that is let in at `pending_data` may take the sender of its name. -/
theorem Named.pollPending (h : s.Named nameOf) (i : ι) (hello : Hello) (attempts : ℕ) :
    (s.pollPending i hello attempts).Named nameOf := by
  unfold Forwarding.pollPending
  split
  · rename_i dataTx hdataTx
    constructor
    · exact h.data
    · intro name k hname
      by_cases hsame : name = hello.name
      · simp [setControl, hsame] at hname
      · exact h.pending name k (by simpa [setControl, Function.update_of_ne hsame] using hname)
    · intro j hello' k hcontrol
      by_cases hj : j = i
      · subst hj
        simp only [setControl_control, Function.update_self,
          ControlTask.awaitingClients.injEq] at hcontrol
        obtain ⟨rfl, rfl⟩ := hcontrol
        exact h.pending hello.name dataTx hdataTx
      · simp only [setControl_control, Function.update_of_ne hj] at hcontrol
        exact h.registering j hello' k hcontrol
    · exact h.clients
    · exact h.nodup
  · refine h.congr rfl (fun _ _ => id) (fun j hello' k => registering_of_update ?_)
      (List.Sublist.refl _)
    intro hello' k
    split <;> simp

/-- A data handler that is let in at `pending_data` leaves its sender there. -/
theorem Named.leaveSender (h : s.Named nameOf) {i : ι} {name : String}
    (hdata : s.data i = .awaitingPending name) {lock : RwLock (LockTask ι)} :
    ({ s with
      pendingLock := lock
      pendingData := Function.update s.pendingData name (some i) }.setData i
        (.reading name)).Named nameOf := by
  have hpast : ∀ {k}, s.data k ≠ .accepted →
      Function.update s.data i (.reading name) k ≠ .accepted := by
    intro k hk
    by_cases hki : k = i
    · simp [hki]
    · rwa [Function.update_of_ne hki]
  constructor
  · intro k name' hk
    by_cases hki : k = i
    · simp [setData, hki] at hk
    · exact h.data k name' (by simpa [setData, Function.update_of_ne hki] using hk)
  · intro name' k hk
    by_cases hname : name' = name
    · obtain rfl : i = k := by simpa [setData, hname] using hk
      exact ⟨by simp [setData], (h.data i name hdata).trans hname.symm⟩
    · simp only [setData, Function.update_of_ne hname] at hk
      exact ⟨hpast (h.pending name' k hk).1, (h.pending name' k hk).2⟩
  · intro j hello k hcontrol
    exact ⟨hpast (h.registering j hello k hcontrol).1, (h.registering j hello k hcontrol).2⟩
  · intro client hclient
    exact ⟨hpast (h.clients client hclient).1, (h.clients client hclient).2⟩
  · exact h.nodup

/-- A handler that is let in at the clients stores its client under its name. -/
theorem Named.register (h : s.Named nameOf) {i : ι} {hello : Hello} {dataTx : ι}
    (hcontrol : s.control i = .awaitingClients hello dataTx) :
    (s.register i hello dataTx).Named nameOf := by
  constructor
  · exact h.data
  · exact h.pending
  · intro j hello' k hregistering
    exact h.registering j hello' k (registering_of_update (by simp) hregistering)
  · intro client hclient
    rcases List.mem_cons.mp hclient with rfl | hclient
    · exact h.registering i hello dataTx hcontrol
    · exact h.clients client (List.mem_of_mem_filter hclient)
  · have hrest : ((s.clients.filter (·.name ≠ hello.name)).map ConnectedClient.name).Nodup :=
      h.nodup.sublist (List.filter_sublist.map _)
    refine List.nodup_cons.mpr ⟨fun hmem => ?_, hrest⟩
    obtain ⟨client, hclient, hname⟩ := List.mem_map.mp hmem
    exact absurd hname (by simpa using (List.mem_filter.mp hclient).2)

/-- A data handler that presents a name gives its connection this name. -/
theorem Named.present (h : s.Named nameOf) {i : ι} (hdata : s.data i = .accepted) (name : String)
    {lock : RwLock (LockTask ι)} :
    ({ s with pendingLock := lock }.setData i (.awaitingPending name)).Named
      (Function.update nameOf i name) := by
  have hother : ∀ {k name'}, s.data k ≠ .accepted ∧ nameOf k = name' →
      Function.update s.data i (.awaitingPending name) k ≠ .accepted ∧
        Function.update nameOf i name k = name' := by
    rintro k name' ⟨hk, hname⟩
    have hki : k ≠ i := fun heq => hk (heq ▸ hdata)
    rw [Function.update_of_ne hki, Function.update_of_ne hki]
    exact ⟨hk, hname⟩
  constructor
  · intro k name' hk
    by_cases hki : k = i
    · subst hki
      have hname : name = name' := by simpa [setData] using hk
      rw [Function.update_self, hname]
    · rw [Function.update_of_ne hki]
      exact h.data k name' (by simpa [setData, Function.update_of_ne hki] using hk)
  · exact fun name' k hk => hother (h.pending name' k hk)
  · exact fun j hello k hcontrol => hother (h.registering j hello k hcontrol)
  · exact fun client hclient => hother (h.clients client hclient)
  · exact h.nodup

/-- A data connection that ends keeps its name. -/
theorem Named.dataEnd (h : s.Named nameOf) (i : ι) : (s.setData i .closed).Named nameOf := by
  have hpast : ∀ {k}, s.data k ≠ .accepted → Function.update s.data i .closed k ≠ .accepted := by
    intro k hk
    by_cases hki : k = i
    · simp [hki]
    · rwa [Function.update_of_ne hki]
  constructor
  · intro k name hk
    by_cases hki : k = i
    · simp [setData, hki] at hk
    · exact h.data k name (by simpa [setData, Function.update_of_ne hki] using hk)
  · exact fun name k hk => ⟨hpast (h.pending name k hk).1, (h.pending name k hk).2⟩
  · exact fun j hello k hcontrol =>
      ⟨hpast (h.registering j hello k hcontrol).1, (h.registering j hello k hcontrol).2⟩
  · exact fun client hclient =>
      ⟨hpast (h.clients client hclient).1, (h.clients client hclient).2⟩
  · exact h.nodup

/-- The next task is let in at `pending_data`. -/
theorem Named.grantPending (h : s.Named nameOf) (hnext : s.grantPending = some s') :
    s'.Named nameOf := by
  unfold Forwarding.grantPending at hnext
  split at hnext
  · exact absurd hnext (by simp)
  · split at hnext
    · obtain rfl := Option.some.inj hnext
      refine Named.pollPending ?_ _ _ _
      exact h.congr rfl (fun _ _ => id) (fun _ _ _ => id) (List.Sublist.refl _)
    · exact absurd hnext (by simp)
  · split at hnext
    · rename_i name hdata
      obtain rfl := Option.some.inj hnext
      exact h.leaveSender hdata
    · exact absurd hnext (by simp)
  · exact absurd hnext (by simp)

/-- The next task is let in at the clients. -/
theorem Named.grantClients (h : s.Named nameOf) {order : List (ConnectedClient ι)}
    (hnext : s.grantClients order = some s') : s'.Named nameOf := by
  unfold Forwarding.grantClients at hnext
  split at hnext
  · exact absurd hnext (by simp)
  · split at hnext
    · split at hnext
      · obtain rfl := Option.some.inj hnext
        exact ⟨h.data, h.pending, h.registering, h.clients, h.nodup⟩
      · exact absurd hnext (by simp)
    · exact absurd hnext (by simp)
  · split at hnext
    · rename_i hello dataTx hcontrol
      obtain rfl := Option.some.inj hnext
      refine Named.register ?_ hcontrol
      exact h.congr rfl (fun _ _ => id) (fun _ _ _ => id) (List.Sublist.refl _)
    · obtain rfl := Option.some.inj hnext
      exact h.congr rfl (fun _ _ => id) (fun j hello i => registering_of_update (by simp))
        List.filter_sublist
    · exact absurd hnext (by simp)
  · exact absurd hnext (by simp)

/-! ## The steps of a forwarder -/

/-- What a forwarder does when it goes on with its sending. -/
inductive SendStep (s : Forwarding ι μ) (f : Forwarder) : Forwarding ι μ → Prop where
  /-- All clients have been sent to. -/
  | release (hphase : s.forwarder f = .sending []) :
      SendStep s f ({ s with clientsLock := s.clientsLock.release (.forwarder f) }.setForwarder f
        .idle)
  /-- It goes on to the next client, or waits for room. -/
  | move (phase : ForwarderPhase ι μ)
      (howed : ∀ other, phase.owed other = (s.forwarder f).owed other) :
      SendStep s f (s.setForwarder f phase)
  /-- The writer of a client has ended. -/
  | fail (channel : Outgoing ι) (messages : List μ) (todo : List (Outgoing ι × List μ))
      (hended : s.writer channel = .ended)
      (howed : ∀ other, (s.forwarder f).owed other = owedIn other ((channel, messages) :: todo)) :
      SendStep s f (s.setForwarder f (.sending todo))
  /-- A message is queued. -/
  | queue (channel : Outgoing ι) (message : μ) (messages : List μ)
      (todo : List (Outgoing ι × List μ))
      (howed : ∀ other, (s.forwarder f).owed other =
        owedIn other ((channel, message :: messages) :: todo)) :
      SendStep s f ({ s with
        queue := Function.update s.queue channel (s.queue channel ++ [message]) }.setForwarder f
          (.sending ((channel, messages) :: todo)))

/-- Sending a message is such a step. -/
theorem SendStep.of_send {f : Forwarder} {channel : Outgoing ι} {message : μ} {messages : List μ}
    {todo : List (Outgoing ι × List μ)}
    (howed : ∀ other, (s.forwarder f).owed other =
      owedIn other ((channel, message :: messages) :: todo))
    (hsend : s.send f channel message messages todo = some s') : s.SendStep f s' := by
  unfold Forwarding.send at hsend
  split at hsend
  · rename_i hended
    obtain rfl := Option.some.inj hsend
    exact .fail channel (message :: messages) todo hended howed
  · split at hsend
    · obtain rfl := Option.some.inj hsend
      exact .queue channel message messages todo howed
    · exact absurd hsend (by simp)

/-- A turn of a forwarder to send is such a step. -/
theorem sendStep {event : TaskEvent ι μ} {f : Forwarder} (hsender : event.sender = some f)
    (hnext : s.next event = some s') : s.SendStep f s' := by
  cases event with
  | advance g =>
    obtain rfl := Option.some.inj hsender
    simp only [next, advance] at hnext
    split at hnext
    · rename_i hphase
      obtain rfl := Option.some.inj hnext
      exact .release hphase
    · rename_i channel todo hphase
      obtain rfl := Option.some.inj hnext
      refine .move _ fun other => ?_
      rw [hphase, ForwarderPhase.owed, ForwarderPhase.owed, owedIn_cons, ite_self, List.nil_append]
    · rename_i channel message messages todo hphase
      obtain rfl := Option.some.inj hnext
      cases hsend : s.send g channel message messages todo with
      | some sent => exact .of_send (fun other => by rw [hphase, ForwarderPhase.owed]) hsend
      | none =>
        refine .move _ fun other => ?_
        rw [hphase, ForwarderPhase.owed, ForwarderPhase.owed]
    · exact absurd hnext (by simp)
  | resume g =>
    obtain rfl := Option.some.inj hsender
    simp only [next, resume] at hnext
    split at hnext
    · rename_i hphase
      exact .of_send (fun other => by rw [hphase, ForwarderPhase.owed]) hnext
    · exact absurd hnext (by simp)
  | _ => exact absurd hsender (by simp [TaskEvent.sender])

/-- The names stay after every event that is possible, with one more when a connection presents
it. -/
theorem Named.next (h : s.Named nameOf) {event : TaskEvent ι μ} (hnext : s.next event = some s') :
    ∃ nameOf', s'.Named nameOf' := by
  have hsent : ∀ {f}, s.SendStep f s' → s'.Named nameOf := by
    intro f hstep
    cases hstep <;>
      exact h.congr rfl (fun _ _ => id) (fun _ _ _ => id) (List.Sublist.refl _)
  cases event with
  | controlHandshake i | wake i | leave i =>
    simp only [Forwarding.next] at hnext
    split at hnext
    · obtain rfl := Option.some.inj hnext
      exact ⟨nameOf, h.congr rfl (fun _ _ => id)
        (fun j hello i => registering_of_update (by simp)) (List.Sublist.refl _)⟩
    · exact absurd hnext (by simp)
  | dataHandshake i name =>
    simp only [Forwarding.next] at hnext
    split at hnext
    · rename_i hdata
      obtain rfl := Option.some.inj hnext
      exact ⟨Function.update nameOf i name, h.present hdata name⟩
    · exact absurd hnext (by simp)
  | dataEnd i =>
    simp only [Forwarding.next] at hnext
    split at hnext
    · obtain rfl := Option.some.inj hnext
      exact ⟨nameOf, h.dataEnd i⟩
    · exact absurd hnext (by simp)
  | capture | change | stall | writeError =>
    simp only [Forwarding.next] at hnext
    split at hnext
    · obtain rfl := Option.some.inj hnext
      exact ⟨nameOf, h.congr rfl (fun _ _ => id) (fun _ _ _ => id) (List.Sublist.refl _)⟩
    · exact absurd hnext (by simp)
  | write =>
    simp only [Forwarding.next, Forwarding.write] at hnext
    split at hnext
    · obtain rfl := Option.some.inj hnext
      exact ⟨nameOf, h.congr rfl (fun _ _ => id) (fun _ _ _ => id) (List.Sublist.refl _)⟩
    · exact absurd hnext (by simp)
  | grantPending => exact ⟨nameOf, h.grantPending hnext⟩
  | grantClients order => exact ⟨nameOf, h.grantClients hnext⟩
  | take f isRemote =>
    obtain ⟨-, job, t, hjob, rfl⟩ := take_eq_some hnext
    have htaken : t.Named nameOf := by
      rw [nextJob_frame hjob]
      exact h.congr rfl (fun _ _ => id) (fun _ _ _ => id) (List.Sublist.refl _)
    cases job with
    | none => exact ⟨nameOf, htaken⟩
    | some job =>
      exact ⟨nameOf, htaken.congr rfl (fun _ _ => id) (fun _ _ _ => id) (List.Sublist.refl _)⟩
  | advance f => exact ⟨nameOf, hsent (sendStep rfl hnext)⟩
  | resume f => exact ⟨nameOf, hsent (sendStep rfl hnext)⟩

/-! ## What is owed to a client -/

/-- No two clients in the map have a channel in common. -/
theorem Named.eq_of_channel (h : s.Named nameOf) (haccounted : s.Accounted)
    {client client' : ConnectedClient ι} (hclient : client ∈ s.clients)
    (hclient' : client' ∈ s.clients) {toControl toControl' : Bool}
    (hchannel : client'.channel toControl' = client.channel toControl) : client' = client := by
  have hname : client'.name = client.name := by
    cases toControl with
    | true =>
      cases toControl' with
      | true =>
        have htx : client'.controlTx = client.controlTx := Outgoing.control.inj hchannel
        have hlisted := haccounted.listed client hclient
        rw [← htx, haccounted.listed client' hclient'] at hlisted
        exact Option.some.inj hlisted
      | false => exact absurd hchannel (by simp [ConnectedClient.channel])
    | false =>
      cases toControl' with
      | true => exact absurd hchannel (by simp [ConnectedClient.channel])
      | false =>
        have htx : client'.dataTx = client.dataTx := Outgoing.data.inj hchannel
        rw [← (h.clients client hclient).2, ← (h.clients client' hclient').2, htx]
  exact List.inj_on_of_nodup_map h.nodup hclient' hclient hname

/-- A forwarder that is let in at the clients owes each client its job once. -/
theorem Named.owed_sending (h : s.Named nameOf) (haccounted : s.Accounted)
    {client : ConnectedClient ι} (hclient : client ∈ s.clients) {order : List (ConnectedClient ι)}
    (horder : order.Perm s.clients) (toControl : Bool) (job : Job μ) :
    owedIn (client.channel toControl) (order.map fun client' : ConnectedClient ι =>
        (client'.channel job.toControl, job.messages)) =
      if job.toControl = toControl then job.messages else [] := by
  have hmem : client ∈ order := horder.mem_iff.mpr hclient
  have hnodup : order.Nodup := horder.symm.nodup h.nodup.of_map
  rw [owedIn, List.filter_map]
  by_cases hkind : job.toControl = toControl
  · have hfilter : order.filter ((fun entry : Outgoing ι × List μ =>
        decide (entry.1 = client.channel toControl)) ∘ fun client' : ConnectedClient ι =>
          (client'.channel job.toControl, job.messages)) = order.filter (· = client) := by
      refine List.filter_congr fun client' hclient' => decide_eq_decide.mpr ⟨fun hchannel => ?_, ?_⟩
      · exact h.eq_of_channel haccounted hclient (horder.mem_iff.mp hclient') hchannel
      · rintro rfl
        rw [hkind]
    rw [hfilter, List.filter_eq, List.count_eq_one_of_mem hnodup hmem, if_pos hkind]
    simp
  · have hnone : order.filter ((fun entry : Outgoing ι × List μ =>
        decide (entry.1 = client.channel toControl)) ∘ fun client' : ConnectedClient ι =>
          (client'.channel job.toControl, job.messages)) = [] := by
      refine List.filter_eq_nil_iff.mpr fun client' _ hchannel => hkind ?_
      have hsame := congrArg Outgoing.isControl (of_decide_eq_true hchannel)
      simpa using hsame
    rw [hnone, if_neg hkind]
    rfl

/-- No other event moves a forwarder. -/
theorem forwarder_of_next {event : TaskEvent ι μ} (hnext : s.next event = some s')
    (hsender : event.sender = none) (htake : ∀ f isRemote, event ≠ .take f isRemote)
    (hgrant : ∀ order, event ≠ .grantClients order) : s'.forwarder = s.forwarder := by
  cases event with
  | controlHandshake | wake | leave | dataHandshake | dataEnd | capture | change | stall
  | writeError =>
    simp only [next] at hnext
    split at hnext
    · obtain rfl := Option.some.inj hnext
      rfl
    · exact absurd hnext (by simp)
  | write =>
    simp only [next, write] at hnext
    split at hnext
    · obtain rfl := Option.some.inj hnext
      rfl
    · exact absurd hnext (by simp)
  | grantPending => exact (grantPending_frame hnext).1
  | grantClients order => exact absurd rfl (hgrant order)
  | take f isRemote => exact absurd rfl (htake f isRemote)
  | advance f | resume f => exact absurd hsender (by simp [TaskEvent.sender])

variable {client : ConnectedClient ι} {toControl : Bool} {f : Forwarder}

/-- What a forwarder owes on a channel whose writer has not ended, it goes on to owe until it
queues it. -/
theorem SendStep.owed {channel : Outgoing ι} (h : s.SendStep f s')
    (hwriter : s.writer channel ≠ .ended) :
    (s.forwarder f).owed channel =
      (s'.queue channel).drop (s.queue channel).length ++ (s'.forwarder f).owed channel := by
  cases h with
  | release hphase => simp [setForwarder, hphase, ForwarderPhase.owed, owedIn]
  | move phase howed => simp [setForwarder, howed]
  | fail next messages todo hended howed =>
    have hne : next ≠ channel := fun heq => hwriter (heq ▸ hended)
    rw [howed, owedIn_cons, if_neg hne]
    simp [setForwarder, ForwarderPhase.owed]
  | queue next message messages todo howed =>
    rw [howed, owedIn_cons]
    by_cases heq : next = channel
    · subst heq
      simp [setForwarder, ForwarderPhase.owed, owedIn_cons]
    · simp [setForwarder, ForwarderPhase.owed, owedIn_cons, heq,
        Function.update_of_ne (Ne.symm heq)]

/-- A forwarder that moves is another one, or the one looked at. -/
theorem SendStep.forwarder_of_ne {g : Forwarder} (h : s.SendStep g s') (hne : f ≠ g) :
    s'.forwarder f = s.forwarder f := by
  cases h <;> exact Function.update_of_ne hne _ _

/-- What a forwarder takes it owes. -/
theorem owed_take {g : Forwarder} {isRemote : Bool} (hnext : s.take g isRemote = some s') :
    (s'.forwarder f).owed (client.channel toControl) =
      (s.forwarder f).owed (client.channel toControl) ++
        s.taken f toControl (.take g isRemote) := by
  obtain ⟨hidle, job, t, hjob, rfl⟩ := take_eq_some hnext
  have hforwarder : t.forwarder = s.forwarder := by rw [nextJob_frame hjob]
  by_cases hfg : f = g
  · subst hfg
    cases job with
    | none => simp [taken, hidle, hjob, hforwarder]
    | some job =>
      simp [taken, hidle, hjob, askClients, setForwarder, ForwarderPhase.owed]
  · have htaken : s.taken f toControl (.take g isRemote) = [] := by
      simp only [taken]
      split
      · rw [if_neg (fun h => hfg h.1.symm)]
      · rfl
    cases job with
    | none => simp [htaken, hforwarder]
    | some job =>
      simp [htaken, askClients, setForwarder, hforwarder, Function.update_of_ne hfg]

/-- A forwarder that is let in at the clients owes a client in the map as much as before. -/
theorem owed_grantClients (hnamed : s.Named nameOf) (haccounted : s.Accounted)
    (hclient : client ∈ s.clients) {order : List (ConnectedClient ι)}
    (hnext : s.grantClients order = some s') :
    (s'.forwarder f).owed (client.channel toControl) =
      (s.forwarder f).owed (client.channel toControl) := by
  unfold grantClients at hnext
  split at hnext
  · exact absurd hnext (by simp)
  · rename_i g _ _ _
    split at hnext
    · rename_i job hwaiting
      split at hnext
      · rename_i horder
        obtain rfl := Option.some.inj hnext
        by_cases hfg : f = g
        · subst hfg
          simp only [setForwarder, Function.update_self, hwaiting, ForwarderPhase.owed,
            hnamed.owed_sending haccounted hclient horder, ConnectedClient.isControl_channel]
        · simp only [setForwarder, Function.update_of_ne hfg]
      · exact absurd hnext (by simp)
    · exact absurd hnext (by simp)
  · split at hnext
    · obtain rfl := Option.some.inj hnext
      rfl
    · obtain rfl := Option.some.inj hnext
      rfl
    · exact absurd hnext (by simp)
  · exact absurd hnext (by simp)

/-- What is taken at an event is owed after it, but for what is queued. -/
theorem owed_step (hnamed : s.Named nameOf) (haccounted : s.Accounted)
    (hserves : s.Serves client toControl) (f : Forwarder) (event : TaskEvent ι μ) :
    (s.forwarder f).owed (client.channel toControl) ++ s.taken f toControl event =
      s.queued f (client.channel toControl) event ++
        ((s.step event).forwarder f).owed (client.channel toControl) := by
  unfold step
  cases hnext : s.next event with
  | none =>
    -- Nothing can be taken when the event is not possible.
    have hqueued : s.queued f (client.channel toControl) event = [] := by
      simp [queued, step, hnext]
    have htaken : s.taken f toControl event = [] := by
      cases event with
      | take g isRemote =>
        simp only [taken]
        split
        · rename_i hidle hjob
          refine if_neg fun hsame => ?_
          obtain ⟨rfl, -⟩ := hsame
          simp [next, take, hidle, hjob] at hnext
        · rfl
      | _ => rfl
    rw [hqueued, htaken]
    exact List.append_nil _
  | some s' =>
    have hstep : s.step event = s' := by rw [step, hnext, Option.getD_some]
    rw [Option.getD_some]
    cases hsender : event.sender with
    | some g =>
      have htaken : s.taken f toControl event = [] := by
        cases event with
        | take => exact absurd hsender (by simp [TaskEvent.sender])
        | _ => rfl
      have hmoves := sendStep hsender hnext
      rw [htaken, List.append_nil, queued, hsender, hstep]
      by_cases hfg : f = g
      · subst hfg
        rw [if_pos rfl]
        exact hmoves.owed hserves.2
      · have hne : some g ≠ some f := fun heq => hfg (Option.some.inj heq).symm
        rw [if_neg hne, hmoves.forwarder_of_ne hfg, List.nil_append]
    | none =>
      have hqueued : s.queued f (client.channel toControl) event = [] := by
        simp [queued, hsender]
      rw [hqueued, List.nil_append]
      cases event with
      | take g isRemote => exact (owed_take hnext).symm
      | grantClients order =>
        rw [owed_grantClients hnamed haccounted hserves.1 hnext]
        exact List.append_nil _
      | _ =>
        rw [forwarder_of_next hnext hsender (by simp) (by simp)]
        exact List.append_nil _

/-! ## Runs -/

/-- The locks are accounted for, and the data connections have names. -/
def Identified (s : Forwarding ι μ) : Prop := s.Accounted ∧ ∃ nameOf, s.Named nameOf

/-- Every event keeps it so. -/
theorem Identified.step (h : s.Identified) (event : TaskEvent ι μ) :
    (s.step event).Identified := by
  obtain ⟨haccounted, nameOf, hnamed⟩ := h
  unfold Forwarding.step
  cases hnext : s.next event with
  | none => exact ⟨haccounted, nameOf, hnamed⟩
  | some s' => exact ⟨haccounted.next hnext, hnamed.next hnext⟩

/-- It is so in every state reached. -/
theorem identified_run (events : List (TaskEvent ι μ)) :
    (events.foldl step (start : Forwarding ι μ)).Identified := by
  have hstart : (start : Forwarding ι μ).Identified := ⟨accounted_start, fun _ => "", named_start _⟩
  exact List.foldlRecOn events step hstart fun s h event _ => h.step event

/-- **In order and once.** In every run, for a client that is in the map all along a part of it
with a writer that does not end, what a forwarder owes it at first and then takes is, in this
order, what it queues for the client and owes it in the end. -/
theorem served_in_order (before : List (TaskEvent ι μ)) {during : List (TaskEvent ι μ)}
    (hserves : Run.Along step (fun s _ => s.Serves client toControl)
      (before.foldl step start) during) (f : Forwarder) :
    Conserved
      (((before.foldl step start).forwarder f).owed (client.channel toControl) ++
        collect step (taken f toControl) (before.foldl step start) during)
      (((during.foldl step (before.foldl step start)).forwarder f).owed (client.channel toControl))
      (collect step (queued f (client.channel toControl)) (before.foldl step start) during) := by
  refine conserved_collect Identified
    (fun s : Forwarding ι μ => (s.forwarder f).owed (client.channel toControl))
    (fun s event h => h.step event) ?_ (identified_run before) hserves
  rintro s event hserves ⟨haccounted, nameOf, hnamed⟩
  exact owed_step hnamed haccounted hserves f event

/-- **Every client is sent the same.** Of two clients that stay in the map while a forwarder, idle
at first, goes on, with writers that do not end, one has been sent the first part of what the other
has. Whenever the forwarder is idle again, both have been sent all that it has taken, in order. -/
theorem clients_agree (before : List (TaskEvent ι μ)) {during : List (TaskEvent ι μ)}
    {client' : ConnectedClient ι} {f : Forwarder}
    (hidle : (before.foldl step (start : Forwarding ι μ)).forwarder f = .idle)
    (hserves : Run.Along step (fun s _ => s.Serves client toControl)
      (before.foldl step start) during)
    (hserves' : Run.Along step (fun s _ => s.Serves client' toControl)
      (before.foldl step start) during) :
    let s : Forwarding ι μ := before.foldl step start
    let sent := collect step (queued f (client.channel toControl)) s during
    let sent' := collect step (queued f (client'.channel toControl)) s during
    (sent <+: sent' ∨ sent' <+: sent) ∧
      ((during.foldl step s).forwarder f = .idle →
        sent = collect step (taken f toControl) s during ∧
          sent' = collect step (taken f toControl) s during) := by
  intro s sent sent'
  have horder := served_in_order before hserves f
  have horder' := served_in_order before hserves' f
  rw [hidle, ForwarderPhase.owed, List.nil_append] at horder horder'
  refine ⟨List.prefix_or_prefix_of_prefix horder.isPrefix horder'.isPrefix, fun hdone => ?_⟩
  exact ⟨horder.drained (by rw [hdone, ForwarderPhase.owed]),
    horder'.drained (by rw [hdone, ForwarderPhase.owed])⟩

/-- A laptop, with the channels of its connections. -/
def laptop : ConnectedClient ℕ := ⟨"laptop", 0, 0, 1920, 1080⟩

/-- A tablet, with the channels of its connections. -/
def tablet : ConnectedClient ℕ := ⟨"tablet", 1, 1, 1280, 800⟩

/-- Both clients connect. -/
def bothConnect : List (TaskEvent ℕ Message) :=
  [.dataHandshake 0 "laptop", .grantPending, .controlHandshake 0 ⟨"laptop", 1920, 1080⟩,
    .grantPending, .grantClients [], .dataHandshake 1 "tablet", .grantPending,
    .controlHandshake 1 ⟨"tablet", 1280, 800⟩, .grantPending, .grantClients []]

/-- A delta and a copied text are forwarded, the one to the laptop first and the other to the
tablet. -/
def deltaAndText : List (TaskEvent ℕ Message) :=
  [.capture (.mouseDelta (.mouseDelta 0 0)), .change (some [.clipboardData .text []]),
    .take .input true, .take .clipboard true, .grantClients [laptop, tablet],
    .grantClients [tablet, laptop], .advance .input, .advance .clipboard, .advance .input,
    .advance .clipboard, .advance .input, .advance .clipboard, .advance .input, .advance .clipboard,
    .advance .input, .advance .clipboard]

/-- Both clients are sent the delta. -/
theorem clients_agree_deltaAndText :
    let s : Forwarding ℕ Message := bothConnect.foldl step start
    let sent := collect step (queued .input (laptop.channel false)) s deltaAndText
    let sent' := collect step (queued .input (tablet.channel false)) s deltaAndText
    (sent <+: sent' ∨ sent' <+: sent) ∧
      ((deltaAndText.foldl step s).forwarder .input = .idle →
        sent = collect step (taken .input false) s deltaAndText ∧
          sent' = collect step (taken .input false) s deltaAndText) :=
  clients_agree bothConnect (by rfl) (by decide) (by decide)

-- The order of messages of different forwarders is not the same.
example :
    let s : Forwarding ℕ Message := deltaAndText.foldl step (bothConnect.foldl step start)
    s.queue (.data 0) = [.mouseDelta 0 0, .clipboardData .text []] ∧
      s.queue (.data 1) = [.clipboardData .text [], .mouseDelta 0 0] := by
  decide

end Forwarding

end SuperShare
