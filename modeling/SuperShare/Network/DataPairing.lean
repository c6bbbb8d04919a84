import SuperShare.Network.Server
import Mathlib.Data.Fintype.Basic

/-!
# Matching data channels to clients

The control and the data connection of a session meet only through `pending_data`, a map
from the device name to a sender. A control handler that gives up leaves the entry of its
session behind, and a data connection adds its entry whoever waits. When neither puts two
sessions of one name in each other's way, every client gets the data channel of its own
session. Otherwise a stale entry goes to the next session of the name.
-/

namespace SuperShare

variable {ι : Type}

/-- The handshake of a control handler that waits for its data channel. -/
def ControlPhase.waitingHello : ControlPhase → Option Hello
  | waiting hello _ => some hello
  | _ => none

/-- The handshake of a control handler that has yet to write its `ScreenConfig`. -/
def ControlPhase.configuringHello : ControlPhase → Option Hello
  | configuring hello => some hello
  | _ => none

/-- What the client's `connect` sends: the same device name and screen on both connections,
and the data connection after the `ScreenConfig` has come. -/
def ClientConnects (config : ι → Hello) (s : Server ι) : ServerStep ι → Prop
  | .controlHandshake i msg => msg = none ∨
      msg = some (.handshake 1 (config i).name (config i).screenWidth (config i).screenHeight)
  | .dataHandshake i msg => msg = none ∨
      (msg = some (.handshake 1 (config i).name (config i).screenWidth (config i).screenHeight) ∧
        s.control i ≠ .accepted ∧ (s.control i).configuringHello = none)
  | _ => True

instance (config : ι → Hello) (s : Server ι) : ∀ event, Decidable (ClientConnects config s event)
  | .controlHandshake .. => inferInstanceAs (Decidable (_ ∨ _))
  | .dataHandshake .. => inferInstanceAs (Decidable (_ ∨ _ ∧ _ ∧ _))
  | .screenConfig .. | .poll _ | .announce _ | .controlMessage .. | .cleanup _ | .depart _
  | .dataMessage .. | .paired _ | .processEvent => isTrue trivial

namespace Server

/-- Two sessions of one name do not meet in `pending_data`: when a control handler starts to
wait, no data channel of another session is pending under its name, and when a data channel
becomes pending, no control handler of another session waits under its name. -/
def NamesApart (s : Server ι) : ServerStep ι → Prop
  | .screenConfig i written => written = true → ∀ hello ∈ (s.control i).configuringHello,
      ∀ j ∈ s.pendingData hello.name, j = i
  | .dataHandshake i msg => s.data i = .accepted → ∀ name ∈ dataName msg,
      ∀ j, ∀ hello ∈ (s.control j).waitingHello, hello.name = name → j = i
  | _ => True

instance [Fintype ι] [DecidableEq ι] (s : Server ι) : ∀ event, Decidable (s.NamesApart event)
  | .screenConfig .. => inferInstanceAs (Decidable (_ → ∀ _ ∈ _, _))
  | .dataHandshake .. => inferInstanceAs (Decidable (_ → ∀ _ ∈ _, _))
  | .controlHandshake .. | .poll _ | .announce _ | .controlMessage .. | .cleanup _ | .depart _
  | .dataMessage .. | .paired _ | .processEvent => isTrue trivial

/-- Every client ever registered has the data channel of its own session, and a channel that
a waiting handler can find is its own. -/
structure Paired (s : Server ι) : Prop where
  registrations : ∀ client ∈ s.registrations, client.dataTx = client.controlTx
  past : ∀ client ∈ s.registrations, (s.control client.controlTx).hasRegistered = true
  clients : ∀ name, ∀ client ∈ s.clients name, client ∈ s.registrations
  pending : ∀ i, ∀ hello ∈ (s.control i).waitingHello, ∀ j ∈ s.pendingData hello.name, j = i

variable {s s' : Server ι}

/-- No client is registered at the start. -/
theorem paired_start : Paired (start : Server ι) where
  registrations := by simp [start]
  past := by simp [start]
  clients := by simp [start]
  pending := by simp [start]

/-- Only the handlers and the maps of the two sides matter. -/
theorem Paired.congr (h : Paired s) (hcontrol : s'.control = s.control)
    (hregistrations : s'.registrations = s.registrations) (hclients : s'.clients = s.clients)
    (hpending : s'.pendingData = s.pendingData) : Paired s' := by
  constructor
  · rw [hregistrations]
    exact h.registrations
  · rw [hregistrations, hcontrol]
    exact h.past
  · rw [hregistrations, hclients]
    exact h.clients
  · rw [hcontrol, hpending]
    exact h.pending

variable [DecidableEq ι]

/-- A handler may move as long as it does not forget its client, and finds only its own
data channel if it waits. -/
theorem Paired.setControl (h : Paired s) {i : ι} {phase : ControlPhase}
    (hreg : (s.control i).hasRegistered = true → phase.hasRegistered = true)
    (hwait : ∀ hello ∈ phase.waitingHello, ∀ j ∈ s.pendingData hello.name, j = i) :
    Paired (s.setControl i phase) := by
  refine ⟨h.registrations, ?_, h.clients, ?_⟩
  · intro client hclient
    rw [setControl_control]
    have hpast := h.past client hclient
    by_cases hi : client.controlTx = i
    · rw [hi] at hpast ⊢
      rw [Function.update_self]
      exact hreg hpast
    · rwa [Function.update_of_ne hi]
  · intro j hello hhello
    rw [setControl_control] at hhello
    by_cases hj : j = i
    · subst hj
      rw [Function.update_self] at hhello
      exact hwait hello hhello
    · rw [Function.update_of_ne hj] at hhello
      exact h.pending j hello hhello

/-- The channel that a waiting handler takes is that of its session. -/
theorem Paired.register (h : Paired s) {i dataTx : ι} {attempts : ℕ} {hello : Hello}
    (hphase : s.control i = .waiting hello attempts)
    (hpending : s.pendingData hello.name = some dataTx) : Paired (s.register i hello dataTx) := by
  have hown : dataTx = i := h.pending i hello (by rw [hphase]; rfl) dataTx hpending
  constructor
  · intro client hclient
    rcases List.mem_cons.mp hclient with rfl | hclient
    · exact hown
    · exact h.registrations client hclient
  · intro client hclient
    rw [register_control]
    by_cases hi : client.controlTx = i
    · rw [hi, Function.update_self]
      rfl
    · rw [Function.update_of_ne hi]
      rcases List.mem_cons.mp hclient with rfl | hclient
      · exact absurd rfl hi
      · exact h.past client hclient
  · intro name client hclient
    rw [register_registrations]
    by_cases hname : name = hello.name
    · subst hname
      simp only [Server.register, Function.update_self, Option.mem_def,
        Option.some.injEq] at hclient
      exact hclient ▸ List.mem_cons_self
    · simp only [Server.register, Function.update_of_ne hname] at hclient
      exact List.mem_cons_of_mem _ (h.clients name client hclient)
  · intro j other hother k hk
    rw [register_control] at hother
    by_cases hj : j = i
    · subst hj
      simp [ControlPhase.waitingHello] at hother
    · rw [Function.update_of_ne hj] at hother
      by_cases hname : other.name = hello.name
      · simp [Server.register, hname] at hk
      · simp only [Server.register, Function.update_of_ne hname] at hk
        exact h.pending j other hother k hk

/-- A move in which the sessions of a name stay apart keeps every channel with its session. -/
theorem Paired.moves (h : Paired s) {event : ServerStep ι} (hmove : s.Moves event s')
    (hapart : NamesApart s event) : Paired s' := by
  cases hmove with
  | stay => exact h
  | @early _ i phase hfrom hto hwait =>
    refine h.setControl (fun hreg => by rw [hfrom] at hreg; exact absurd hreg (by simp)) ?_
    intro hello hhello j hj
    cases phase with
    | waiting own attempts =>
      obtain rfl : own = hello := Option.some.inj hhello
      rcases hwait own attempts rfl with ⟨before, hbefore⟩ | ⟨rfl, hconfiguring⟩
      · exact h.pending i own (by rw [hbefore]; rfl) j hj
      · exact hapart rfl own (by rw [hconfiguring]; rfl) j hj
    | _ => exact absurd hhello (by simp [ControlPhase.waitingHello])
  | register hphase hpending => exact h.register hphase hpending
  | announce hphase =>
    exact (h.congr (s.notify_control _) (s.notify_registrations _) (s.notify_clients _)
      (s.notify_pendingData _)).setControl (fun _ => rfl) (by simp [ControlPhase.waitingHello])
  | leave hphase => exact h.setControl (fun _ => rfl) (by simp [ControlPhase.waitingHello])
  | @cleanup i name hphase =>
    have hmoved : Paired (s.setControl i (.removed name)) :=
      h.setControl (fun _ => rfl) (by simp [ControlPhase.waitingHello])
    refine ⟨hmoved.registrations, hmoved.past, ?_, hmoved.pending⟩
    intro other client hclient
    by_cases hother : other = name
    · simp [hother] at hclient
    · simp only [Function.update_of_ne hother] at hclient
      exact h.clients other client hclient
  | depart hphase =>
    exact (h.congr (s.notify_control _) (s.notify_registrations _) (s.notify_clients _)
      (s.notify_pendingData _)).setControl (fun _ => rfl) (by simp [ControlPhase.waitingHello])
  | @dataHandshake i msg name haccepted hname =>
    refine ⟨h.registrations, h.past, h.clients, ?_⟩
    intro j hello hhello k hk
    by_cases hsame : hello.name = name
    · have hki : k = i := by simpa [hsame, eq_comm] using hk
      rw [hki]
      exact (hapart haccepted name hname j hello hhello hsame).symm
    · simp only [Function.update_of_ne hsame] at hk
      exact h.pending j hello hhello k hk
  | dataClose => exact h.congr rfl rfl rfl rfl
  | forward _ => exact h.congr rfl rfl rfl rfl
  | paired name =>
    exact h.congr (s.notify_control _) (s.notify_registrations _) (s.notify_clients _)
      (s.notify_pendingData _)
  | process _ _ =>
    exact h.congr (handleEvent_control _ _) (handleEvent_registrations _ _)
      (handleEvent_clients _ _) (handleEvent_pendingData _ _)

end Server

/-- **Matching data channels.** In every run in which the sessions of one name stay apart in
`pending_data`, every client that is or ever was in the map has the data channel of the
session of its control connection, and no channel of a session whose control handler gave
up was attached to a client. -/
theorem dataTx_of_own_session [DecidableEq ι] {events : List (ServerStep ι)}
    (hapart : Run.Along Server.step Server.NamesApart .start events) :
    let s := events.foldl Server.step .start
    (∀ client ∈ s.registrations, client.dataTx = client.controlTx) ∧
      (∀ name, ∀ client ∈ s.clients name, client.dataTx = client.controlTx) ∧
      (∀ client ∈ s.registrations, s.control client.dataTx ≠ .gaveUp) := by
  intro s
  have h : s.Paired := hapart.invariant Server.Paired
    (fun s event hok h => h.moves (s.moves_step event) hok) Server.paired_start
  refine ⟨h.registrations, ?_, ?_⟩
  · intro name client hclient
    exact h.registrations client (h.clients name client hclient)
  · intro client hclient hgaveUp
    have hpast := h.past client hclient
    rw [← h.registrations client hclient, hgaveUp] at hpast
    exact absurd hpast (by simp [ControlPhase.hasRegistered])

/-- A session that connects, ends and is followed by another one of the same name. -/
theorem dataTx_of_own_session_reconnect :
    let hello : Option Message := some (.handshake 1 "laptop" 1920 1080)
    let connect (i : Fin 2) : List (ServerStep (Fin 2)) := [.controlHandshake i hello,
      .screenConfig i true, .poll i, .dataHandshake i hello, .poll i, .announce i]
    let events := connect 0 ++ [.controlMessage 0 none, .cleanup 0, .depart 0] ++ connect 1
    (events.foldl Server.step .start).registrations.length = 2 ∧
      ∀ client ∈ (events.foldl Server.step .start).registrations,
        client.dataTx = client.controlTx := by
  intro hello connect events
  have hapart : Run.Along Server.step Server.NamesApart .start events := by decide +kernel
  exact ⟨by decide +kernel, (dataTx_of_own_session hapart).1⟩

/-- A session whose control handler has given up when its data channel arrives leaves that
channel to the next session of the name: the client in the map is fed by the wrong one. -/
theorem dataTx_of_stale_session :
    let config (_ : Fin 2) : Hello := ⟨"laptop", 1920, 1080⟩
    let hello : Option Message := some (.handshake 1 "laptop" 1920 1080)
    let events : List (ServerStep (Fin 2)) :=
      [.controlHandshake 0 hello, .screenConfig 0 true] ++ List.replicate 51 (.poll 0) ++
        [.dataHandshake 0 hello, .controlHandshake 1 hello, .screenConfig 1 true, .poll 1]
    let s := events.foldl Server.step .start
    Run.Along Server.step (ClientConnects config) .start events ∧ s.control 0 = .gaveUp ∧
      s.clients "laptop" = some ⟨"laptop", 1, 0, 1920, 1080⟩ := by
  decide +kernel

end SuperShare
