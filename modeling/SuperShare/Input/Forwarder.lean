import SuperShare.Input.WarpCapture
import Mathlib.Data.Finset.Basic
import Mathlib.Data.Finset.Empty
import Mathlib.Logic.Function.Basic

/-!
# From the capture callback to the clients

The callback puts the events that it suppresses on a bounded channel without waiting, and the
input forwarder takes them from it and sends them to the clients. The mode is looked at twice:
by the callback, and by the forwarder when it has taken a button, key or wheel event. The two
run at the same time, and `exit_remote`, `has_client` and the clients change between any two of
their steps.
-/

namespace SuperShare

variable {α φ κ ι : Type}

/-- Capacity of the channel of captured events. -/
def captureCapacity : ℕ := 256

/-- A button, a key or the wheel: the forwarder checks the mode before it forwards the event. -/
def WarpInputEvent.isDiscrete : WarpInputEvent φ → Bool
  | mouseButton .. | keyPress .. | scroll .. => true
  | mouseDelta .. | boundaryEnter .. => false

/-- The event as it is captured in remote mode, if it is a mapped button, a key or the wheel. -/
def EventType.captured [CursorNumber α φ] (lib : KeyLib κ) :
    EventType α κ → Option (WarpInputEvent φ)
  | mouseMove .. => none
  | buttonPress button => (mapButton button).map fun b => .mouseButton b true
  | buttonRelease button => (mapButton button).map fun b => .mouseButton b false
  | wheel deltaX deltaY =>
      some (.scroll (CursorNumber.ofWheel α deltaX) (CursorNumber.ofWheel α deltaY))
  | keyPress key => some (.keyPress (lib.keyToU32 key) true)
  | keyRelease key => some (.keyPress (lib.keyToU32 key) false)

/-- A captured event with the number of the run of the callback that captured it. -/
structure Captured (φ : Type) where
  number : ℕ
  event : WarpInputEvent φ
  deriving DecidableEq

/-- The buttons, keys and wheel events among captured events. -/
def discrete (events : List (Captured φ)) : List (Captured φ) :=
  events.filter fun e => e.event.isDiscrete

/-- Where the input forwarder stands. -/
inductive InputForwarderPhase (φ ι : Type) where
  /-- It waits for an event. -/
  | receiving
  /-- It has taken an event and not looked at the mode. -/
  | received (e : Captured φ)
  /-- It asks for the read lock on the clients. -/
  | locking (e : Captured φ)
  /-- It holds the lock and has the event still to send to some of the clients. -/
  | sending (e : Captured φ) (rest : Finset ι)

/-- The callback, the channel, the forwarder and what others change. The last fields record
what happened and are read by no step. -/
structure ForwardState (α φ κ ι : Type) where
  callback : CallbackState α
  /-- The event under way in the callback, whose exit check is done. -/
  handling : Option (EventType α κ)
  exitRemote : Bool
  hasClient : Bool
  channel : List (Captured φ)
  forwarder : InputForwarderPhase φ ι
  /-- The registered clients. -/
  clients : Finset ι
  /-- How many events the callback has handled. -/
  captures : ℕ
  /-- The mapped buttons, keys and wheel events that were suppressed, the oldest first. -/
  suppressed : List (Captured φ)
  /-- The numbers of the events that passed to the local machine. -/
  passed : List ℕ
  /-- The buttons, keys and wheel events handled by the forwarder, with the clients that were
  registered then. -/
  handled : List (Captured φ × Finset ι)
  /-- What was queued on the control channel of a client. -/
  controlSent : ι → List (Captured φ)
  /-- What was queued on the data channel of a client. -/
  dataSent : ι → List (Captured φ)

/-- A step of the callback or of the forwarder, or a change that others make. -/
inductive ForwardEvent (α κ ι : Type) where
  | setExitRemote
  | setHasClient (value : Bool)
  | setClients (clients : Finset ι)
  /-- An event reaches the callback, which makes its exit check. -/
  | input (event : EventType α κ)
  /-- The callback handles the event. -/
  | capture
  /-- The forwarder takes the next event. -/
  | receive
  /-- It looks at the mode. -/
  | check
  /-- It gets the read lock on the clients. -/
  | lock
  /-- A send to a client completes; it fails if the receiver is gone. -/
  | send (client : ι) (delivered : Bool)
  /-- It has sent to every client. -/
  | unlock

namespace ForwardState

/-- The event that the forwarder has taken and not come to send. -/
def inHand (s : ForwardState α φ κ ι) : List (Captured φ) :=
  match s.forwarder with
  | .received e | .locking e => [e]
  | .receiving | .sending .. => []

variable [DecidableEq ι]

/-- The button, key or wheel event that is still to be sent to a client. -/
def awaited (s : ForwardState α φ κ ι) (client : ι) : List (Captured φ) :=
  match s.forwarder with
  | .sending e rest => if client ∈ rest then discrete [e] else []
  | _ => []

/-- Queue an event for a client: an entry goes to the control channel. -/
def queue (s : ForwardState α φ κ ι) (client : ι) (e : Captured φ) : ForwardState α φ κ ι :=
  if e.event.isEnter then
    { s with controlSent := Function.update s.controlSent client (s.controlSent client ++ [e]) }
  else { s with dataSent := Function.update s.dataSent client (s.dataSent client ++ [e]) }

variable [CursorNumber α φ]

/-- The capture starts. -/
def start (screenWidth screenHeight : UInt32) : ForwardState α φ κ ι where
  callback := .start screenWidth screenHeight
  handling := none
  exitRemote := false
  hasClient := false
  channel := []
  forwarder := .receiving
  clients := ∅
  captures := 0
  suppressed := []
  passed := []
  handled := []
  controlSent := fun _ => []
  dataSent := fun _ => []

/-- The callback handles the event under way. What it sends is lost if the channel is full. -/
def capture (lib : KeyLib κ) (s : ForwardState α φ κ ι) (event : EventType α κ) :
    ForwardState α φ κ ι :=
  let (callback, pass, sent) := s.callback.handle lib s.hasClient event
  let number (e : WarpInputEvent φ) : Captured φ := ⟨s.captures, e⟩
  { s with
    callback := callback
    handling := none
    channel := if s.channel.length < captureCapacity then s.channel ++ sent.toList.map number
      else s.channel
    captures := s.captures + 1
    suppressed := if pass then s.suppressed
      else s.suppressed ++ (event.captured lib).toList.map number
    passed := if pass then s.passed ++ [s.captures] else s.passed }

/-- The state after an event. A step that cannot be taken changes nothing. The clients do not
change while the forwarder holds the lock. -/
def step (lib : KeyLib κ) (s : ForwardState α φ κ ι) : ForwardEvent α κ ι → ForwardState α φ κ ι
  | .setExitRemote => { s with exitRemote := true }
  | .setHasClient value => { s with hasClient := value }
  | .setClients clients =>
      match s.forwarder with
      | .sending .. => s
      | _ => { s with clients := clients }
  | .input event =>
      match s.handling with
      | none =>
          { s with
            callback := s.callback.checkExit s.exitRemote s.hasClient
            handling := some event
            exitRemote := false }
      | some _ => s
  | .capture =>
      match s.handling with
      | some event => s.capture lib event
      | none => s
  | .receive =>
      match s.forwarder, s.channel with
      | .receiving, e :: channel => { s with forwarder := .received e, channel := channel }
      | _, _ => s
  | .check =>
      match s.forwarder with
      | .received e =>
          if e.event.isDiscrete && !s.callback.isRemote then
            { s with forwarder := .receiving, handled := s.handled ++ [(e, s.clients)] }
          else { s with forwarder := .locking e }
      | _ => s
  | .lock =>
      match s.forwarder with
      | .locking e =>
          { s with
            forwarder := .sending e s.clients
            handled := s.handled ++ (discrete [e]).map fun e => (e, s.clients) }
      | _ => s
  | .send client delivered =>
      match s.forwarder with
      | .sending e rest =>
          if client ∈ rest then
            let s' := { s with forwarder := .sending e (rest.erase client) }
            if delivered then s'.queue client e else s'
          else s
      | _ => s
  | .unlock =>
      match s.forwarder with
      | .sending _ rest => if rest = ∅ then { s with forwarder := .receiving } else s
      | _ => s

/-- Nothing is lost on the way: the suppressed events are those handled, the one in hand and those
in the channel, and each client registered when an event was handled has it or is still to
get it, once and in order. -/
structure Accounted (s : ForwardState α φ κ ι) : Prop where
  kept : s.handled.map Prod.fst ++ (discrete s.inHand ++ discrete s.channel) = s.suppressed
  sent : ∀ client, discrete (s.dataSent client) ++ s.awaited client =
    (s.handled.filter fun h => client ∈ h.2).map Prod.fst

/-- The steps at which an event is not lost: the channel has room for what is captured, the mode
is still remote when the forwarder looks at it, or no client is registered, and the receiver of
each client is there. -/
def Unhindered (lib : KeyLib κ) (s : ForwardState α φ κ ι) : ForwardEvent α κ ι → Prop
  | .capture =>
      match s.handling with
      | some event => s.callback.isRemote = true →
          (event.captured lib : Option (WarpInputEvent φ)).isSome = true →
          s.channel.length < captureCapacity
      | none => True
  | .check =>
      match s.forwarder with
      | .received e =>
          e.event.isDiscrete = true → s.callback.isRemote = true ∨ s.clients = ∅
      | _ => True
  | .send client delivered =>
      match s.forwarder with
      | .sending e rest => client ∈ rest → e.event.isDiscrete = true → delivered = true
      | _ => True
  | _ => True

end ForwardState

section Lists

/-- The discrete events of two stretches are those of both. -/
@[simp] theorem discrete_append (first second : List (Captured φ)) :
    discrete (first ++ second) = discrete first ++ discrete second :=
  List.filter_append ..

@[simp] theorem discrete_nil : discrete ([] : List (Captured φ)) = [] := rfl

/-- The first event and the rest. -/
theorem discrete_cons (e : Captured φ) (events : List (Captured φ)) :
    discrete (e :: events) = discrete [e] ++ discrete events := by
  rw [← discrete_append, List.singleton_append]

/-- A discrete event counts. -/
theorem discrete_of_discrete {e : Captured φ} (h : e.event.isDiscrete = true) :
    discrete [e] = [e] := by
  simp [discrete, h]

/-- Another does not. -/
theorem discrete_of_not {e : Captured φ} (h : e.event.isDiscrete = false) :
    discrete [e] = [] := by
  simp [discrete, h]

/-- What is captured of an event is a button, a key or the wheel. -/
theorem isDiscrete_of_captured [CursorNumber α φ] {lib : KeyLib κ} {event : EventType α κ}
    {e : WarpInputEvent φ} (h : event.captured lib = some e) : e.isDiscrete = true := by
  cases event with
  | mouseMove x y => exact absurd h (by simp [EventType.captured])
  | buttonPress button | buttonRelease button =>
    obtain ⟨b, -, rfl⟩ := Option.map_eq_some_iff.mp h
    rfl
  | wheel deltaX deltaY =>
    obtain rfl := Option.some.inj h
    rfl
  | keyPress key | keyRelease key =>
    obtain rfl := Option.some.inj h
    rfl

/-- What was suppressed of an event handled in remote mode is what is captured of it; an event
handled in local mode passes, or is a motion. -/
theorem handle_captured [CursorNumber α φ] (lib : KeyLib κ) (hasClient : Bool)
    (s : CallbackState α) (event : EventType α κ) (n : ℕ) :
    let r := s.handle lib hasClient event
    let mapped := (event.captured lib : Option (WarpInputEvent φ)).toList.map (Captured.mk n)
    discrete (r.2.2.toList.map (Captured.mk n)) = (if s.isRemote then mapped else []) ∧
      (if r.2.1 then [] else mapped) = (if s.isRemote then mapped else []) := by
  intro r mapped
  have hmapped : discrete mapped = mapped := by
    refine List.filter_eq_self.mpr fun e he => ?_
    obtain ⟨x, hx, rfl⟩ := List.mem_map.mp he
    exact isDiscrete_of_captured (Option.mem_toList.mp hx)
  cases hremote : s.isRemote with
  | true =>
    cases event with
    | mouseMove x y =>
      simp only [r, mapped, CallbackState.handle, hremote, if_true, EventType.captured]
      split <;> simp [discrete, WarpInputEvent.isDiscrete]
    | _ =>
      simp only [r, CallbackState.handle, hremote, if_true, Bool.false_eq_true, if_false, and_true]
      exact hmapped
  | false =>
    cases event with
    | mouseMove x y =>
      simp only [r, mapped, CallbackState.handle, hremote, Bool.false_eq_true, if_false,
        EventType.captured]
      split <;> simp [discrete, WarpInputEvent.isDiscrete]
    | _ => simp [r, CallbackState.handle, hremote]

end Lists

namespace ForwardState

variable [DecidableEq ι] {s : ForwardState α φ κ ι}

/-- What is queued for a client, with what is still to be sent to it, when a send completes. -/
theorem Accounted.sent_queue (h : s.Accounted) {e : Captured φ} {rest : Finset ι} {client : ι}
    (hphase : s.forwarder = .sending e rest) (hrest : client ∈ rest) :
    ({ s with forwarder := .sending e (rest.erase client) }.queue client e).Accounted := by
  have hkept := h.kept
  have hsent : ∀ c, discrete (s.dataSent c) ++ (if c ∈ rest then discrete [e] else []) =
      (s.handled.filter fun h => c ∈ h.2).map Prod.fst := by
    intro c
    rw [← h.sent c, awaited, hphase]
  unfold queue
  split
  · rename_i henter
    have hnone : discrete [e] = [] := by
      refine discrete_of_not ?_
      cases hevent : e.event <;> rw [hevent] at henter <;>
        first | rfl | exact absurd henter Bool.false_ne_true
    constructor
    · simpa only [inHand, hphase] using hkept
    · intro c
      simpa only [awaited, hnone, ite_self] using hsent c
  · constructor
    · simpa only [inHand, hphase] using hkept
    · intro c
      rw [← hsent c]
      by_cases hc : c = client
      · subst hc
        simp [awaited, hrest]
      · simp [awaited, hc]

/-- A send that fails loses a discrete event for the client. -/
theorem Accounted.sent_failed_iff (h : s.Accounted) {e : Captured φ} {rest : Finset ι}
    {client : ι} (hphase : s.forwarder = .sending e rest) (hrest : client ∈ rest) :
    ({ s with forwarder := .sending e (rest.erase client) } : ForwardState α φ κ ι).Accounted ↔
      e.event.isDiscrete = false := by
  have hsent : ∀ c, discrete (s.dataSent c) ++ (if c ∈ rest then discrete [e] else []) =
      (s.handled.filter fun h => c ∈ h.2).map Prod.fst := by
    intro c
    rw [← h.sent c, awaited, hphase]
  constructor
  · intro hafter
    have hclient := (hafter.sent client).trans (hsent client).symm
    simp only [awaited, Finset.notMem_erase, if_false, if_pos hrest] at hclient
    have hnone : discrete [e] = [] := (List.append_cancel_left hclient).symm
    by_contra hdiscrete
    rw [discrete_of_discrete (by simpa using hdiscrete)] at hnone
    exact absurd hnone (by simp)
  · intro hdiscrete
    have hnone : discrete [e] = [] := discrete_of_not hdiscrete
    constructor
    · simpa only [inHand, hphase] using h.kept
    · intro c
      simpa only [awaited, hnone, ite_self] using hsent c

/-- The forwarder drops a discrete event in local mode, which matters if a client is
registered. -/
theorem Accounted.dropped_iff (h : s.Accounted) {e : Captured φ}
    (hphase : s.forwarder = .received e) (hdiscrete : e.event.isDiscrete = true) :
    ({ s with forwarder := .receiving, handled := s.handled ++ [(e, s.clients)] } :
      ForwardState α φ κ ι).Accounted ↔ s.clients = ∅ := by
  have hkept := h.kept
  simp only [inHand, hphase, discrete_of_discrete hdiscrete] at hkept
  have hsent : ∀ c, discrete (s.dataSent c) =
      (s.handled.filter fun h => c ∈ h.2).map Prod.fst := by
    intro c
    rw [← h.sent c, awaited, hphase, List.append_nil]
  constructor
  · intro hafter
    refine Finset.eq_empty_of_forall_notMem fun c hc => ?_
    have hclient := hafter.sent c
    simp [awaited, hsent c, List.filter_append, hc] at hclient
  · intro hnone
    constructor
    · simpa [inHand] using hkept
    · intro c
      simp [awaited, hsent c, List.filter_append, hnone]

/-- Taking the lock counts the event as handled for the clients registered then. -/
theorem Accounted.lock (h : s.Accounted) {e : Captured φ} (hphase : s.forwarder = .locking e) :
    ({ s with
      forwarder := .sending e s.clients
      handled := s.handled ++ (discrete [e]).map fun e => (e, s.clients) } :
      ForwardState α φ κ ι).Accounted := by
  have hkept := h.kept
  simp only [inHand, hphase] at hkept
  have hsent : ∀ c, discrete (s.dataSent c) =
      (s.handled.filter fun h => c ∈ h.2).map Prod.fst := by
    intro c
    rw [← h.sent c, awaited, hphase, List.append_nil]
  constructor
  · rw [← hkept]
    simp [inHand, Function.comp_def]
  · intro c
    by_cases hc : c ∈ s.clients
    · simp [awaited, hsent c, List.filter_append, List.filter_map, Function.comp_def, hc]
    · simp [awaited, hsent c, List.filter_append, List.filter_map, Function.comp_def, hc]

variable [CursorNumber α φ]

/-- The events are accounted for after a run of the callback exactly if the channel had room for
what it captured. -/
theorem Accounted.capture_iff (h : s.Accounted) (lib : KeyLib κ) {event : EventType α κ} :
    (s.capture lib event).Accounted ↔ (s.callback.isRemote = true →
      (event.captured lib : Option (WarpInputEvent φ)).isSome = true →
      s.channel.length < captureCapacity) := by
  obtain ⟨hchannel, hsuppressed⟩ :=
    handle_captured (φ := φ) lib s.hasClient s.callback event s.captures
  have hlog : (s.capture lib event).suppressed = s.suppressed ++
      (if s.callback.isRemote then (event.captured lib).toList.map (Captured.mk s.captures)
        else []) := by
    rw [← hsuppressed]
    cases hpass : (s.callback.handle (φ := φ) lib s.hasClient event).2.1 <;> simp [capture, hpass]
  have hkept_iff : (s.capture lib event).Accounted ↔
      discrete (s.capture lib event).channel = discrete s.channel ++
        (if s.callback.isRemote then (event.captured lib).toList.map (Captured.mk s.captures)
          else []) := by
    constructor
    · intro hafter
      have hkept := hafter.kept
      rw [hlog, ← h.kept, List.append_assoc, List.append_assoc] at hkept
      exact List.append_cancel_left (List.append_cancel_left hkept)
    · intro hsame
      refine ⟨?_, h.sent⟩
      rw [hlog, ← h.kept, hsame, List.append_assoc, List.append_assoc]
      rfl
  rw [hkept_iff]
  by_cases hroom : s.channel.length < captureCapacity
  · have : (s.capture lib event).channel = s.channel ++
        (s.callback.handle lib s.hasClient event).2.2.toList.map (Captured.mk s.captures) :=
      if_pos hroom
    rw [this, discrete_append, hchannel]
    exact iff_of_true rfl fun _ _ => hroom
  · have : (s.capture lib event).channel = s.channel := if_neg hroom
    rw [this, List.self_eq_append_right]
    cases hremote : s.callback.isRemote with
    | false => simp
    | true =>
      cases hcaptured : (event.captured lib : Option (WarpInputEvent φ)) with
      | none => simp
      | some e => simp [hroom]

/-- The events are accounted for after a step exactly if it loses none. -/
theorem Accounted.step_iff (h : s.Accounted) (lib : KeyLib κ) (event : ForwardEvent α κ ι) :
    (s.step lib event).Accounted ↔ s.Unhindered lib event := by
  cases event with
  | setExitRemote => exact iff_of_true ⟨h.kept, h.sent⟩ trivial
  | setHasClient value => exact iff_of_true ⟨h.kept, h.sent⟩ trivial
  | setClients clients =>
    refine iff_of_true ?_ trivial
    simp only [step]
    split
    · exact h
    · exact ⟨h.kept, h.sent⟩
  | input event =>
    refine iff_of_true ?_ trivial
    cases hhandling : s.handling with
    | none => simpa only [step, hhandling] using ⟨h.kept, h.sent⟩
    | some under => simpa only [step, hhandling] using h
  | capture =>
    cases hhandling : s.handling with
    | none => simpa only [step, Unhindered, hhandling, iff_true] using h
    | some event => simpa only [step, Unhindered, hhandling] using h.capture_iff lib
  | receive =>
    refine iff_of_true ?_ trivial
    cases hphase : s.forwarder with
    | receiving =>
      cases hchannel : s.channel with
      | nil => simpa only [step, hphase, hchannel] using h
      | cons e channel =>
        simp only [step, hphase, hchannel]
        constructor
        · have hkept := h.kept
          rw [hchannel, discrete_cons] at hkept
          simpa only [inHand, hphase, discrete_nil, List.nil_append] using hkept
        · intro client
          have hsent := h.sent client
          simpa only [awaited, hphase] using hsent
    | _ => simpa only [step, hphase] using h
  | check =>
    cases hphase : s.forwarder with
    | received e =>
      by_cases hstays : e.event.isDiscrete = true ∧ s.callback.isRemote = false
      · obtain ⟨hdiscrete, hlocal⟩ := hstays
        simp only [step, Unhindered, hphase, hdiscrete, hlocal, Bool.not_false, Bool.and_true,
          if_true]
        rw [h.dropped_iff hphase hdiscrete]
        simp
      · have hgoes : (e.event.isDiscrete && !s.callback.isRemote) = false := by simpa using hstays
        simp only [step, Unhindered, hphase, hgoes, Bool.false_eq_true, if_false]
        refine iff_of_true ⟨?_, ?_⟩ fun hdiscrete => .inl ?_
        · simpa only [inHand, hphase] using h.kept
        · intro client
          have hsent := h.sent client
          simpa only [awaited, hphase] using hsent
        · simpa [hdiscrete] using hstays
    | _ => simpa only [step, Unhindered, hphase, iff_true] using h
  | lock =>
    refine iff_of_true ?_ trivial
    cases hphase : s.forwarder with
    | locking e => simpa only [step, hphase] using h.lock hphase
    | _ => simpa only [step, hphase] using h
  | send client delivered =>
    cases hphase : s.forwarder with
    | sending e rest =>
      by_cases hrest : client ∈ rest
      · cases delivered with
        | true =>
          simp only [step, Unhindered, hphase, if_pos hrest, if_true]
          exact iff_of_true (h.sent_queue hphase hrest) fun _ _ => trivial
        | false =>
          simp only [step, Unhindered, hphase, if_pos hrest, Bool.false_eq_true, if_false]
          rw [h.sent_failed_iff hphase hrest]
          simp [hrest]
      · simpa [step, Unhindered, hphase, hrest] using h
    | _ => simpa only [step, Unhindered, hphase, iff_true] using h
  | unlock =>
    refine iff_of_true ?_ trivial
    cases hphase : s.forwarder with
    | sending e rest =>
      by_cases hrest : rest = ∅
      · simp only [step, hphase, if_pos hrest]
        constructor
        · simpa only [inHand, hphase] using h.kept
        · intro client
          have hsent := h.sent client
          simpa only [awaited, hphase, hrest, Finset.notMem_empty, if_false] using hsent
      · simpa only [step, hphase, if_neg hrest] using h
    | _ => simpa only [step, hphase] using h

omit [DecidableEq ι] [CursorNumber α φ] in
/-- An event is on its way: it is in the channel, with the forwarder or queued for a client. -/
def OnWay (s : ForwardState α φ κ ι) (e : Captured φ) : Prop :=
  e ∈ s.channel ∨
    (match s.forwarder with
      | .received x | .locking x | .sending x _ => e = x
      | .receiving => False) ∨
    ∃ client, e ∈ s.controlSent client ∨ e ∈ s.dataSent client

/-- Events are numbered in the order in which the callback handles them, and none that passed is
on its way. -/
structure Numbered (s : ForwardState α φ κ ι) : Prop where
  suppressed : ∀ e ∈ s.suppressed, e.number < s.captures
  ordered : s.suppressed.Pairwise fun e e' => e.number < e'.number
  passed : ∀ n ∈ s.passed, n < s.captures
  onWay : ∀ e, s.OnWay e → e.number < s.captures ∧ e.number ∉ s.passed

omit [DecidableEq ι] [CursorNumber α φ] in
/-- A step of the forwarder puts nothing new on its way. -/
theorem Numbered.of_onWay (h : s.Numbered) {s' : ForwardState α φ κ ι}
    (hcaptures : s'.captures = s.captures) (hsuppressed : s'.suppressed = s.suppressed)
    (hpassed : s'.passed = s.passed) (hway : ∀ e, s'.OnWay e → s.OnWay e) : s'.Numbered := by
  constructor
  · rw [hsuppressed, hcaptures]
    exact h.suppressed
  · rw [hsuppressed]
    exact h.ordered
  · rw [hpassed, hcaptures]
    exact h.passed
  · intro e he
    rw [hpassed, hcaptures]
    exact h.onWay e (hway e he)

omit [CursorNumber α φ] in
/-- Queueing the event that is being sent puts nothing new on its way. -/
theorem onWay_of_queue {e x : Captured φ} {rest : Finset ι} {client : ι}
    (hphase : s.forwarder = .sending e rest)
    (hx : ({ s with forwarder := .sending e (rest.erase client) }.queue client e).OnWay x) :
    s.OnWay x := by
  have hupdate : ∀ (f : ι → List (Captured φ)) (c : ι),
      x ∈ Function.update f client (f client ++ [e]) c → x ∈ f c ∨ x = e := by
    intro f c hmem
    by_cases hc : c = client
    · subst hc
      rw [Function.update_self] at hmem
      rcases List.mem_append.mp hmem with hmem | hmem
      · exact .inl hmem
      · exact .inr (List.mem_singleton.mp hmem)
    · rw [Function.update_of_ne hc] at hmem
      exact .inl hmem
  have hsending : x = e → s.OnWay x := by
    intro hxe
    refine .inr (.inl ?_)
    rw [hphase]
    exact hxe
  unfold queue at hx
  split at hx
  · rcases hx with hx | hx | ⟨c, hx | hx⟩
    · exact .inl hx
    · exact hsending hx
    · rcases hupdate _ c hx with hx | hx
      · exact .inr (.inr ⟨c, .inl hx⟩)
      · exact hsending hx
    · exact .inr (.inr ⟨c, .inr hx⟩)
  · rcases hx with hx | hx | ⟨c, hx | hx⟩
    · exact .inl hx
    · exact hsending hx
    · exact .inr (.inr ⟨c, .inl hx⟩)
    · rcases hupdate _ c hx with hx | hx
      · exact .inr (.inr ⟨c, .inr hx⟩)
      · exact hsending hx

/-- What is made of one run of the callback has its number. -/
theorem number_of_mem_map {n : ℕ} {events : List (WarpInputEvent φ)} {e : Captured φ}
    (he : e ∈ events.map (Captured.mk n)) : e.number = n := by
  obtain ⟨x, -, rfl⟩ := List.mem_map.mp he
  rfl

omit [DecidableEq ι] in
/-- A run of the callback puts its own events on the channel, and only if it did not let the
event pass. -/
theorem mem_channel_capture (lib : KeyLib κ) (event : EventType α κ) {e : Captured φ}
    (he : e ∈ (s.capture lib event).channel) :
    e ∈ s.channel ∨ (e.number = s.captures ∧
      (s.callback.handle (φ := φ) lib s.hasClient event).2.1 = false) := by
  by_cases hroom : s.channel.length < captureCapacity
  · rw [show (s.capture lib event).channel = s.channel ++
      (s.callback.handle lib s.hasClient event).2.2.toList.map (Captured.mk s.captures) from
        if_pos hroom] at he
    rcases List.mem_append.mp he with he | he
    · exact .inl he
    · refine .inr ⟨number_of_mem_map he, ?_⟩
      rcases handle_cases (φ := φ) lib s.hasClient s.callback event with
        ⟨-, -, hpass, -⟩ | ⟨-, -, -, hnone⟩ | ⟨-, -, -, hpass, -⟩
      · exact hpass
      · rw [hnone] at he
        exact absurd he List.not_mem_nil
      · exact hpass
  · rw [show (s.capture lib event).channel = s.channel from if_neg hroom] at he
    exact .inl he

omit [DecidableEq ι] in
/-- A run of the callback numbers what it puts on its way, and that did not pass. -/
theorem Numbered.capture (h : s.Numbered) (lib : KeyLib κ) (event : EventType α κ) :
    (s.capture lib event).Numbered := by
  cases hpass : (s.callback.handle (φ := φ) lib s.hasClient event).2.1 with
  | true =>
    have hsuppressed : (s.capture lib event).suppressed = s.suppressed := if_pos hpass
    have hpassed : (s.capture lib event).passed = s.passed ++ [s.captures] := if_pos hpass
    constructor
    · intro e he
      rw [hsuppressed] at he
      exact Nat.lt_succ_of_lt (h.suppressed e he)
    · rw [hsuppressed]
      exact h.ordered
    · intro n hn
      rw [hpassed] at hn
      rcases List.mem_append.mp hn with hn | hn
      · exact Nat.lt_succ_of_lt (h.passed n hn)
      · rw [List.mem_singleton.mp hn]
        exact Nat.lt_succ_self _
    · intro e he
      have hold : s.OnWay e := by
        rcases he with he | he
        · rcases mem_channel_capture lib event he with he | ⟨-, hfalse⟩
          · exact .inl he
          · exact absurd (hpass.symm.trans hfalse) (by simp)
        · exact .inr he
      obtain ⟨hlt, hnot⟩ := h.onWay e hold
      refine ⟨Nat.lt_succ_of_lt hlt, ?_⟩
      rw [hpassed, List.mem_append, List.mem_singleton]
      rintro (hmem | hmem)
      · exact hnot hmem
      · omega
  | false =>
    have hstays : ¬ (s.callback.handle (φ := φ) lib s.hasClient event).2.1 = true := by
      rw [hpass]
      exact Bool.false_ne_true
    have hsuppressed : (s.capture lib event).suppressed =
        s.suppressed ++ (event.captured lib).toList.map (Captured.mk s.captures) :=
      if_neg hstays
    have hpassed : (s.capture lib event).passed = s.passed := if_neg hstays
    constructor
    · intro e he
      rw [hsuppressed] at he
      rcases List.mem_append.mp he with he | he
      · exact Nat.lt_succ_of_lt (h.suppressed e he)
      · rw [number_of_mem_map he]
        exact Nat.lt_succ_self _
    · rw [hsuppressed, List.pairwise_append]
      refine ⟨h.ordered, ?_, ?_⟩
      · cases (event.captured lib : Option (WarpInputEvent φ)) <;> simp
      · intro e he e' he'
        rw [number_of_mem_map he']
        exact h.suppressed e he
    · intro n hn
      rw [hpassed] at hn
      exact Nat.lt_succ_of_lt (h.passed n hn)
    · intro e he
      rw [hpassed]
      rcases he with he | he
      · rcases mem_channel_capture lib event he with he | ⟨hnumber, -⟩
        · obtain ⟨hlt, hnot⟩ := h.onWay e (.inl he)
          exact ⟨Nat.lt_succ_of_lt hlt, hnot⟩
        · rw [hnumber]
          exact ⟨Nat.lt_succ_self _, fun hmem => Nat.lt_irrefl _ (h.passed _ hmem)⟩
      · obtain ⟨hlt, hnot⟩ := h.onWay e (.inr he)
        exact ⟨Nat.lt_succ_of_lt hlt, hnot⟩

/-- Every step keeps the numbering. -/
theorem Numbered.step (h : s.Numbered) (lib : KeyLib κ) (event : ForwardEvent α κ ι) :
    (s.step lib event).Numbered := by
  cases event with
  | setExitRemote => exact h.of_onWay rfl rfl rfl fun _ he => he
  | setHasClient value => exact h.of_onWay rfl rfl rfl fun _ he => he
  | setClients clients =>
    simp only [ForwardState.step]
    split
    · exact h
    · exact h.of_onWay rfl rfl rfl fun _ he => he
  | input event =>
    simp only [ForwardState.step]
    split
    · exact h.of_onWay rfl rfl rfl fun _ he => he
    · exact h
  | capture =>
    simp only [ForwardState.step]
    split
    · exact h.capture lib _
    · exact h
  | receive =>
    simp only [ForwardState.step]
    split
    · rename_i e channel hphase hchannel
      refine h.of_onWay rfl rfl rfl fun x hx => ?_
      rcases hx with hx | hx | hx
      · exact .inl (hchannel ▸ List.mem_cons_of_mem e hx)
      · obtain rfl : x = e := hx
        exact .inl (hchannel ▸ List.mem_cons_self)
      · exact .inr (.inr hx)
    · exact h
  | check =>
    simp only [ForwardState.step]
    split
    · rename_i e hphase
      split
      · refine h.of_onWay rfl rfl rfl fun x hx => ?_
        rcases hx with hx | hx | hx
        · exact .inl hx
        · exact hx.elim
        · exact .inr (.inr hx)
      · refine h.of_onWay rfl rfl rfl fun x hx => ?_
        simpa only [OnWay, hphase] using hx
    · exact h
  | lock =>
    simp only [ForwardState.step]
    split
    · rename_i e hphase
      refine h.of_onWay rfl rfl rfl fun x hx => ?_
      simpa only [OnWay, hphase] using hx
    · exact h
  | send client delivered =>
    simp only [ForwardState.step]
    split
    · rename_i e rest hphase
      split
      · split
        · refine h.of_onWay ?_ ?_ ?_ fun x hx => onWay_of_queue hphase hx
          all_goals unfold queue; split <;> rfl
        · refine h.of_onWay rfl rfl rfl fun x hx => ?_
          simpa only [OnWay, hphase] using hx
      · exact h
    · exact h
  | unlock =>
    simp only [ForwardState.step]
    split
    · split
      · refine h.of_onWay rfl rfl rfl fun x hx => ?_
        rcases hx with hx | hx | hx
        · exact .inl hx
        · exact hx.elim
        · exact .inr (.inr hx)
      · exact h
    · exact h

omit [CursorNumber α φ] in
/-- What the clients are owed: every suppressed button, key and wheel event is queued once, in
capture order, for every client registered when it is handled, and no event that passed is
queued. -/
structure Delivered (s : ForwardState α φ κ ι) : Prop extends Accounted s where
  ordered : s.suppressed.Pairwise fun e e' => e.number < e'.number
  localOnly : ∀ client e, e ∈ s.controlSent client ∨ e ∈ s.dataSent client → e.number ∉ s.passed

/-- The start has nothing to account for. -/
theorem accounted_start (screenWidth screenHeight : UInt32) :
    (start screenWidth screenHeight : ForwardState α φ κ ι).Accounted :=
  ⟨rfl, fun _ => rfl⟩

omit [DecidableEq ι] in
/-- The start has nothing to number. -/
theorem numbered_start (screenWidth screenHeight : UInt32) :
    (start screenWidth screenHeight : ForwardState α φ κ ι).Numbered := by
  refine ⟨by simp [start], List.Pairwise.nil, by simp [start], ?_⟩
  intro e he
  simp [OnWay, start] at he

omit [CursorNumber α φ] in
/-- Numbered events that are accounted for are delivered. -/
theorem Numbered.delivered_iff (h : s.Numbered) : s.Delivered ↔ s.Accounted := by
  constructor
  · exact fun hdelivered => hdelivered.toAccounted
  · intro haccounted
    refine ⟨haccounted, h.ordered, fun client e he => ?_⟩
    exact (h.onWay e (.inr (.inr ⟨client, he⟩))).2

/-- **Forwarding.** In a run of the callback and the forwarder, in any order and with any changes
of the flags and the clients, every state reached has delivered exactly if no step loses an
event. -/
theorem delivered_iff_unhindered (lib : KeyLib κ) (screenWidth screenHeight : UInt32)
    (events : List (ForwardEvent α κ ι)) :
    (∀ first, first <+: events → (first.foldl (step lib)
        (start screenWidth screenHeight : ForwardState α φ κ ι)).Delivered) ↔
      Run.Along (step lib) (Unhindered lib)
        (start screenWidth screenHeight : ForwardState α φ κ ι) events := by
  refine Run.forall_reached_iff_along (fun s => s.Numbered ∧ s.Accounted) ?_ ?_ ?_ ?_ events
  · rintro s event hok ⟨hnumbered, haccounted⟩
    exact ⟨hnumbered.step lib event, (haccounted.step_iff lib event).mpr hok⟩
  · rintro s event ⟨hnumbered, haccounted⟩
    rw [(hnumbered.step lib event).delivered_iff, haccounted.step_iff lib event]
  · exact ⟨numbered_start _ _, accounted_start _ _⟩
  · exact (numbered_start _ _).delivered_iff.mpr (accounted_start _ _)

/-- A key is pressed in remote mode. Before the forwarder takes it, the client asks to return and
a motion is handled in local mode. -/
def lateKey : List (ForwardEvent ℤ String Unit) :=
  [.setClients {()}, .setHasClient true, .input (.mouseMove 50 50), .capture,
    .input (.mouseMove 99 50), .capture, .input (.keyPress "KeyA"), .capture, .setExitRemote,
    .input (.mouseMove 98 50), .capture, .receive, .check, .lock, .send () true, .unlock,
    .receive, .check]

/-- The key that was suppressed is not queued for the client, which was registered all the time. -/
theorem lateKey_dropped :
    ¬ (lateKey.foldl (step .constant)
      (start 100 100 : ForwardState ℤ ℤ String Unit)).Delivered := by
  intro h
  have hsent := h.sent ()
  revert hsent
  decide +kernel

end ForwardState

end SuperShare
