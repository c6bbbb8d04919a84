import SuperShare.Clipboard.Reassembly
import SuperShare.Input.Forwarder
import SuperShare.Input.Injection
import SuperShare.Session.DataLink

/-!
# From the capture callback to the injector

The callback with the forwarder on the server, and the data connection of one of the clients with
its tasks, put one behind the other. Each part keeps what enters it in order, so that the whole
does: what the client hands to `inject_event` is the beginning of what was suppressed on the
server.
-/

namespace SuperShare

open Conveyor

variable {α κ ι : Type} [DecidableEq ι]

/-- A button, key or wheel message. The inject task hands it to `inject_event` as it is. -/
def Message.isDiscrete : Message → Bool
  | mouseButton .. | mouseScroll .. | keyPress .. => true
  | _ => false

/-- The message for a captured event. -/
def Captured.message (e : Captured F32) : Message := e.event.toMessage

/-- The server up to the queues of its clients, and the data connection of one client. -/
structure Pipeline (α κ ι : Type) where
  forward : ForwardState α F32 κ ι
  link : DataLink

/-- A step of the server, of the task that forwards clipboard changes, or of the connection. -/
inductive PipelineEvent (α κ ι : Type) where
  | forward (event : ForwardEvent α κ ι)
  /-- The clipboard forwarder queues a message for the client. -/
  | clipboard (msg : Message)
  | link (event : LinkEvent)

namespace Pipeline

/-- The server waits for room in the data queue of the client. An entry goes to the other
queue. -/
def blocked (client : ι) (s : Pipeline α κ ι) : ForwardEvent α κ ι → Bool
  | .send target true =>
      match s.forward.forwarder with
      | .sending e _ =>
          target = client && !e.event.isEnter && dataQueueCapacity ≤ s.link.queue.length
      | _ => false
  | _ => false

/-- What the server has queued for the client since then. -/
def newlyQueued (client : ι) (before after : ForwardState α F32 κ ι) : List Message :=
  ((after.dataSent client).drop (before.dataSent client).length).map Captured.message

variable [CursorNumber α F32]

/-- The state after an event. Only the server queues. -/
def step (lib : KeyLib κ) (clipboardLib : ClipboardLib) (client : ι) (s : Pipeline α κ ι) :
    PipelineEvent α κ ι → Pipeline α κ ι
  | .forward event =>
      if s.blocked client event then s
      else
        let forward := s.forward.step lib event
        { forward := forward
          link := (newlyQueued client s.forward forward).foldl
            (fun link msg => link.step clipboardLib (.queue msg)) s.link }
  | .clipboard msg => { s with link := s.link.step clipboardLib (.queue msg) }
  | .link (.queue _) => s
  | .link event => { s with link := s.link.step clipboardLib event }

/-- The capture starts on a server, and the client has connected. -/
def start (screenWidth screenHeight : UInt32) : Pipeline α κ ι :=
  ⟨.start screenWidth screenHeight, .start⟩

/-- No event is lost on the server, and no task of the client falls behind. The clipboard messages
fit into a frame. -/
def Unhindered (lib : KeyLib κ) (s : Pipeline α κ ι) : PipelineEvent α κ ι → Prop
  | .forward event => s.forward.Unhindered lib event
  | .clipboard msg => msg.Fits ∧ msg.isInput = false
  | .link event => s.link.KeepsUp event

end Pipeline

/-- A captured event fits into a frame. -/
theorem fits_toMessage (event : WarpInputEvent F32) : event.toMessage.Fits := by
  have hmax : maxPayloadSize.toNat = 16777216 := rfl
  rw [Message.Fits, hmax]
  cases event <;> simp [WarpInputEvent.toMessage, Message.encode, Bincode.encodeBool,
    Bincode.encodeU8]

/-- Every captured event but an entry is a message for the inject task. -/
theorem isInput_toMessage (event : WarpInputEvent F32) :
    event.toMessage.isInput = !event.isEnter := by
  cases event <;> rfl

/-- A button, key or wheel event has a message of that kind. -/
theorem isDiscrete_toMessage (event : WarpInputEvent F32) :
    event.toMessage.isDiscrete = event.isDiscrete := by
  cases event <;> rfl

namespace ForwardState

variable {φ : Type} {s : ForwardState α φ κ ι}

/-- What is queued by one send. -/
theorem dataSent_queue (s : ForwardState α φ κ ι) (client : ι) (e : Captured φ) (c : ι) :
    (s.queue client e).dataSent c = s.dataSent c ++
      if c = client ∧ e.event.isEnter = false then [e] else [] := by
  unfold queue
  by_cases henter : e.event.isEnter = true
  · rw [if_pos henter]
    simp [henter]
  · rw [if_neg henter]
    have hfalse : e.event.isEnter = false := by simpa using henter
    by_cases hc : c = client
    · subst hc
      simp [hfalse]
    · simp [hc]

variable [CursorNumber α φ]

/-- A step queues at most one event on the data channel of a client, when a send to it completes,
and no entry. -/
theorem dataSent_step (lib : KeyLib κ) (s : ForwardState α φ κ ι) (event : ForwardEvent α κ ι)
    (c : ι) :
    (s.step lib event).dataSent c = s.dataSent c ∨
      ∃ e rest, event = .send c true ∧ s.forwarder = .sending e rest ∧
        e.event.isEnter = false ∧ (s.step lib event).dataSent c = s.dataSent c ++ [e] := by
  cases event with
  | setExitRemote | setHasClient => exact .inl rfl
  | setClients clients | input event | capture | receive | check | lock | unlock =>
    left
    simp only [step]
    repeat' split
    all_goals rfl
  | send client delivered =>
    simp only [step]
    split
    · rename_i e rest hphase
      split
      · cases delivered with
        | false => exact .inl rfl
        | true =>
          simp only [if_true]
          rw [dataSent_queue]
          split
          · rename_i hqueued
            obtain ⟨rfl, henter⟩ := hqueued
            exact .inr ⟨e, rest, rfl, hphase, henter, rfl⟩
          · exact .inl (List.append_nil _)
      · exact .inl rfl
    · exact .inl rfl

end ForwardState

namespace DataLink

/-- A message is queued if there is room. -/
theorem queued_queue (lib : ClipboardLib) (s : DataLink) {msg : Message}
    (hroom : s.queue.length < dataQueueCapacity) :
    (s.step lib (.queue msg)).queued = s.queued ++ [msg] := by
  simp only [step, if_pos hroom]

/-- Only queueing adds to what was queued. -/
theorem queued_step (lib : ClipboardLib) (s : DataLink) {event : LinkEvent}
    (hevent : ∀ msg, event ≠ .queue msg) : (s.step lib event).queued = s.queued := by
  cases event with
  | queue msg => exact absurd rfl (hevent msg)
  | take =>
    simp only [step]
    split <;> rfl
  | read =>
    simp only [step, pollRead]
    repeat' split
    all_goals rfl
  | write | arrive | resubscribe | recv => rfl

end DataLink

namespace Pipeline

variable [CursorNumber α F32] {lib : KeyLib κ} {clipboardLib : ClipboardLib} {client : ι}
variable {s : Pipeline α κ ι}

/-- The server accounts for what it suppressed, the connection is intact, and the input messages on
it are what the server has queued for the client. -/
structure Joined (clipboardLib : ClipboardLib) (client : ι) (s : Pipeline α κ ι) : Prop where
  accounted : s.forward.Accounted
  intact : ∃ pending, s.link.Intact pending
  tasks : s.link.TasksInStep clipboardLib
  queued : s.link.queued.filter Message.isInput =
    (s.forward.dataSent client).map Captured.message

omit [CursorNumber α F32] in
/-- A step of the connection that queues no input keeps the parts joined. -/
theorem Joined.setLink (h : s.Joined clipboardLib client) {event : LinkEvent}
    (hfits : DataLink.QueuesFitting event) (hkeeps : s.link.KeepsUp event)
    (hqueued : (s.link.step clipboardLib event).queued.filter Message.isInput =
      s.link.queued.filter Message.isInput) :
    ({ s with link := s.link.step clipboardLib event } : Pipeline α κ ι).Joined clipboardLib
      client := by
  obtain ⟨pending, hintact⟩ := h.intact
  exact ⟨h.accounted, hintact.step clipboardLib hfits, h.tasks.step hkeeps,
    hqueued.trans h.queued⟩

/-- A step of the server keeps the parts joined if it loses nothing. -/
theorem Joined.forward (h : s.Joined clipboardLib client) {event : ForwardEvent α κ ι}
    (hok : s.forward.Unhindered lib event) :
    (s.step lib clipboardLib client (.forward event)).Joined clipboardLib client := by
  have haccounted := (h.accounted.step_iff lib event).mpr hok
  by_cases hblocked : s.blocked client event = true
  · simpa only [step, if_pos hblocked] using h
  simp only [step, if_neg hblocked]
  rcases s.forward.dataSent_step lib event client with
    hsame | ⟨e, rest, rfl, hphase, henter, hsent⟩
  · have hnone : newlyQueued client s.forward (s.forward.step lib event) = [] := by
      rw [newlyQueued, hsame, List.drop_length, List.map_nil]
    rw [hnone]
    exact ⟨haccounted, h.intact, h.tasks, h.queued.trans (by rw [hsame])⟩
  · have hone : newlyQueued client s.forward (s.forward.step lib (.send client true)) =
        [e.message] := by
      rw [newlyQueued, hsent, List.drop_left, List.map_singleton]
    have hroom : s.link.queue.length < dataQueueCapacity := by
      simpa [blocked, hphase, henter] using hblocked
    obtain ⟨pending, hintact⟩ := h.intact
    rw [hone, List.foldl_cons, List.foldl_nil]
    have hfits : DataLink.QueuesFitting (.queue e.message) := fits_toMessage e.event
    have hkeeps : s.link.KeepsUp (.queue e.message) := trivial
    refine ⟨haccounted, hintact.step clipboardLib hfits, h.tasks.step hkeeps, ?_⟩
    have hinput : e.message.isInput = true := by
      rw [Captured.message, isInput_toMessage, henter]
      rfl
    rw [s.link.queued_queue clipboardLib hroom, List.filter_append, h.queued, hsent,
      List.map_append]
    simp [hinput]

/-- Every event that loses nothing keeps the parts joined. -/
theorem Joined.step (h : s.Joined clipboardLib client) {event : PipelineEvent α κ ι}
    (hok : s.Unhindered lib event) :
    (s.step lib clipboardLib client event).Joined clipboardLib client := by
  cases event with
  | forward event => exact h.forward hok
  | clipboard msg =>
    refine h.setLink hok.1 trivial ?_
    simp only [DataLink.step]
    split
    · rw [List.filter_append, List.filter_singleton, hok.2]
      exact List.append_nil _
    · rfl
  | link event =>
    cases event with
    | queue msg => exact h
    | take => exact h.setLink trivial hok (by rw [DataLink.queued_step _ _ (by simp)])
    | write bytes => exact h.setLink trivial hok rfl
    | arrive bytes => exact h.setLink trivial hok rfl
    | read => exact h.setLink trivial hok (by rw [DataLink.queued_step _ _ (by simp)])
    | resubscribe consumer => exact h.setLink trivial hok rfl
    | recv consumer => exact h.setLink trivial hok rfl

/-- The parts are joined at the start. -/
theorem joined_start (screenWidth screenHeight : UInt32) :
    (start screenWidth screenHeight : Pipeline α κ ι).Joined clipboardLib client :=
  ⟨ForwardState.accounted_start _ _, ⟨[], DataLink.intact_start⟩, DataLink.tasksInStep_start, rfl⟩

omit [CursorNumber α F32] in
/-- Nothing is on its way: the capture channel is empty, the forwarder has nothing in hand, and the
connection is drained. -/
structure Drained (s : Pipeline α κ ι) : Prop where
  channel : s.forward.channel = []
  forwarder : s.forward.forwarder = .receiving
  link : s.link.Drained .inject

omit [CursorNumber α F32] in
/-- What was queued for a client that was registered whenever an event was handled is what was
suppressed, up to what is still on the server. -/
theorem conserved_suppressed {s : ForwardState α F32 κ ι} (h : s.Accounted)
    (hregistered : ∀ handled ∈ s.handled, client ∈ handled.2) :
    Conserved s.suppressed (s.awaited client ++ (discrete s.inHand ++ discrete s.channel))
      (discrete (s.dataSent client)) := by
  have hall : (s.handled.filter fun handled => client ∈ handled.2) = s.handled :=
    List.filter_eq_self.mpr fun handled hmem => by simpa using hregistered handled hmem
  have hsent : Conserved (s.handled.map Prod.fst) (s.awaited client)
      (discrete (s.dataSent client)) := by
    rw [Conserved, h.sent client, hall]
  have hkept : Conserved s.suppressed (discrete s.inHand ++ discrete s.channel)
      (s.handled.map Prod.fst) := h.kept
  exact hkept.trans hsent

omit [CursorNumber α F32] in
/-- The inject task has handled what was queued for the client, up to what is on its way. -/
theorem Joined.conserved_queued (h : s.Joined clipboardLib client) {pending : List Message}
    (hintact : s.link.Intact pending) :
    Conserved ((s.forward.dataSent client).map Captured.message)
      ((s.link.onWay pending .inject).filter Message.isInput) s.link.tasks.injected := by
  rw [← h.queued]
  exact (hintact.handled h.tasks).1

omit [DecidableEq ι] [CursorNumber α F32] in
/-- The button, key and wheel messages among those of captured events. -/
theorem filter_isDiscrete_map (events : List (Captured F32)) :
    (events.map Captured.message).filter Message.isDiscrete =
      (discrete events).map Captured.message := by
  rw [List.filter_map, discrete]
  congr 2
  funext e
  exact isDiscrete_toMessage e.event

/-- **End to end.** In a run in which no event is lost on the server and the tasks of the client
keep up, a client that was registered whenever an event was handled has handed to `inject_event`,
in every state, the first of the mapped buttons, keys and wheel events that were suppressed on the
server, in order and each once, and all of them when nothing is on its way. -/
theorem injected_prefix_suppressed {screenWidth screenHeight : UInt32}
    {events : List (PipelineEvent α κ ι)}
    (hrun : Run.Along (step lib clipboardLib client) (Unhindered lib)
      (start screenWidth screenHeight : Pipeline α κ ι) events) :
    let s : Pipeline α κ ι :=
      events.foldl (step lib clipboardLib client) (start screenWidth screenHeight)
    (∀ handled ∈ s.forward.handled, client ∈ handled.2) →
      s.link.tasks.injected.filter Message.isDiscrete <+:
          s.forward.suppressed.map Captured.message ∧
        (s.Drained → s.link.tasks.injected.filter Message.isDiscrete =
          s.forward.suppressed.map Captured.message) := by
  intro s hregistered
  have hjoined : s.Joined clipboardLib client :=
    hrun.invariant (Joined clipboardLib client) (fun s event hok h => h.step hok)
      (joined_start _ _)
  obtain ⟨pending, hintact⟩ := hjoined.intact
  have hserver := (conserved_suppressed hjoined.accounted hregistered).map
    Captured.message
  have hclient := (hjoined.conserved_queued hintact).filter Message.isDiscrete
  rw [filter_isDiscrete_map] at hclient
  have hwhole := hserver.trans hclient
  refine ⟨hwhole.isPrefix, fun hdrained => hwhole.drained ?_⟩
  have hserverDone : s.forward.awaited client ++
      (discrete s.forward.inHand ++ discrete s.forward.channel) = [] := by
    simp [ForwardState.awaited, ForwardState.inHand, hdrained.forwarder, hdrained.channel]
  rw [hserverDone, hdrained.link.onWay hintact]
  rfl

end Pipeline

/-- Whole numbers of pixels, sent as single-precision numbers. -/
structure WholePixels where
  pixels : ℤ
  deriving DecidableEq

instance : CursorNumber WholePixels F32 where
  ofNat n := ⟨n⟩
  add x y := ⟨x.pixels + y.pixels⟩
  sub x y := ⟨x.pixels - y.pixels⟩
  clamp x lo hi := ⟨max lo.pixels (min x.pixels hi.pixels)⟩
  ge x y := x.pixels ≥ y.pixels
  ne x y := x ≠ y
  toF32 x := Binary32.ofInt x.pixels
  ofWheel := Binary32.ofInt

namespace Pipeline

/-- The cursor crosses to the client, and the space key is pressed and read there. -/
def keyOnClient : List (PipelineEvent WholePixels (Key Unit) Unit) :=
  [.link (.resubscribe .inject), .forward (.setClients {()}), .forward (.setHasClient true),
    .forward (.input (.mouseMove ⟨50⟩ ⟨50⟩)), .forward .capture,
    .forward (.input (.mouseMove ⟨99⟩ ⟨50⟩)), .forward .capture, .forward .receive,
    .forward .check, .forward .lock, .forward (.send () true), .forward .unlock,
    .forward (.input (.keyPress .space)), .forward .capture, .forward .receive, .forward .check,
    .forward .lock, .forward (.send () true), .forward .unlock, .link .take, .link (.write 5),
    .link (.arrive 3), .link .read, .link (.write 20), .link (.arrive 20), .link .read,
    .link (.recv .inject)]

/-- Whether a step of the server loses an event can be checked. -/
instance forwardUnhinderedDecidable (lib : KeyLib κ) (s : ForwardState α F32 κ ι)
    [CursorNumber α F32] : ∀ event, Decidable (s.Unhindered lib event)
  | .capture => by
      unfold ForwardState.Unhindered
      cases s.handling with
      | none => exact isTrue trivial
      | some event => exact inferInstanceAs (Decidable (_ → _ → _))
  | .check => by
      unfold ForwardState.Unhindered
      cases s.forwarder with
      | received e => exact inferInstanceAs (Decidable (_ → _))
      | _ => exact isTrue trivial
  | .send client delivered => by
      unfold ForwardState.Unhindered
      cases s.forwarder with
      | sending e rest => exact inferInstanceAs (Decidable (_ → _ → _))
      | _ => exact isTrue trivial
  | .setExitRemote | .setHasClient _ | .setClients _ | .input _ | .receive | .lock | .unlock =>
      isTrue trivial

/-- So can whether a step hinders the client. -/
instance unhinderedDecidable [CursorNumber α F32] (lib : KeyLib κ) (s : Pipeline α κ ι) :
    ∀ event, Decidable (s.Unhindered lib event)
  | .forward event => forwardUnhinderedDecidable lib s.forward event
  | .clipboard _ => inferInstanceAs (Decidable (_ ∧ _))
  | .link event => DataLink.keepsUpDecidable s.link event

/-- The key is not lost. -/
theorem unhindered_keyOnClient :
    Run.Along (step keyALib pixelLib ()) (Unhindered keyALib) (start 100 100)
      keyOnClient := by
  decide +kernel

/-- The key is handed to `inject_event`, which finds it among the common keys. -/
theorem injected_prefix_suppressed_keyOnClient :
    let s := keyOnClient.foldl (step keyALib pixelLib ()) (start 100 100)
    s.link.tasks.injected.filter Message.isDiscrete <+: s.forward.suppressed.map Captured.message ∧
      s.link.tasks.injected = [.keyPress (keyALib.keyToU32 .space) true] ∧
      keyALib.u32ToKey (keyALib.keyToU32 .space) = some .space :=
  ⟨(injected_prefix_suppressed unhindered_keyOnClient (by decide +kernel)).1, by decide +kernel,
    by decide +kernel⟩

end Pipeline

end SuperShare
