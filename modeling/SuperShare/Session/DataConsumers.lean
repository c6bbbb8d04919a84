import SuperShare.Clipboard.Transfer
import SuperShare.Lib.Broadcast

/-!
# The consumers of the client's data connection

The data reader of the client puts every message that it receives on a broadcast channel. Two
tasks of a connection subscribe to it once the connection is established, one that injects input
and one that receives clipboard content. Each handles its kind of message, and goes on when it is
told that it has missed some.
-/

namespace SuperShare

/-- A task that reads the data connection. -/
inductive DataConsumer where
  | inject | clipboard
  deriving DecidableEq

/-- A clipboard message. -/
def Message.isClipboard : Message → Bool
  | clipboardData .. | clipboardBegin .. | clipboardChunk .. | clipboardEnd .. => true
  | _ => false

/-- A message that the inject task has an arm for. -/
def Message.isInput : Message → Bool
  | mouseDelta .. | mouseMove .. | mouseButton .. | mouseScroll .. | keyPress .. => true
  | _ => false

/-- The messages that a task handles. -/
def DataConsumer.handles : DataConsumer → Message → Bool
  | inject => Message.isInput
  | clipboard => Message.isClipboard

/-- Other messages do nothing to a clipboard transfer. -/
theorem handleClipboardMessage_of_other (lib : ClipboardLib)
    (reassembler : Option ClipboardReassembler) {msg : Message} (h : msg.isClipboard = false) :
    handleClipboardMessage lib reassembler msg = (reassembler, none) := by
  cases msg <;> first | rfl | exact absurd h (by simp [Message.isClipboard])

/-- Capacity of the channel from the data reader. -/
def dataBroadcastCapacity : ℕ := 256

/-- The channel from the data reader and the two tasks. -/
structure DataTasks where
  channel : Broadcast.Channel DataConsumer Message
  /-- The messages that the inject task has handled, the oldest first. -/
  injected : List Message
  reassembler : Option ClipboardReassembler
  /-- The clipboard messages that the clipboard task has handled, the oldest first. -/
  received : List Message
  /-- The contents that it has received, the oldest first. -/
  contents : List ClipboardContent

/-- A step of the reader or of a task. -/
inductive DataEvent where
  /-- The reader receives a message and broadcasts it. -/
  | read (msg : Message)
  /-- A task gets its own subscription. -/
  | resubscribe (consumer : DataConsumer)
  /-- A task receives, and handles the message if it gets one. -/
  | recv (consumer : DataConsumer)
  deriving DecidableEq

/-- What the event is for the channel. -/
def DataEvent.onChannel : DataEvent → Broadcast.Event DataConsumer Message
  | read msg => .send msg
  | resubscribe consumer => .subscribe consumer
  | recv consumer => .recv consumer

namespace DataTasks

/-- The connection is established and nothing was received. -/
def start : DataTasks := ⟨.empty, [], none, [], []⟩

/-- A task handles a message. -/
def handle (lib : ClipboardLib) (s : DataTasks) (msg : Message) : DataConsumer → DataTasks
  | .inject => if msg.isInput then { s with injected := s.injected ++ [msg] } else s
  | .clipboard =>
      let (reassembler, content) := handleClipboardMessage lib s.reassembler msg
      { s with
        reassembler := reassembler
        received := if msg.isClipboard then s.received ++ [msg] else s.received
        contents := s.contents ++ content.toList }

/-- The state after an event. -/
def step (lib : ClipboardLib) (s : DataTasks) (event : DataEvent) : DataTasks :=
  let s' := { s with channel := s.channel.step dataBroadcastCapacity event.onChannel }
  match event with
  | .recv consumer =>
      match (s.channel.recv dataBroadcastCapacity consumer).2 with
      | .value msg => s'.handle lib msg consumer
      | .lagged _ | .waiting => s'
  | .read _ | .resubscribe _ => s'

/-- The messages received by the reader that a task has come to. -/
def reached (s : DataTasks) (consumer : DataConsumer) : List Message :=
  s.channel.sent.take (s.channel.position consumer)

/-- Each task has handled exactly its messages of those that it has come to, in order. -/
structure HandlesAll (lib : ClipboardLib) (s : DataTasks) : Prop where
  injected : s.injected = (s.reached .inject).filter Message.isInput
  received : s.received = (s.reached .clipboard).filter Message.isClipboard
  contents : s.contents = (receiveClipboard lib none s.received).filterMap id

/-- No task subscribes after a message that it handles was received, and none is, when it asks for
the next message, so far behind that such a message is no longer kept. -/
def KeepsUp (s : DataTasks) : DataEvent → Prop
  | .read _ => True
  | .resubscribe consumer => s.channel.next consumer = none →
      ∀ msg ∈ s.channel.sent, consumer.handles msg = false
  | .recv consumer => ∀ position ∈ s.channel.next consumer,
      ∀ msg ∈ (s.channel.sent.drop position).take
        (s.channel.sent.length - dataBroadcastCapacity - position), consumer.handles msg = false

/-- What the tasks have done is what they do with the messages that they were given. -/
structure Handled (lib : ClipboardLib) (s : DataTasks) : Prop where
  injected : s.injected = (s.channel.received .inject).filter Message.isInput
  received : s.received = (s.channel.received .clipboard).filter Message.isClipboard
  reassembler : s.reassembler = Run.final (handleClipboardMessage lib) none s.received
  contents : s.contents = (receiveClipboard lib none s.received).filterMap id

variable {lib : ClipboardLib} {s : DataTasks}

/-- Handling a message that a task was given. -/
theorem Handled.handle (h : s.Handled lib) {channel : Broadcast.Channel DataConsumer Message}
    {msg : Message} {consumer : DataConsumer}
    (hgiven : ∀ r, channel.received r =
      s.channel.received r ++ if r = consumer then [msg] else []) :
    ({ s with channel := channel }.handle lib msg consumer).Handled lib := by
  have hown := hgiven consumer
  rw [if_pos rfl] at hown
  have hother : ∀ r, r ≠ consumer → channel.received r = s.channel.received r := by
    intro r hr
    rw [hgiven, if_neg hr, List.append_nil]
  cases consumer with
  | inject =>
    have hclipboard := hother .clipboard (by decide)
    by_cases hinput : msg.isInput = true
    · simp only [DataTasks.handle, if_pos hinput]
      refine ⟨?_, ?_, h.reassembler, h.contents⟩
      · simp [hown, h.injected, hinput]
      · simpa only [hclipboard] using h.received
    · simp only [DataTasks.handle, if_neg hinput]
      refine ⟨?_, ?_, h.reassembler, h.contents⟩
      · simp [hown, h.injected, hinput]
      · simpa only [hclipboard] using h.received
  | clipboard =>
    have hinject := hother .inject (by decide)
    have hinjected : s.injected = (channel.received .inject).filter Message.isInput := by
      rw [hinject]
      exact h.injected
    by_cases hclipboard : msg.isClipboard = true
    · simp only [DataTasks.handle, if_pos hclipboard]
      refine ⟨hinjected, ?_, ?_, ?_⟩
      · simp [hown, h.received, hclipboard]
      · simp only [Run.final, List.foldl_append, List.foldl_cons, List.foldl_nil]
        rw [← Run.final, ← h.reassembler]
      · have hrun : Run.outputs (handleClipboardMessage lib) none (s.received ++ [msg]) = _ :=
          Run.outputs_append none s.received [msg]
        rw [← h.reassembler] at hrun
        simp only [receiveClipboard, hrun, List.filterMap_append, Run.outputs]
        rw [h.contents, receiveClipboard]
        cases (handleClipboardMessage lib s.reassembler msg).2 <;> simp
    · have hother : msg.isClipboard = false := by simpa using hclipboard
      have hsame := handleClipboardMessage_of_other lib s.reassembler hother
      simp only [DataTasks.handle, if_neg hclipboard, hsame]
      refine ⟨hinjected, ?_, h.reassembler, ?_⟩
      · simp [hown, h.received, hclipboard]
      · simpa using h.contents

/-- Every step keeps what the tasks have done in line with what they were given. -/
theorem Handled.step (h : s.Handled lib) (event : DataEvent) : (s.step lib event).Handled lib := by
  cases event with
  | read msg => exact ⟨h.injected, h.received, h.reassembler, h.contents⟩
  | resubscribe consumer =>
    have hsame : ∀ r, (s.channel.step dataBroadcastCapacity (.subscribe consumer)).received r =
        s.channel.received r := by
      intro r
      simp only [Broadcast.Channel.step]
      split <;> rfl
    refine ⟨?_, ?_, h.reassembler, h.contents⟩
    · exact h.injected.trans (by rw [← hsame .inject]; rfl)
    · exact h.received.trans (by rw [← hsame .clipboard]; rfl)
  | recv consumer =>
    have hgiven := fun r =>
      Broadcast.Channel.received_recv dataBroadcastCapacity s.channel consumer r
    simp only [DataTasks.step, DataEvent.onChannel, Broadcast.Channel.step]
    cases hresult : (s.channel.recv dataBroadcastCapacity consumer).2 with
    | value msg =>
      simp only [hresult] at hgiven
      exact h.handle hgiven
    | lagged missed =>
      simp only [hresult, List.append_nil] at hgiven
      refine ⟨?_, ?_, h.reassembler, h.contents⟩
      · simpa only [hgiven] using h.injected
      · simpa only [hgiven] using h.received
    | waiting =>
      simp only [hresult, List.append_nil] at hgiven
      refine ⟨?_, ?_, h.reassembler, h.contents⟩
      · simpa only [hgiven] using h.injected
      · simpa only [hgiven] using h.received

/-- The tasks do not touch the channel otherwise than by receiving. -/
theorem channel_step (lib : ClipboardLib) (s : DataTasks) (event : DataEvent) :
    (s.step lib event).channel = s.channel.step dataBroadcastCapacity event.onChannel := by
  cases event with
  | read msg | resubscribe consumer => rfl
  | recv consumer =>
    simp only [DataTasks.step]
    split
    · cases consumer with
      | inject =>
        simp only [handle]
        split <;> rfl
      | clipboard => rfl
    · rfl
    · rfl

/-- The tasks have handled all of their messages exactly if they were given all of them. -/
theorem Handled.handlesAll_iff (h : s.Handled lib) :
    s.HandlesAll lib ↔ s.channel.Complete DataConsumer.handles := by
  constructor
  · intro hall consumer
    cases consumer with
    | inject => exact h.injected.symm.trans hall.injected
    | clipboard => exact h.received.symm.trans hall.received
  · intro hcomplete
    constructor
    · exact h.injected.trans (hcomplete .inject)
    · exact h.received.trans (hcomplete .clipboard)
    · exact h.contents

/-- **The data consumers.** In a run of the reader and the two tasks, in any order, each task has
handled exactly its messages, in order, in every state reached, if and only if the tasks keep
up. -/
theorem handlesAll_iff_keepsUp (lib : ClipboardLib) (events : List DataEvent) :
    (∀ first, first <+: events → (first.foldl (step lib) start).HandlesAll lib) ↔
      Run.Along (step lib) KeepsUp start events := by
  have hok : ∀ (s : DataTasks) event, s.KeepsUp event ↔
      s.channel.Lossless dataBroadcastCapacity DataConsumer.handles event.onChannel := by
    intro s event
    cases event <;> exact Iff.rfl
  have hstart : (start.Handled lib) := ⟨rfl, rfl, rfl, rfl⟩
  refine Run.forall_reached_iff_along (fun s => s.Handled lib ∧ s.channel.Bounded ∧
    s.channel.Complete DataConsumer.handles) ?_ ?_ ?_ ?_ events
  · rintro s event hkeeps ⟨hhandled, hbounded, hcomplete⟩
    rw [channel_step]
    refine ⟨hhandled.step event, hbounded.step _ _, ?_⟩
    exact (hcomplete.step_iff hbounded _).mpr ((hok s event).mp hkeeps)
  · rintro s event ⟨hhandled, hbounded, hcomplete⟩
    rw [(hhandled.step event).handlesAll_iff, channel_step, hcomplete.step_iff hbounded, hok]
  · exact ⟨hstart, fun _ => Nat.le_refl 0, fun _ => rfl⟩
  · exact hstart.handlesAll_iff.mpr fun _ => rfl

/-- A key is released, and as many key presses as the channel holds are received before the inject
task asks for the next message. -/
def slowInjection : List DataEvent :=
  [.resubscribe .inject, .resubscribe .clipboard, .read (.keyPress 7 false)] ++
    List.replicate 256 (.read (.keyPress 8 true)) ++ [.recv .inject, .recv .inject]

/-- The inject task handles a press and never the release. -/
theorem slowInjection_loses :
    let s := slowInjection.foldl (step ⟨.ok, .ok, fun _ => .replicate 32 0⟩) start
    s.channel.sent.head? = some (.keyPress 7 false) ∧ s.injected = [.keyPress 8 true] ∧
      ¬ s.HandlesAll ⟨.ok, .ok, fun _ => .replicate 32 0⟩ := by
  refine ⟨by decide +kernel, by decide +kernel, fun h => ?_⟩
  have hinjected := h.injected
  revert hinjected
  decide +kernel

end DataTasks

end SuperShare
