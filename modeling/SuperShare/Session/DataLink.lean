import SuperShare.Lib.Conveyor
import SuperShare.Network.ControlReader
import SuperShare.Session.DataConsumers

/-!
# The data connection, from the queue to the tasks

What the server queues for a client is written frame by frame, travels as bytes, is read and
broadcast, and is handled by the tasks of the client. The bytes are written and arrive in any
pieces. In every state of a run in which the tasks keep up, the input messages queued are those
that the inject task has handled, in order, and then those that are still on their way.
-/

namespace SuperShare

/-- Capacity of the queue of a data connection. -/
def dataQueueCapacity : ℕ := 64

/-- The data connection to a client: the queue of the server, the rest of the frame that the
writer is writing, the bytes on their way, the bytes that the pending read of the client has got,
and the tasks of the client. Everything queued is recorded besides. -/
structure DataLink where
  queue : List Message
  frame : List UInt8
  stream : List UInt8
  buffer : List UInt8
  /-- The data reader has not stopped. -/
  reading : Bool
  tasks : DataTasks
  queued : List Message

/-- A step of a task, or of the network. -/
inductive LinkEvent where
  /-- A task of the server queues a message, if there is room. -/
  | queue (msg : Message)
  /-- The writer takes the next message. -/
  | take
  /-- Some bytes of its frame are written. -/
  | write (bytes : ℕ)
  /-- Some bytes arrive. -/
  | arrive (bytes : ℕ)
  /-- The data reader of the client is polled. -/
  | read
  | resubscribe (consumer : DataConsumer)
  | recv (consumer : DataConsumer)
  deriving DecidableEq

namespace DataLink

/-- A new connection. -/
def start : DataLink := ⟨[], [], [], [], true, .start, []⟩

/-- The data reader goes on with its pending read: it broadcasts the message, and stops at an
error or the end. -/
def pollRead (lib : ClipboardLib) (s : DataLink) : DataLink :=
  if s.reading then
    match readFrame.attempt s.buffer with
    | none => s
    | some (.ok (some msg), rest) =>
        { s with buffer := rest, tasks := s.tasks.step lib (.read msg) }
    | some (_, rest) => { s with buffer := rest, reading := false }
  else s

/-- The state after an event. -/
def step (lib : ClipboardLib) (s : DataLink) : LinkEvent → DataLink
  | .queue msg =>
      if s.queue.length < dataQueueCapacity then
        { s with queue := s.queue ++ [msg], queued := s.queued ++ [msg] }
      else s
  | .take =>
      match s.frame, s.queue with
      | [], msg :: queue => { s with frame := writeFrame msg, queue := queue }
      | _, _ => s
  | .write bytes =>
      { s with frame := s.frame.drop bytes, stream := s.stream ++ s.frame.take bytes }
  | .arrive bytes =>
      { s with stream := s.stream.drop bytes, buffer := s.buffer ++ s.stream.take bytes }
  | .read => s.pollRead lib
  | .resubscribe consumer => { s with tasks := s.tasks.step lib (.resubscribe consumer) }
  | .recv consumer => { s with tasks := s.tasks.step lib (.recv consumer) }

/-- The task has not subscribed late and has not fallen behind over a message that it handles. -/
def KeepsUp (s : DataLink) : LinkEvent → Prop
  | .resubscribe consumer => s.tasks.KeepsUp (.resubscribe consumer)
  | .recv consumer => s.tasks.KeepsUp (.recv consumer)
  | _ => True

/-- Whether a task keeps up can be checked. -/
instance keepsUpDecidable (s : DataLink) : ∀ event, Decidable (s.KeepsUp event)
  | .resubscribe _ => inferInstanceAs (Decidable (_ → _))
  | .recv consumer => inferInstanceAs (Decidable (∀ position ∈ s.tasks.channel.next consumer, _))
  | .queue _ | .take | .write _ | .arrive _ | .read => isTrue trivial

/-- Only messages whose frames the reader accepts are queued. -/
def QueuesFitting : LinkEvent → Prop
  | .queue msg => msg.Fits
  | _ => True

instance queuesFittingDecidable : ∀ event, Decidable (QueuesFitting event)
  | .queue _ => inferInstanceAs (Decidable (_ ≤ _))
  | .take | .write _ | .arrive _ | .read | .resubscribe _ | .recv _ => isTrue trivial

/-- The bytes between the queue and the tasks are the frames of some messages, from the middle of
the first on if it is being read, and the queue, these messages and those broadcast are all that
was queued. -/
structure Intact (s : DataLink) (pending : List Message) : Prop where
  reading : s.reading = true
  fits : ∀ m ∈ pending ++ s.queue, m.Fits
  bytes : s.buffer ++ (s.stream ++ s.frame) = writeFrames pending
  conserved : Conveyor.Conserved s.queued (pending ++ s.queue) s.tasks.channel.sent

/-- The tasks have handled what they have come to. -/
structure TasksInStep (lib : ClipboardLib) (s : DataLink) : Prop where
  handled : s.tasks.Handled lib
  bounded : s.tasks.channel.Bounded
  complete : s.tasks.channel.Complete DataConsumer.handles

variable {lib : ClipboardLib} {s : DataLink} {pending : List Message}

/-- A new connection is intact. -/
theorem intact_start : start.Intact [] := by
  refine ⟨rfl, ?_, rfl, rfl⟩
  intro m hm
  exact absurd hm (by simp [start])

/-- Reading takes the next message when all of its frame is there, and waits before. -/
theorem Intact.pollRead (h : s.Intact pending) :
    ∃ pending, (s.pollRead lib).Intact pending := by
  have hpending : ∀ m ∈ pending, m.Fits := fun m hm => h.fits m (List.mem_append_left _ hm)
  have hprefix : s.buffer <+: writeFrames pending := ⟨_, h.bytes⟩
  rw [DataLink.pollRead, if_pos h.reading]
  rcases readFrame_attempt_prefix hpending hprefix with
    ⟨m, later, left, rfl, hbuffer, hread⟩ | ⟨hread, -⟩
  · rw [hread]
    refine ⟨later, h.reading, ?_, ?_, ?_⟩
    · intro m' hm'
      exact h.fits m' (List.mem_cons_of_mem _ hm')
    · have hbytes := h.bytes
      rw [hbuffer, writeFrames_cons, List.append_assoc] at hbytes
      exact List.append_cancel_left hbytes
    · exact h.conserved.leave
  · rw [hread]
    exact ⟨pending, h⟩

/-- The steps of the tasks other than reads leave what was broadcast alone. -/
theorem sent_step (tasks : DataTasks) {event : DataEvent}
    (hevent : ∀ msg, event ≠ .read msg) :
    (tasks.step lib event).channel.sent = tasks.channel.sent := by
  rw [DataTasks.channel_step]
  cases event with
  | read msg => exact absurd rfl (hevent msg)
  | resubscribe consumer =>
    simp only [DataEvent.onChannel, Broadcast.Channel.step]
    split <;> rfl
  | recv consumer =>
    simp only [DataEvent.onChannel, Broadcast.Channel.step, Broadcast.Channel.recv]
    split
    · rfl
    · split
      · rfl
      · split <;> rfl

/-- Every event keeps the connection intact, if only messages that fit are queued. -/
theorem Intact.step (h : s.Intact pending) (lib : ClipboardLib) {event : LinkEvent}
    (hfits : QueuesFitting event) : ∃ pending, (s.step lib event).Intact pending := by
  cases event with
  | queue msg =>
    simp only [DataLink.step]
    split
    · refine ⟨pending, h.reading, ?_, h.bytes, ?_⟩
      · intro m hm
        rw [← List.append_assoc, List.mem_append, List.mem_singleton] at hm
        rcases hm with hm | rfl
        · exact h.fits m hm
        · exact hfits
      · have hconserved := h.conserved.enter [msg]
        rwa [List.append_assoc] at hconserved
    · exact ⟨pending, h⟩
  | take =>
    simp only [DataLink.step]
    split
    · rename_i msg queue hframe hqueue
      have hsame : pending ++ msg :: queue = (pending ++ [msg]) ++ queue := by simp
      refine ⟨pending ++ [msg], h.reading, ?_, ?_, ?_⟩
      · rw [← hsame, ← hqueue]
        exact h.fits
      · have hbytes := h.bytes
        rw [hframe, List.append_nil] at hbytes
        rw [writeFrames_append, ← hbytes, List.append_assoc]
        simp [writeFrames]
      · have hconserved := h.conserved
        rwa [hqueue, hsame] at hconserved
    · exact ⟨pending, h⟩
  | write bytes =>
    refine ⟨pending, h.reading, h.fits, ?_, h.conserved⟩
    rw [← h.bytes]
    simp [DataLink.step]
  | arrive bytes =>
    refine ⟨pending, h.reading, h.fits, ?_, h.conserved⟩
    rw [← h.bytes]
    simp only [DataLink.step, List.append_assoc]
    rw [← List.append_assoc (s.stream.take bytes), List.take_append_drop]
  | read => exact h.pollRead
  | resubscribe consumer =>
    refine ⟨pending, h.reading, h.fits, h.bytes, ?_⟩
    have hsent := @sent_step lib s.tasks (.resubscribe consumer) (by simp)
    simpa only [DataLink.step, hsent] using h.conserved
  | recv consumer =>
    refine ⟨pending, h.reading, h.fits, h.bytes, ?_⟩
    have hsent := @sent_step lib s.tasks (.recv consumer) (by simp)
    simpa only [DataLink.step, hsent] using h.conserved

/-- The tasks of a new connection have nothing to handle. -/
theorem tasksInStep_start : TasksInStep lib start :=
  ⟨⟨rfl, rfl, rfl, rfl⟩, fun _ => Nat.le_refl 0, fun _ => rfl⟩

/-- A step of the tasks keeps them in step if none falls behind. -/
theorem TasksInStep.setTasks (h : TasksInStep lib s) {event : DataEvent}
    (hkeeps : s.tasks.KeepsUp event) (buffer : List UInt8) :
    TasksInStep lib { s with buffer := buffer, tasks := s.tasks.step lib event } := by
  have hlossless : s.tasks.channel.Lossless dataBroadcastCapacity DataConsumer.handles
      event.onChannel := by
    cases event <;> exact hkeeps
  refine ⟨h.handled.step event, ?_, ?_⟩
  · rw [DataTasks.channel_step]
    exact h.bounded.step _ _
  · rw [DataTasks.channel_step]
    exact (h.complete.step_iff h.bounded _).mpr hlossless

/-- Every event keeps the tasks in step, if none falls behind. -/
theorem TasksInStep.step (h : TasksInStep lib s) {event : LinkEvent} (hkeeps : s.KeepsUp event) :
    TasksInStep lib (s.step lib event) := by
  cases event with
  | queue msg =>
    simp only [DataLink.step]
    split
    · exact ⟨h.handled, h.bounded, h.complete⟩
    · exact h
  | take =>
    simp only [DataLink.step]
    split
    · exact ⟨h.handled, h.bounded, h.complete⟩
    · exact h
  | write bytes | arrive bytes => exact ⟨h.handled, h.bounded, h.complete⟩
  | read =>
    simp only [DataLink.step, DataLink.pollRead]
    split
    · split
      · exact h
      · exact h.setTasks (by trivial) _
      · exact ⟨h.handled, h.bounded, h.complete⟩
    · exact h
  | resubscribe consumer => exact @TasksInStep.setTasks _ _ h (.resubscribe consumer) hkeeps _
  | recv consumer => exact @TasksInStep.setTasks _ _ h (.recv consumer) hkeeps _

/-- What is on its way to a task: the messages broadcast that it has not come to, those in the
frames between, and those in the queue. -/
def onWay (s : DataLink) (pending : List Message) (consumer : DataConsumer) : List Message :=
  s.tasks.channel.sent.drop (s.tasks.channel.position consumer) ++ (pending ++ s.queue)

/-- Nothing is on its way to a task. -/
structure Drained (s : DataLink) (consumer : DataConsumer) : Prop where
  queue : s.queue = []
  frame : s.frame = []
  stream : s.stream = []
  buffer : s.buffer = []
  reached : s.tasks.channel.position consumer = s.tasks.channel.sent.length

/-- A frame has bytes. -/
theorem writeFrames_eq_nil {messages : List Message} (h : writeFrames messages = []) :
    messages = [] := by
  cases messages with
  | nil => rfl
  | cons m messages =>
    rw [writeFrames_cons] at h
    have hlength := congrArg List.length h
    simp [writeFrame, Frame.toBytes, frameMagic] at hlength

/-- Nothing is on its way on a drained connection. -/
theorem Drained.onWay {consumer : DataConsumer} (h : s.Drained consumer)
    (hintact : s.Intact pending) : s.onWay pending consumer = [] := by
  have hpending : pending = [] := by
    refine writeFrames_eq_nil ?_
    rw [← hintact.bytes, h.buffer, h.stream, h.frame]
    rfl
  rw [DataLink.onWay, h.reached, List.drop_length, hpending, h.queue]
  rfl

/-- Each task has handled its messages up to those on their way. -/
theorem Intact.handled (h : s.Intact pending) (htasks : TasksInStep lib s) :
    Conveyor.Conserved (s.queued.filter Message.isInput)
        ((s.onWay pending .inject).filter Message.isInput) s.tasks.injected ∧
      Conveyor.Conserved (s.queued.filter Message.isClipboard)
        ((s.onWay pending .clipboard).filter Message.isClipboard) s.tasks.received := by
  have hall := htasks.handled.handlesAll_iff.mpr htasks.complete
  have hreached : ∀ consumer, Conveyor.Conserved s.queued (s.onWay pending consumer)
      (s.tasks.reached consumer) :=
    fun consumer => h.conserved.trans (List.take_append_drop _ _)
  constructor
  · rw [hall.injected]
    exact (hreached .inject).filter _
  · rw [hall.received]
    exact (hreached .clipboard).filter _

/-- **The data connection.** In a run in which only messages that fit are queued and the tasks
keep up, however the bytes are cut, the input messages queued are those that the inject task has
handled, in order, and then those on their way; so are the clipboard messages with their task. -/
theorem conveyed {events : List LinkEvent} (hfits : ∀ event ∈ events, QueuesFitting event)
    (hkeeps : Run.Along (step lib) KeepsUp start events) :
    let s := events.foldl (step lib) start
    ∃ pending, s.Intact pending ∧
      Conveyor.Conserved (s.queued.filter Message.isInput)
        ((s.onWay pending .inject).filter Message.isInput) s.tasks.injected ∧
      Conveyor.Conserved (s.queued.filter Message.isClipboard)
        ((s.onWay pending .clipboard).filter Message.isClipboard) s.tasks.received := by
  intro s
  have hintact : ∃ pending, s.Intact pending := by
    refine List.foldlRecOn (motive := fun s => ∃ pending, s.Intact pending) events (step lib)
      ⟨[], intact_start⟩ ?_
    rintro s ⟨pending, hintact⟩ event hevent
    exact hintact.step lib (hfits event hevent)
  have htasks : s.TasksInStep lib :=
    hkeeps.invariant (TasksInStep lib) (fun s event hok h => h.step hok) tasksInStep_start
  obtain ⟨pending, hintact⟩ := hintact
  exact ⟨pending, hintact, hintact.handled htasks⟩

/-- A key and a text, cut into pieces on their way, of which the key has been read. -/
def keyBeforeText : List LinkEvent :=
  [.resubscribe .inject, .resubscribe .clipboard, .queue (.keyPress 7 true),
    .queue (.clipboardData .text [104, 105]), .take, .write 4, .arrive 3, .read, .write 100, .take,
    .write 9, .arrive 15, .read, .recv .inject]

/-- The inject task has handled the key, and the text is on its way. -/
theorem conveyed_keyBeforeText :
    let s := keyBeforeText.foldl (step ⟨.ok, .ok, fun _ => .replicate 32 0⟩) start
    s.tasks.injected = [.keyPress 7 true] ∧ s.tasks.received = [] ∧ ∃ pending,
      s.Intact pending ∧
      Conveyor.Conserved (s.queued.filter Message.isInput)
        ((s.onWay pending .inject).filter Message.isInput) s.tasks.injected ∧
      Conveyor.Conserved (s.queued.filter Message.isClipboard)
        ((s.onWay pending .clipboard).filter Message.isClipboard) s.tasks.received := by
  exact ⟨by decide +kernel, by decide +kernel,
    conveyed (by decide +kernel) (by decide +kernel)⟩

end DataLink

end SuperShare
