import SuperShare.Network.Framing
import SuperShare.Lib.Run

/-!
# The client's control reader

The task that `connect` spawns for the control channel: a `select!` between a `read_frame`
on the channel and the tick of the heartbeat interval. The pending read keeps the bytes it
has taken from the stream, and a tick that wins the `select!` drops it together with them.
The server's messages are delivered in arbitrary pieces, in any order with the polls of the
read and the ticks.
-/

namespace SuperShare

/-- How the task stands: in its loop, or stopped at a clean end or an error of the channel. -/
inductive ReaderStatus where
  | running
  | closed
  | failed (e : FrameError)
  deriving DecidableEq

/-- The control reader task and the channel in front of it. -/
structure ControlReader where
  /-- Bytes that the pending `read_frame` has taken from the stream. -/
  taken : List UInt8
  /-- Bytes that have arrived and that no read has taken. -/
  stream : List UInt8
  /-- The stream has ended. -/
  eof : Bool
  /-- All bytes that ever arrived. No step of the task reads it. -/
  arrived : List UInt8
  /-- Messages sent on `ctrl_broadcast`, in order. -/
  broadcast : List Message
  /-- Messages sent on `ctrl_tx_hb`, in order. -/
  ctrlTx : List Message
  status : ReaderStatus

/-- What can happen to the task. -/
inductive ReaderEvent where
  /-- Bytes arrive on the channel. -/
  | deliver (bytes : List UInt8)
  /-- The server closes the channel. -/
  | eof
  /-- The pending `read_frame` is polled. -/
  | poll
  /-- The `hb_interval` branch wins the `select!`. -/
  | tick

namespace ControlReader

/-- The task when `connect` spawns it. -/
def start : ControlReader := ⟨[], [], false, [], [], [], .running⟩

/-- The `read_frame` branch of the `select!`: the read returned `result` and left `rest`. -/
def handle (s : ControlReader) (result : Except FrameError (Option Message))
    (rest : List UInt8) : ControlReader :=
  match result with
  | .ok (some .heartbeat) => { s with taken := [], stream := rest }
  | .ok (some msg) =>
      { s with taken := [], stream := rest, broadcast := s.broadcast ++ [msg] }
  | .ok none => { s with taken := [], stream := rest, status := .closed }
  | .error e => { s with taken := [], stream := rest, status := .failed e }

/-- Poll the read: it goes on with the bytes it has and those that have arrived, and takes
all of them if it still has to wait. -/
def pollRead (s : ControlReader) : ControlReader :=
  match readFrame.attempt (s.taken ++ s.stream) with
  | some (result, rest) => s.handle result rest
  | none =>
      if s.eof then
        let (result, rest) := readFrame.run (s.taken ++ s.stream)
        s.handle result rest
      else { s with taken := s.taken ++ s.stream, stream := [] }

/-- One event. A stopped task does nothing, whatever arrives. -/
def step (s : ControlReader) : ReaderEvent → ControlReader
  | .deliver bytes => { s with stream := s.stream ++ bytes, arrived := s.arrived ++ bytes }
  | .eof => { s with eof := true }
  | .poll => if s.status = .running then s.pollRead else s
  | .tick =>
      if s.status = .running then
        { s with taken := [], ctrlTx := s.ctrlTx ++ [.heartbeat] }
      else s

end ControlReader

/-- The messages that the reader is to pass on. -/
def nonHeartbeats (messages : List Message) : List Message :=
  messages.filter (· ≠ .heartbeat)

/-- The channel delivers the frames of `messages` in order, loses nothing and ends, if it
does, after the last byte. -/
def Delivers (messages : List Message) (s : ControlReader) : ReaderEvent → Prop
  | .deliver bytes => s.eof = false ∧ s.arrived ++ bytes <+: writeFrames messages
  | .eof => s.arrived = writeFrames messages
  | .poll => True
  | .tick => True

/-- A tick that wins finds the pending `read_frame` before its first byte. -/
def TickBetweenFrames (s : ControlReader) : ReaderEvent → Prop
  | .tick => s.taken = []
  | _ => True

/-- Delivery can be checked on a concrete run. -/
instance (messages : List Message) (s : ControlReader) :
    ∀ event, Decidable (Delivers messages s event)
  | .deliver _ => inferInstanceAs (Decidable (_ ∧ _))
  | .eof => inferInstanceAs (Decidable (_ = _))
  | .poll => isTrue trivial
  | .tick => isTrue trivial

/-- So can the position of the ticks. -/
instance (s : ControlReader) : ∀ event, Decidable (TickBetweenFrames s event)
  | .tick => inferInstanceAs (Decidable (_ = _))
  | .deliver _ => isTrue trivial
  | .eof => isTrue trivial
  | .poll => isTrue trivial

/-- Heartbeats are not passed on. -/
@[simp] theorem nonHeartbeats_append (first second : List Message) :
    nonHeartbeats (first ++ second) = nonHeartbeats first ++ nonHeartbeats second :=
  List.filter_append ..

/-- The bytes of two lists of messages follow each other. -/
@[simp] theorem writeFrames_append (first second : List Message) :
    writeFrames (first ++ second) = writeFrames first ++ writeFrames second :=
  List.flatMap_append

/-- A read in front of a part of the written frames returns the first message once its frame
is there. Otherwise it waits, and then some frame is incomplete unless all have been read. -/
theorem readFrame_attempt_prefix {rest : List Message} (hfit : ∀ m ∈ rest, m.Fits)
    {bytes : List UInt8} (hbytes : bytes <+: writeFrames rest) :
    (∃ m later left, rest = m :: later ∧ bytes = writeFrame m ++ left ∧
        readFrame.attempt bytes = some (.ok (some m), left)) ∨
      (readFrame.attempt bytes = none ∧ (bytes = writeFrames rest → rest = [])) := by
  cases rest with
  | nil =>
    have hnil : bytes = [] := List.prefix_nil.mp hbytes
    subst hnil
    exact .inr ⟨rfl, fun _ => rfl⟩
  | cons m later =>
    have hread := readFrame_attempt (hfit m List.mem_cons_self)
    have hfirst : writeFrame m <+: writeFrames (m :: later) := by
      rw [writeFrames_cons]
      exact List.prefix_append _ _
    by_cases hlength : (writeFrame m).length ≤ bytes.length
    · obtain ⟨left, hleft⟩ := List.prefix_of_prefix_length_le hfirst hbytes hlength
      exact .inl ⟨m, later, left, rfl, hleft.symm, by rw [← hleft]; exact hread left⟩
    · obtain ⟨missing, hmissing⟩ :=
        List.prefix_of_prefix_length_le hbytes hfirst (Nat.le_of_not_le hlength)
      have hpos : 0 < missing.length := by
        have := congrArg List.length hmissing
        rw [List.length_append] at this
        omega
      have hwhole := hread []
      rw [← hmissing, List.append_nil] at hwhole
      refine .inr ⟨ByteReader.attempt_eq_none hwhole hpos, ?_⟩
      intro hall
      rw [hall] at hlength
      exact absurd hfirst.length_le hlength

namespace ControlReader

/-- The reader is in step with the server: it has passed on `read`, the bytes it holds and
those in front of it begin the frames of `rest`, and it stops only at the end. -/
structure Synced (messages read rest : List Message) (s : ControlReader) : Prop where
  split : messages = read ++ rest
  broadcast : s.broadcast = nonHeartbeats read
  arrived : s.arrived = writeFrames read ++ (s.taken ++ s.stream)
  delivered : s.taken ++ s.stream <+: writeFrames rest
  ended : s.eof = true → s.taken ++ s.stream = writeFrames rest
  status : s.status = .running ∨ s.status = .closed ∧ rest = []

variable {messages read rest : List Message} {s : ControlReader}

/-- The task starts in step. -/
theorem synced_start (messages : List Message) : Synced messages [] messages start where
  split := rfl
  broadcast := rfl
  arrived := rfl
  delivered := List.nil_prefix
  ended := by simp [start]
  status := .inl rfl

/-- All bytes have arrived when what is in front of the reader is the rest of the frames. -/
theorem Synced.arrived_all (h : Synced messages read rest s)
    (hall : s.arrived = writeFrames messages) : s.taken ++ s.stream = writeFrames rest := by
  rw [h.arrived, h.split, writeFrames_append] at hall
  exact List.append_cancel_left hall

/-- A poll takes the next message, or waits, or finds the end of the channel. It does not
find all the bytes of a message and wait. -/
theorem Synced.pollRead (h : Synced messages read rest s) (hfit : ∀ m ∈ messages, m.Fits)
    (hrunning : s.status = .running) :
    (∃ m later, rest = m :: later ∧ Synced messages (read ++ [m]) later s.pollRead) ∨
      (Synced messages read rest s.pollRead ∧
        (s.taken ++ s.stream = writeFrames rest → rest = [])) := by
  have hrest : ∀ m ∈ rest, m.Fits := fun m hm => hfit m (by
    rw [h.split]
    exact List.mem_append_right _ hm)
  rcases readFrame_attempt_prefix hrest h.delivered with
    ⟨m, later, left, rfl, hbytes, hread⟩ | ⟨hread, hall⟩
  · refine .inl ⟨m, later, rfl, ?_⟩
    have hdelivered := h.delivered
    rw [hbytes, writeFrames_cons, List.prefix_append_right_inj] at hdelivered
    have hended : s.eof = true → left = writeFrames later := by
      intro heof
      have hall := h.ended heof
      rw [hbytes, writeFrames_cons] at hall
      exact List.append_cancel_left hall
    have harrived : s.arrived = writeFrames (read ++ [m]) ++ left := by
      rw [h.arrived, hbytes, writeFrames_append, writeFrames_cons]
      simp [writeFrames]
    have hsplit : messages = read ++ [m] ++ later := by
      rw [h.split, List.append_assoc, List.singleton_append]
    by_cases hheartbeat : m = .heartbeat
    · subst hheartbeat
      have hpoll : s.pollRead = { s with taken := [], stream := left } := by
        rw [ControlReader.pollRead, hread]
        rfl
      rw [hpoll]
      refine ⟨hsplit, ?_, harrived, hdelivered, hended, .inl hrunning⟩
      rw [nonHeartbeats_append, h.broadcast]
      simp [nonHeartbeats]
    · have hpoll : s.pollRead =
          { s with taken := [], stream := left, broadcast := s.broadcast ++ [m] } := by
        rw [ControlReader.pollRead, hread]
        cases m <;> first | rfl | exact absurd rfl hheartbeat
      rw [hpoll]
      refine ⟨hsplit, ?_, harrived, hdelivered, hended, .inl hrunning⟩
      rw [nonHeartbeats_append, h.broadcast]
      simp [nonHeartbeats, hheartbeat]
  · refine .inr ⟨?_, hall⟩
    by_cases heof : s.eof = true
    · have hrest : rest = [] := hall (h.ended heof)
      subst hrest
      have hnil : s.taken ++ s.stream = [] := h.ended heof
      have hpoll : s.pollRead = { s with taken := [], stream := [], status := .closed } := by
        rw [ControlReader.pollRead, hread, if_pos heof, hnil]
        rfl
      rw [hpoll]
      refine ⟨h.split, h.broadcast, ?_, List.nil_prefix, fun _ => rfl, .inr ⟨rfl, rfl⟩⟩
      rw [h.arrived, hnil]
      rfl
    · have hpoll : s.pollRead = { s with taken := s.taken ++ s.stream, stream := [] } := by
        rw [ControlReader.pollRead, hread, if_neg heof]
      rw [hpoll]
      refine ⟨h.split, h.broadcast, ?_, ?_, fun h => absurd h heof, .inl hrunning⟩
      · simpa using h.arrived
      · simpa using h.delivered

/-- A step of an allowed run keeps the reader in step. -/
theorem Synced.step (h : Synced messages read rest s) (hfit : ∀ m ∈ messages, m.Fits)
    {event : ReaderEvent} (hdelivers : Delivers messages s event)
    (htick : TickBetweenFrames s event) :
    ∃ read rest, Synced messages read rest (s.step event) := by
  cases event with
  | deliver bytes =>
    obtain ⟨heof, hprefix⟩ := hdelivers
    have harrived : s.arrived ++ bytes =
        writeFrames read ++ (s.taken ++ (s.stream ++ bytes)) := by
      rw [h.arrived, List.append_assoc, List.append_assoc]
    refine ⟨read, rest, h.split, h.broadcast, harrived, ?_, ?_, h.status⟩
    · rwa [harrived, h.split, writeFrames_append, List.prefix_append_right_inj] at hprefix
    · intro heof'
      exact absurd (heof.symm.trans heof') (by decide)
  | eof =>
    exact ⟨read, rest, h.split, h.broadcast, h.arrived, h.delivered,
      fun _ => h.arrived_all hdelivers, h.status⟩
  | poll =>
    rw [ControlReader.step]
    by_cases hrunning : s.status = .running
    · rw [if_pos hrunning]
      rcases h.pollRead hfit hrunning with ⟨m, later, -, hnext⟩ | ⟨hwait, -⟩
      · exact ⟨_, _, hnext⟩
      · exact ⟨_, _, hwait⟩
    · rw [if_neg hrunning]
      exact ⟨read, rest, h⟩
  | tick =>
    have htaken : s.taken = [] := htick
    rw [ControlReader.step]
    by_cases hrunning : s.status = .running
    · rw [if_pos hrunning]
      refine ⟨read, rest, h.split, h.broadcast, ?_, ?_, ?_, .inl hrunning⟩
      · simpa only [htaken] using h.arrived
      · simpa only [htaken] using h.delivered
      · simpa only [htaken] using h.ended
    · rw [if_neg hrunning]
      exact ⟨read, rest, h⟩

/-- Polls read no new bytes from the network. -/
theorem step_poll_arrived (s : ControlReader) : (s.step .poll).arrived = s.arrived := by
  have hhandle : ∀ result left, (s.handle result left).arrived = s.arrived := by
    intro result left
    unfold handle
    split <;> rfl
  simp only [ControlReader.step, ControlReader.pollRead]
  split
  · split
    · exact hhandle ..
    · split
      · exact hhandle ..
      · rfl
  · rfl

/-- Once every byte has arrived, each poll takes a message, so as many polls as there are
messages left read them all. -/
theorem Synced.polls (h : Synced messages read rest s) (hfit : ∀ m ∈ messages, m.Fits)
    (hall : s.arrived = writeFrames messages) {n : ℕ} (hn : rest.length ≤ n) :
    ∃ read, Synced messages read [] ((List.replicate n .poll).foldl ControlReader.step s) := by
  induction n generalizing s read rest with
  | zero =>
    have hrest : rest = [] := List.length_eq_zero_iff.mp (Nat.le_zero.mp hn)
    subst hrest
    exact ⟨read, h⟩
  | succ n ih =>
    rw [List.replicate_succ, List.foldl_cons]
    have hall' : (s.step .poll).arrived = writeFrames messages := by
      rw [step_poll_arrived, hall]
    rcases h.status with hrunning | ⟨hclosed, rfl⟩
    · have hstep : s.step .poll = s.pollRead := by rw [ControlReader.step, if_pos hrunning]
      rw [hstep] at hall' ⊢
      rcases h.pollRead hfit hrunning with ⟨m, later, rfl, hnext⟩ | ⟨hwait, hdone⟩
      · exact ih hnext hall' (by rw [List.length_cons] at hn; omega)
      · have hrest : rest = [] := hdone (h.arrived_all hall)
        subst hrest
        exact ih hwait hall' (Nat.zero_le n)
    · have hstep : s.step .poll = s := by
        rw [ControlReader.step, if_neg (by rw [hclosed]; decide)]
      rw [hstep]
      exact ih h hall (Nat.zero_le n)

end ControlReader

/-- **The control reader.** In every run in which ticks win only between frames, the task
does not stop with an error, what it has broadcast is an initial part of the messages other
than heartbeats, and once all bytes have arrived it needs only to be polled to broadcast
the rest. -/
theorem control_reader_broadcasts {messages : List Message} (hfit : ∀ m ∈ messages, m.Fits)
    {events : List ReaderEvent}
    (hdelivers : Run.Along ControlReader.step (Delivers messages) .start events)
    (hticks : Run.Along ControlReader.step TickBetweenFrames .start events) :
    let s := events.foldl ControlReader.step .start
    (∀ e, s.status ≠ .failed e) ∧ s.broadcast <+: nonHeartbeats messages ∧
      (s.status = .closed → s.broadcast = nonHeartbeats messages) ∧
      (s.arrived = writeFrames messages → ∀ n, messages.length ≤ n →
        ((List.replicate n .poll).foldl ControlReader.step s).broadcast =
          nonHeartbeats messages) := by
  have hsynced := (hdelivers.and hticks).invariant
    (fun s => ∃ read rest, ControlReader.Synced messages read rest s)
    (fun s event hok ⟨read, rest, h⟩ => h.step hfit hok.1 hok.2)
    ⟨[], messages, ControlReader.synced_start messages⟩
  intro s
  obtain ⟨read, rest, h⟩ : ∃ read rest, ControlReader.Synced messages read rest s := hsynced
  refine ⟨?_, ?_, ?_, ?_⟩
  · intro e hfailed
    rcases h.status with hrunning | ⟨hclosed, -⟩
    · exact absurd (hrunning.symm.trans hfailed) (by simp)
    · exact absurd (hclosed.symm.trans hfailed) (by simp)
  · rw [h.split, h.broadcast, nonHeartbeats_append]
    exact List.prefix_append _ _
  · intro hclosed
    rcases h.status with hrunning | ⟨-, rfl⟩
    · exact absurd (hrunning.symm.trans hclosed) (by simp)
    · rw [h.split, h.broadcast, List.append_nil]
  · intro hall n hn
    have hrest : rest.length ≤ n := by
      have := congrArg List.length h.split
      rw [List.length_append] at this
      omega
    obtain ⟨read, hread⟩ := h.polls hfit hall hrest
    rw [hread.broadcast, hread.split, List.append_nil]

/-- Ticks before the first byte and between two frames do no harm: here the third frame is
still to be polled when the run ends. -/
theorem control_reader_broadcasts_tick_between_frames :
    let messages : List Message := [.boundaryLeave 1, .heartbeat, .screenConfig 1920 1080]
    let bytes := writeFrames messages
    let events : List ReaderEvent := [.tick, .deliver (bytes.take 3), .poll,
      .deliver ((bytes.drop 3).take 9), .poll, .tick, .deliver (bytes.drop 12), .poll]
    ((List.replicate 3 .poll).foldl ControlReader.step
        (events.foldl ControlReader.step .start)).broadcast =
      [.boundaryLeave 1, .screenConfig 1920 1080] :=
  (@control_reader_broadcasts [.boundaryLeave 1, .heartbeat, .screenConfig 1920 1080]
    (by decide) _ (by decide +kernel) (by decide +kernel)).2.2.2 (by decide +kernel) 3
      (by decide)

/-- A tick that wins after three bytes of a header were taken desynchronises the reader: the
next read starts inside the frame, finds no magic there and the task stops. -/
theorem control_reader_tick_in_header :
    let messages : List Message := [.boundaryLeave 1]
    let bytes := writeFrames messages
    let events : List ReaderEvent :=
      [.deliver (bytes.take 3), .poll, .tick, .deliver (bytes.drop 3), .poll]
    let s := events.foldl ControlReader.step .start
    (∀ m ∈ messages, m.Fits) ∧
      Run.Along ControlReader.step (Delivers messages) .start events ∧
      s.arrived = bytes ∧ s.status = .failed (.invalidMagic [5, 0]) ∧ s.broadcast = [] := by
  decide +kernel

end SuperShare
