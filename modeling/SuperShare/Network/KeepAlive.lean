import Mathlib.Data.List.Chain
import SuperShare.Lib.Run

/-!
# How late a heartbeat may be

The client queues a heartbeat at every tick of an interval, whose ticks are due at fixed times even
if one is late, and the server gives up a client from whose control channel no frame comes for
some time. Times are in milliseconds. The queue, the writer and the network are one channel that
keeps the order. This file says exactly how late the heartbeats may reach the server.
-/

namespace SuperShare

/-- Heartbeat interval, `HEARTBEAT_INTERVAL_SECS`. -/
def heartbeatIntervalMs : ℕ := 5 * 1000

/-- Heartbeat timeout, `HEARTBEAT_TIMEOUT_SECS`. -/
def heartbeatTimeoutMs : ℕ := 15 * 1000

/-- The heartbeats of a client and the message loop of its handler. -/
structure KeepAlive where
  now : ℕ
  /-- When the next tick of the client is due. -/
  nextTick : ℕ
  /-- When the heartbeats on their way were due, the oldest first. -/
  inFlight : List ℕ
  /-- When the pending `read_frame` of the server times out, once it runs its message loop. -/
  deadline : Option ℕ
  timedOut : Bool
  deriving DecidableEq, Repr

/-- What happens on the two machines. -/
inductive KeepAliveEvent where
  | advance (milliseconds : ℕ)
  /-- A tick of the interval queues a heartbeat. -/
  | tick
  /-- The server enters its message loop. -/
  | listen
  /-- The server reads the next heartbeat. -/
  | heartbeat
  /-- The server reads another message. -/
  | message
  /-- The read of the server times out. -/
  | timeout
  deriving DecidableEq, Repr

namespace KeepAlive

/-- The client is accepted, and starts to send heartbeats some time later. -/
def start (phase : ℕ) : KeepAlive := ⟨0, phase, [], none, false⟩

/-- The server goes back to the start of its loop. -/
def readNext (s : KeepAlive) : KeepAlive :=
  { s with deadline := some (s.now + heartbeatTimeoutMs) }

/-- The server is in its message loop. -/
def Serving (s : KeepAlive) : Prop := s.deadline.isSome ∧ s.timedOut = false

instance servingDecidable (s : KeepAlive) : Decidable s.Serving :=
  inferInstanceAs (Decidable (_ ∧ _))

/-- One step. A step that is not possible changes nothing. -/
def step (s : KeepAlive) : KeepAliveEvent → KeepAlive
  | .advance milliseconds => { s with now := s.now + milliseconds }
  | .tick =>
      if s.nextTick ≤ s.now then
        { s with
          nextTick := s.nextTick + heartbeatIntervalMs
          inFlight := s.inFlight ++ [s.nextTick] }
      else s
  | .listen => if s.deadline = none then s.readNext else s
  | .heartbeat =>
      match s.inFlight with
      | _ :: inFlight => if s.Serving then { s with inFlight := inFlight }.readNext else s
      | [] => s
  | .message => if s.Serving then s.readNext else s
  | .timeout => if ∃ deadline ∈ s.deadline, deadline ≤ s.now then { s with timedOut := true } else s

/-- When the heartbeats are due that have not reached the server. -/
def dues (s : KeepAlive) : List ℕ := s.inFlight ++ [s.nextTick]

/-- Time does not pass beyond what a heartbeat may be late. -/
def Timely (slack : ℕ) (s : KeepAlive) : KeepAliveEvent → Prop
  | .advance milliseconds => ∀ due ∈ s.dues, s.now + milliseconds ≤ due + slack
  | _ => True

instance timelyDecidable (slack : ℕ) (s : KeepAlive) : ∀ event, Decidable (s.Timely slack event)
  | .advance milliseconds =>
      inferInstanceAs (Decidable (∀ due ∈ s.dues, s.now + milliseconds ≤ due + slack))
  | .tick | .listen | .heartbeat | .message | .timeout => isTrue trivial

/-- Heartbeats follow each other at the interval, and the server waits for the first of those that
have not reached it until twice the interval beyond the time when it is due. -/
structure Kept (slack : ℕ) (s : KeepAlive) : Prop where
  next : s.nextTick ≤ s.now + heartbeatIntervalMs
  spaced : s.dues.IsChain fun due later => later = due + heartbeatIntervalMs
  timely : ∀ due ∈ s.dues, s.now ≤ due + slack
  waits : ∀ due ∈ s.dues.head?, ∀ deadline ∈ s.deadline, due + 2 * heartbeatIntervalMs ≤ deadline
  alive : s.timedOut = false

/-- There is always a heartbeat to wait for. -/
theorem head?_dues (s : KeepAlive) : ∃ due ∈ s.dues.head?, due ∈ s.dues := by
  cases hflight : s.inFlight with
  | nil => exact ⟨s.nextTick, by simp [dues, hflight]⟩
  | cons due rest => exact ⟨due, by simp [dues, hflight]⟩

/-- The heartbeats that have not reached the server are due in order. -/
theorem Kept.head_le_next {slack : ℕ} {s : KeepAlive} (h : s.Kept slack) {due : ℕ}
    (hdue : due ∈ s.dues.head?) : due ≤ s.nextTick := by
  have hle : s.dues.IsChain (· ≤ ·) := h.spaced.imp fun due later hlater => by omega
  cases hflight : s.inFlight with
  | nil => simp_all [dues]
  | cons first rest =>
    simp only [dues, hflight, List.cons_append, List.head?_cons, Option.mem_some_iff] at hdue hle
    subst hdue
    exact (List.pairwise_cons.mp hle.pairwise).1 _ (by simp)

/-- At the beginning no heartbeat has been sent. -/
theorem kept_start {slack phase : ℕ} (hphase : phase ≤ heartbeatIntervalMs) :
    (start phase).Kept slack where
  next := by simpa [start] using hphase
  spaced := by simp [start, dues]
  timely := by simp [start, dues]
  waits := by simp [start]
  alive := rfl

/-- A frame that arrives gives every heartbeat that follows enough time. -/
theorem Kept.readNext {slack : ℕ} {s : KeepAlive} (h : s.Kept slack) : s.readNext.Kept slack where
  next := h.next
  spaced := h.spaced
  timely := h.timely
  waits := by
    intro due hdue deadline hdeadline
    have hnext := h.next
    have hle := h.head_le_next hdue
    obtain rfl : s.now + heartbeatTimeoutMs = deadline := by
      simpa [KeepAlive.readNext] using hdeadline
    simp only [heartbeatTimeoutMs, heartbeatIntervalMs] at hnext ⊢
    omega
  alive := h.alive

/-- The heartbeat that the server reads is no longer waited for. -/
theorem Kept.received {slack first : ℕ} {rest : List ℕ} {s : KeepAlive} (h : s.Kept slack)
    (hflight : s.inFlight = first :: rest) :
    { s with inFlight := rest }.readNext.Kept slack := by
  have hdues : s.dues = first :: (rest ++ [s.nextTick]) := by simp [dues, hflight]
  have hspaced := hdues ▸ h.spaced
  have hnext : ({ s with inFlight := rest, deadline := none } : KeepAlive).Kept slack := by
    constructor
    · exact h.next
    · exact hspaced.tail
    · intro due hdue
      exact h.timely due (hdues ▸ List.mem_cons_of_mem _ hdue)
    · simp
    · exact h.alive
  exact hnext.readNext

/-- A tick that has come sends the heartbeat that was due. -/
theorem Kept.tick {slack : ℕ} {s : KeepAlive} (h : s.Kept slack) (hdue : s.nextTick ≤ s.now) :
    ({ s with
        nextTick := s.nextTick + heartbeatIntervalMs
        inFlight := s.inFlight ++ [s.nextTick] } : KeepAlive).Kept slack := by
  have hlast := h.timely s.nextTick (by simp [dues])
  constructor
  · exact Nat.add_le_add_right hdue _
  · exact h.spaced.append (by simp) (by simp [dues])
  · intro due hmem
    rcases List.mem_append.mp hmem with hmem | hmem
    · exact h.timely due hmem
    · obtain rfl : due = s.nextTick + heartbeatIntervalMs := by simpa using hmem
      show s.now ≤ _
      omega
  · intro due hmem
    refine h.waits due ?_
    cases hflight : s.inFlight <;> simp_all [dues]
  · exact h.alive

/-- The server does not give up before the heartbeat that it waits for must have come. -/
theorem Kept.not_due {slack : ℕ} {s : KeepAlive} (h : s.Kept slack)
    (hslack : slack < 2 * heartbeatIntervalMs) {deadline : ℕ} (hdeadline : deadline ∈ s.deadline) :
    s.now < deadline := by
  obtain ⟨due, hhead, hmem⟩ := s.head?_dues
  have htimely := h.timely due hmem
  have hwaits := h.waits due hhead deadline hdeadline
  omega

/-- Every step that lets no heartbeat be too late keeps the client. -/
theorem Kept.step {slack : ℕ} (hslack : slack < 2 * heartbeatIntervalMs) {s : KeepAlive}
    {event : KeepAliveEvent} (hok : s.Timely slack event) (h : s.Kept slack) :
    (s.step event).Kept slack := by
  cases event with
  | advance milliseconds =>
    refine ⟨?_, h.spaced, hok, h.waits, h.alive⟩
    have hnext := h.next
    show s.nextTick ≤ s.now + milliseconds + heartbeatIntervalMs
    omega
  | tick =>
    by_cases hdue : s.nextTick ≤ s.now
    · simpa only [KeepAlive.step, if_pos hdue] using h.tick hdue
    · simpa only [KeepAlive.step, if_neg hdue] using h
  | listen =>
    by_cases hnone : s.deadline = none
    · simpa only [KeepAlive.step, if_pos hnone] using h.readNext
    · simpa only [KeepAlive.step, if_neg hnone] using h
  | heartbeat =>
    by_cases hserving : s.Serving
    · cases hflight : s.inFlight with
      | nil => simpa only [KeepAlive.step, hflight] using h
      | cons first rest =>
        simpa only [KeepAlive.step, hflight, if_pos hserving] using h.received hflight
    · cases hflight : s.inFlight with
      | nil => simpa only [KeepAlive.step, hflight] using h
      | cons first rest => simpa only [KeepAlive.step, hflight, if_neg hserving] using h
  | message =>
    by_cases hserving : s.Serving
    · simpa only [KeepAlive.step, if_pos hserving] using h.readNext
    · simpa only [KeepAlive.step, if_neg hserving] using h
  | timeout =>
    have hnot : ¬ ∃ deadline ∈ s.deadline, deadline ≤ s.now := by
      rintro ⟨deadline, hdeadline, hle⟩
      exact absurd hle (Nat.not_le.mpr (h.not_due hslack hdeadline))
    simpa only [KeepAlive.step, if_neg hnot] using h

/-- **A connected client is never given up exactly if its heartbeats are less than ten seconds
late.** This is what the timeout leaves beyond one interval. It holds whenever the client starts its
heartbeats in the first interval, whatever else it sends, and for the delays of all heartbeats
taken together: the ticks, the queue, the writer, the network and the handler of the server. -/
theorem never_timedOut_iff (slack : ℕ) :
    (∀ phase ≤ heartbeatIntervalMs, ∀ events : List KeepAliveEvent,
      Run.Along step (Timely slack) (start phase) events →
        (events.foldl step (start phase)).timedOut = false) ↔
      slack + heartbeatIntervalMs < heartbeatTimeoutMs := by
  constructor
  · intro halways
    by_contra hlate
    have hslack : 10000 ≤ slack := by
      simp only [heartbeatIntervalMs, heartbeatTimeoutMs] at hlate
      omega
    -- the server has read nothing when the first heartbeat, due after one interval, may be late
    have hrun : Run.Along step (Timely slack) (start heartbeatIntervalMs)
        [.listen, .advance heartbeatTimeoutMs, .timeout] := by
      refine ⟨trivial, ?_, trivial, trivial⟩
      intro due hdue
      obtain rfl : due = heartbeatIntervalMs := by simpa [start, step, dues, readNext] using hdue
      show 0 + heartbeatTimeoutMs ≤ _
      simp only [heartbeatIntervalMs, heartbeatTimeoutMs]
      omega
    exact absurd (halways _ le_rfl _ hrun) (by decide)
  · intro hslack phase hphase events hrun
    have hslack' : slack < 2 * heartbeatIntervalMs := by
      simp only [heartbeatIntervalMs, heartbeatTimeoutMs] at hslack ⊢
      omega
    exact (hrun.invariant (Kept slack) (fun s event hok h => h.step hslack' hok)
      (kept_start hphase)).alive

end KeepAlive

end SuperShare
