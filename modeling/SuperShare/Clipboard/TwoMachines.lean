import Mathlib.Logic.Function.Basic
import SuperShare.Clipboard.Relay

/-!
# The clipboards of two machines

The server and its only client run the same clipboard tasks, and each sends the other what its
monitor emits. A clipboard with its monitor is in one of three conditions: the monitor knows what
the clipboard offers, or has yet to emit it, or has yet to learn that it was received. The steps
of the tasks lead from one condition to the next. The channel between the machines keeps its
messages in order.
-/

namespace SuperShare

/-- The two machines. -/
inductive Machine where
  | server
  | client
  deriving DecidableEq

namespace Machine

/-- The machine at the other end. -/
def other : Machine → Machine
  | server => client
  | client => server

/-- The other of the other is the machine itself. -/
@[simp] theorem other_other (m : Machine) : m.other.other = m := by
  cases m <;> rfl

/-- The other machine is another. -/
@[simp] theorem other_ne (m : Machine) : m.other ≠ m := by
  cases m <;> simp [other]

/-- A machine is not its other. -/
@[simp] theorem ne_other (m : Machine) : m ≠ m.other := m.other_ne.symm

/-- Seen from one machine, there are this one and the other. -/
theorem eq_or_other (m p : Machine) : m = p ∨ m = p.other := by
  cases m <;> cases p <;> simp [other]

/-- What holds of both machines holds of each. -/
theorem forall_iff {P : Machine → Prop} (p : Machine) : (∀ m, P m) ↔ P p ∧ P p.other := by
  constructor
  · intro h
    exact ⟨h p, h p.other⟩
  · rintro ⟨hp, hother⟩ m
    rcases m.eq_or_other p with rfl | rfl
    · exact hp
    · exact hother

end Machine

/-- The clipboard tasks of both machines: the clipboard with its monitor, the change that the
monitor task has yet to send, the changes to be forwarded, the messages on their way to the other
machine, and the reassembler of the receiving task. The contents copied and the contents
forwarded are recorded besides. -/
structure SyncState where
  echo : Machine → EchoState
  emitting : Machine → Option ClipboardChange
  changes : Machine → List ClipboardChange
  wire : Machine → List Message
  reassembler : Machine → Option ClipboardReassembler
  copied : List ClipboardContent
  transferred : List ClipboardContent

/-- A step of a task of one machine, a local copy on it, or the passage of its time. -/
inductive SyncEvent where
  | localCopy (clipboard : SystemClipboard)
  /-- The receiving task handles the next message. If that completes a content, the clipboard can
  be written or not. -/
  | receive (written : Bool)
  /-- The receiving task sends the hash of what it wrote. -/
  | send
  | suppress
  | startPoll
  | getText
  | getImage
  | finishPoll
  /-- The monitor task sends the change that its poll has returned. -/
  | emit
  | resume
  /-- The forwarding task sends the messages of the first change. -/
  | forward
  | advance (milliseconds : ℕ)
  deriving DecidableEq

namespace SyncState

/-- The tasks start on a clipboard on each machine. -/
def start (clipboard : Machine → SystemClipboard) : SyncState :=
  ⟨fun m => .start (clipboard m), fun _ => none, fun _ => [], fun _ => [], fun _ => none, [], []⟩

/-- The step that the clipboard and the monitor of a machine take. The receiving task handles no
message while it has a hash to send, and the monitor task does not go on while it has a change to
send. -/
def echoEvent (lib : ClipboardLib) (s : SyncState) (m : Machine) : SyncEvent → Option EchoEvent
  | .localCopy clipboard => some (.localCopy clipboard)
  | .receive written =>
      if (s.echo m).pending.isSome ∨ written = false then none
      else
        match s.wire m.other with
        | msg :: _ => (handleClipboardMessage lib (s.reassembler m) msg).2.map .write
        | [] => none
  | .send => some .send
  | .suppress => some .suppress
  | .startPoll => some .startPoll
  | .getText => some .getText
  | .getImage => some .getImage
  | .finishPoll => some .finishPoll
  | .resume => if (s.emitting m).isSome then none else some .resume
  | .advance milliseconds => some (.advance milliseconds)
  | .emit | .forward => none

/-- The state after an event on a machine, but for the clipboard and the monitor. -/
def tasks (lib : ClipboardLib) (s : SyncState) (m : Machine) : SyncEvent → SyncState
  | .localCopy clipboard => { s with copied := s.copied ++ clipboard.readClipboard.toList }
  | .receive _ =>
      if (s.echo m).pending.isSome then s
      else
        match s.wire m.other with
        | msg :: rest =>
            { s with
              wire := Function.update s.wire m.other rest
              reassembler := Function.update s.reassembler m
                (handleClipboardMessage lib (s.reassembler m) msg).1 }
        | [] => s
  | .finishPoll =>
      { s with
        emitting := Function.update s.emitting m
          ((((s.echo m).react lib .finishPoll).2.map Emission.change) <|> s.emitting m) }
  | .emit =>
      match s.emitting m with
      | some change =>
          if (s.changes m).length < clipChangeCapacity then
            { s with
              emitting := Function.update s.emitting m none
              changes := Function.update s.changes m (s.changes m ++ [change]) }
          else s
      | none => s
  | .forward =>
      match s.changes m with
      | change :: changes =>
          match prepareTransfer lib change.content with
          | .ok messages =>
              { s with
                changes := Function.update s.changes m changes
                wire := Function.update s.wire m (s.wire m ++ messages)
                transferred := s.transferred ++ [change.content] }
          | .error _ => { s with changes := Function.update s.changes m changes }
      | [] => s
  | _ => s

/-- The state after an event on a machine. -/
def step (lib : ClipboardLib) (s : SyncState) : Machine × SyncEvent → SyncState
  | (m, event) =>
      { s.tasks lib m event with
        echo := match s.echoEvent lib m event with
          | some echoed => Function.update s.echo m ((s.echo m).step lib echoed)
          | none => s.echo }

end SyncState

/-- What a clipboard offers is offered after it has been written to another. -/
theorem SystemClipboard.read_write {clipboard : SystemClipboard} {c : ClipboardContent}
    (h : clipboard.readClipboard = some c) : (writeClipboard c).readClipboard = some c := by
  cases c with
  | image width height rgba => rfl
  | text text =>
    have hempty : ¬ text.isEmpty := by
      intro hempty
      cases hoffered : clipboard.text with
      | none => simp [readClipboard, getText, getImage, hoffered] at h
      | some offered =>
        by_cases hnone : offered.isEmpty
        · simp [readClipboard, getText, getImage, hoffered, hnone] at h
        · simp only [readClipboard, getText, hoffered, if_neg hnone] at h
          obtain rfl := ClipboardContent.text.inj (Option.some.inj h)
          exact hnone hempty
    simp [writeClipboard, readClipboard, getText, hempty]

/-- A step that does not change the clipboard. -/
def EchoEvent.keepsClipboard : EchoEvent → Bool
  | localCopy _ | write _ => false
  | _ => true

namespace EchoState

/-- The monitor has received or emitted the hash of a content last. -/
def Knows (lib : ClipboardLib) (e : EchoState) (c : ClipboardContent) : Prop :=
  e.monitor.remoteHash = some (c.hash lib) ∨ e.monitor.lastHash = some (c.hash lib)

instance (lib : ClipboardLib) (e : EchoState) (c : ClipboardContent) :
    Decidable (Knows lib e c) := inferInstanceAs (Decidable (_ ∨ _))

/-- The clipboard offers a content which the monitor knows, and no suppression is on its way. A poll
under way finds what the monitor knows. -/
structure Holds (lib : ClipboardLib) (content : Option ClipboardContent) (e : EchoState) :
    Prop where
  read : e.clipboard.readClipboard = content
  pending : e.pending = none
  queue : e.queue = []
  known : ∀ c ∈ content, Knows lib e c
  noText : e.phase = .noText → e.clipboard.getText = none
  found : ∀ c origin, e.phase = .found c origin → Knows lib e c

/-- The clipboard offers a content which the monitor does not know. -/
structure Fresh (lib : ClipboardLib) (c : ClipboardContent) (e : EchoState) : Prop where
  read : e.clipboard.readClipboard = some c
  pending : e.pending = none
  queue : e.queue = []
  unknown : ¬ Knows lib e c
  noText : e.phase = .noText → e.clipboard.getText = none
  found : ∀ c' origin, e.phase = .found c' origin → c' = c

/-- The clipboard offers a content that was received, and its suppression is on its way. -/
structure Received (lib : ClipboardLib) (c : ClipboardContent) (e : EchoState) : Prop where
  read : e.clipboard.readClipboard = some c
  origin : e.origin.isSome
  waiting : e.queue ++ e.pending.toList = [c.hash lib]
  found : ∀ c' origin, e.phase = .found c' origin → Knows lib e c' ∨ origin.isSome

variable {lib : ClipboardLib} {e : EchoState} {c : ClipboardContent}

/-- A monitor is silent on what it knows. -/
theorem Knows.silences (h : Knows lib e c) (now : ℕ) : e.monitor.Silences lib now c := by
  rcases h with hremote | hlast
  · exact .inl hremote
  · exact .inr (.inr hlast)

/-- A poll that has found what the monitor knows returns nothing and leaves the monitor alone. -/
theorem Knows.finishPoll (h : Knows lib e c) {origin : Option ℕ}
    (hphase : e.phase = .found c origin) :
    e.react lib .finishPoll = ({ e with phase := .polled }, none) := by
  simp [react, hphase, ClipboardMonitor.pollContent_of_silences (h.silences e.now)]

/-- What a step that does not change the clipboard can do. -/
inductive TaskStep (lib : ClipboardLib) (e : EchoState) : EchoState × Option Emission → Prop where
  | idle : TaskStep lib e (e, none)
  | advance (now : ℕ) : TaskStep lib e ({ e with now := now }, none)
  | send (hash : Vector UInt8 32) : e.pending = some hash →
      TaskStep lib e ({ e with pending := none, queue := e.queue ++ [hash] }, none)
  | suppress (hash : Vector UInt8 32) (queue : List (Vector UInt8 32)) (due : ℕ) :
      e.queue = hash :: queue →
      TaskStep lib e
        ({ e with
          queue := queue
          monitor := e.monitor.suppress e.now hash
          phase := .waiting due
          applied := e.applied + 1 }, none)
  /-- The poll goes on without having found anything. -/
  | proceed (phase : MonitorPhase) : (phase = .noText → e.clipboard.getText = none) →
      (∀ c origin, phase ≠ .found c origin) → TaskStep lib e ({ e with phase := phase }, none)
  | findText (c : ClipboardContent) : e.clipboard.getText = some c →
      TaskStep lib e ({ e with phase := .found c e.origin }, none)
  | findImage (c : ClipboardContent) : e.phase = .noText → e.clipboard.getImage = some c →
      TaskStep lib e ({ e with phase := .found c e.origin }, none)
  | silent (c : ClipboardContent) (origin : Option ℕ) : e.phase = .found c origin →
      e.monitor.Silences lib e.now c → TaskStep lib e ({ e with phase := .polled }, none)
  | loud (c : ClipboardContent) (origin : Option ℕ) : e.phase = .found c origin →
      ¬ e.monitor.Silences lib e.now c →
      TaskStep lib e
        ({ e with
          monitor := { e.monitor with lastHash := some (c.hash lib) }
          phase := .polled }, some ⟨⟨c, c.hash lib⟩, origin⟩)

/-- A step that does not change the clipboard is one of these. -/
theorem taskStep (e : EchoState) {event : EchoEvent} (hevent : event.keepsClipboard = true) :
    TaskStep lib e (e.react lib event) := by
  cases event with
  | localCopy | write => exact absurd hevent (by simp [EchoEvent.keepsClipboard])
  | send =>
    cases hpending : e.pending with
    | none => simpa only [react, hpending] using TaskStep.idle
    | some hash =>
      simp only [react, hpending]
      split
      · exact .send hash hpending
      · exact .idle
  | suppress =>
    cases hphase : e.phase with
    | waiting due =>
      cases hqueue : e.queue with
      | nil => simpa only [react, hphase, hqueue] using TaskStep.idle
      | cons hash queue =>
        simpa only [react, hphase, hqueue] using TaskStep.suppress hash queue _ hqueue
    | _ => simpa only [react, hphase] using TaskStep.idle
  | startPoll =>
    cases hphase : e.phase with
    | waiting due =>
      simp only [react, hphase]
      split
      · exact .proceed _ (by simp) (by simp)
      · exact .idle
    | _ => simpa only [react, hphase] using TaskStep.idle
  | getText =>
    cases hphase : e.phase with
    | polling =>
      cases htext : e.clipboard.getText with
      | none => simpa only [react, hphase, htext] using .proceed .noText (fun _ => htext) (by simp)
      | some c => simpa only [react, hphase, htext] using TaskStep.findText c htext
    | _ => simpa only [react, hphase] using TaskStep.idle
  | getImage =>
    cases hphase : e.phase with
    | noText =>
      cases himage : e.clipboard.getImage with
      | none =>
        simpa only [react, hphase, himage] using TaskStep.proceed .polled (by simp) (by simp)
      | some c => simpa only [react, hphase, himage] using TaskStep.findImage c hphase himage
    | _ => simpa only [react, hphase] using TaskStep.idle
  | finishPoll =>
    cases hphase : e.phase with
    | found c origin =>
      by_cases hsilent : e.monitor.Silences lib e.now c
      · simp only [react, hphase, ClipboardMonitor.pollContent_of_silences hsilent]
        exact .silent c origin hphase hsilent
      · simp only [react, hphase, ClipboardMonitor.pollContent_of_not_silences hsilent]
        exact .loud c origin hphase hsilent
    | _ => simpa only [react, hphase] using TaskStep.idle
  | resume =>
    cases hphase : e.phase with
    | polled =>
      simpa only [react, hphase] using TaskStep.proceed (.waiting _) (by simp) (by simp)
    | _ => simpa only [react, hphase] using TaskStep.idle
  | advance milliseconds => exact .advance _

/-- What a poll finds is what the clipboard offers. -/
theorem read_of_getText (h : e.clipboard.getText = some c) :
    e.clipboard.readClipboard = some c := by
  rw [SystemClipboard.readClipboard, h]
  rfl

/-- An image is what the clipboard offers when it offers no text. -/
theorem read_of_getImage (htext : e.clipboard.getText = none)
    (h : e.clipboard.getImage = some c) : e.clipboard.readClipboard = some c := by
  rw [SystemClipboard.readClipboard, htext, h]
  rfl

/-- While the monitor knows what the clipboard offers, the tasks keep it so and return nothing. -/
theorem Holds.react {content : Option ClipboardContent} (h : Holds lib content e)
    {event : EchoEvent} (hevent : event.keepsClipboard = true) :
    Holds lib content (e.step lib event) ∧ (e.react lib event).2 = none := by
  have hfind : ∀ c, e.clipboard.readClipboard = some c →
      Holds lib content { e with phase := .found c e.origin } := by
    intro c hread
    refine ⟨h.read, h.pending, h.queue, h.known, by simp, ?_⟩
    intro c' origin heq
    obtain ⟨rfl, -⟩ := MonitorPhase.found.inj heq
    exact h.known c (h.read.symm.trans hread)
  have hstep := @taskStep lib e event hevent
  rw [step]
  generalize e.react lib event = outcome at hstep ⊢
  cases hstep with
  | idle => exact ⟨h, rfl⟩
  | advance now => exact ⟨⟨h.read, h.pending, h.queue, h.known, h.noText, h.found⟩, rfl⟩
  | send hash hpending => exact absurd (h.pending.symm.trans hpending) (by simp)
  | suppress hash queue due hqueue => exact absurd (h.queue.symm.trans hqueue) (by simp)
  | proceed phase hnoText hnone =>
    exact ⟨⟨h.read, h.pending, h.queue, h.known, hnoText,
      fun c origin heq => absurd heq (hnone c origin)⟩, rfl⟩
  | findText c htext => exact ⟨hfind c (read_of_getText htext), rfl⟩
  | findImage c hphase himage => exact ⟨hfind c (read_of_getImage (h.noText hphase) himage), rfl⟩
  | silent c origin hphase hsilent =>
    exact ⟨⟨h.read, h.pending, h.queue, h.known, by simp, by simp⟩, rfl⟩
  | loud c origin hphase hloud =>
    exact absurd ((h.found c origin hphase).silences e.now) hloud

/-- A content that the monitor does not know stays so until a poll returns it. -/
theorem Fresh.react (h : Fresh lib c e) {event : EchoEvent}
    (hevent : event.keepsClipboard = true) :
    (Fresh lib c (e.step lib event) ∧ (e.react lib event).2 = none) ∨
      (Holds lib (some c) (e.step lib event) ∧
        ∃ origin, (e.react lib event).2 = some ⟨⟨c, c.hash lib⟩, origin⟩) := by
  have hfind : ∀ c', e.clipboard.readClipboard = some c' →
      Fresh lib c { e with phase := .found c' e.origin } := by
    intro c' hread
    refine ⟨h.read, h.pending, h.queue, h.unknown, by simp, ?_⟩
    intro found origin heq
    obtain ⟨rfl, -⟩ := MonitorPhase.found.inj heq
    exact Option.some.inj (hread.symm.trans h.read)
  have hstep := @taskStep lib e event hevent
  rw [step]
  generalize e.react lib event = outcome at hstep ⊢
  cases hstep with
  | idle => exact .inl ⟨h, rfl⟩
  | advance now => exact .inl ⟨⟨h.read, h.pending, h.queue, h.unknown, h.noText, h.found⟩, rfl⟩
  | send hash hpending => exact absurd (h.pending.symm.trans hpending) (by simp)
  | suppress hash queue due hqueue => exact absurd (h.queue.symm.trans hqueue) (by simp)
  | proceed phase hnoText hnone =>
    exact .inl ⟨⟨h.read, h.pending, h.queue, h.unknown, hnoText,
      fun c origin heq => absurd heq (hnone c origin)⟩, rfl⟩
  | findText c' htext => exact .inl ⟨hfind c' (read_of_getText htext), rfl⟩
  | findImage c' hphase himage =>
    exact .inl ⟨hfind c' (read_of_getImage (h.noText hphase) himage), rfl⟩
  | silent c' origin hphase hsilent =>
    exact .inl ⟨⟨h.read, h.pending, h.queue, h.unknown, by simp, by simp⟩, rfl⟩
  | loud c' origin hphase hloud =>
    obtain rfl := h.found c' origin hphase
    right
    refine ⟨⟨h.read, h.pending, h.queue, ?_, by simp, by simp⟩, origin, rfl⟩
    intro found hfound
    obtain rfl := Option.some.inj hfound
    exact .inr rfl

/-- A content that was received is not emitted until its suppression is applied, if every poll has a
reason to be silent on it. -/
theorem Received.react (h : Received lib c e) (hordered : e.Ordered lib) {event : EchoEvent}
    (hevent : event.keepsClipboard = true) (hintime : e.SuppressedInTime lib event) :
    (Received lib c (e.step lib event) ∨ Holds lib (some c) (e.step lib event)) ∧
      (e.react lib event).2 = none := by
  have hquiet : NotEchoed (e.react lib event).2 := (hordered.notEchoed_iff event).mpr hintime
  have hfind : ∀ c', Received lib c { e with phase := .found c' e.origin } := by
    intro c'
    refine ⟨h.read, h.origin, h.waiting, ?_⟩
    intro found origin heq
    obtain ⟨-, rfl⟩ := MonitorPhase.found.inj heq
    exact .inr h.origin
  have hstep := @taskStep lib e event hevent
  rw [step]
  generalize e.react lib event = outcome at hstep hquiet ⊢
  cases hstep with
  | idle => exact ⟨.inl h, rfl⟩
  | advance now => exact ⟨.inl ⟨h.read, h.origin, h.waiting, h.found⟩, rfl⟩
  | send hash hpending =>
    refine ⟨.inl ⟨h.read, h.origin, ?_, h.found⟩, rfl⟩
    have hwaiting := h.waiting
    rw [hpending] at hwaiting
    simpa using hwaiting
  | suppress hash queue due hqueue =>
    have hwaiting := h.waiting
    rw [hqueue, List.cons_append, List.cons_eq_cons] at hwaiting
    obtain ⟨rfl, hrest⟩ := hwaiting
    obtain ⟨rfl, hpending⟩ := List.append_eq_nil_iff.mp hrest
    refine ⟨.inr ⟨h.read, Option.toList_eq_nil_iff.mp hpending, rfl, ?_, by simp, by simp⟩, rfl⟩
    intro found hfound
    obtain rfl := Option.some.inj hfound
    exact .inl rfl
  | proceed phase hnoText hnone =>
    exact ⟨.inl ⟨h.read, h.origin, h.waiting,
      fun c origin heq => absurd heq (hnone c origin)⟩, rfl⟩
  | findText c' htext => exact ⟨.inl (hfind c'), rfl⟩
  | findImage c' hphase himage => exact ⟨.inl (hfind c'), rfl⟩
  | silent c' origin hphase hsilent =>
    exact ⟨.inl ⟨h.read, h.origin, h.waiting, by simp⟩, rfl⟩
  | loud c' origin hphase hloud =>
    exfalso
    rcases h.found c' origin hphase with hknown | horigin
    · exact hloud (hknown.silences e.now)
    · have hlocal : origin = none := hquiet _ rfl
      rw [hlocal] at horigin
      exact absurd horigin (by simp)

/-- A write of a content leaves its suppression to be sent. -/
theorem Holds.write {content : Option ClipboardContent} (h : Holds lib content e)
    (hread : (SystemClipboard.writeClipboard c).readClipboard = some c) :
    Received lib c (e.step lib (.write c)) := by
  rw [step, EchoState.react, h.pending, if_neg (by simp)]
  refine ⟨hread, rfl, ?_, fun c' origin hphase => .inl (h.found c' origin hphase)⟩
  rw [h.queue]
  rfl

/-- A copy while no poll is under way puts a new content on the clipboard, or one that the monitor
knows. -/
theorem Holds.localCopy {content : Option ClipboardContent} (h : Holds lib content e) {due : ℕ}
    (hphase : e.phase = .waiting due) {clipboard : SystemClipboard}
    (hread : clipboard.readClipboard = some c) :
    (¬ Knows lib e c → Fresh lib c (e.step lib (.localCopy clipboard))) ∧
      (Knows lib e c → Holds lib (some c) (e.step lib (.localCopy clipboard))) := by
  have hnoText : e.phase ≠ .noText := by simp [hphase]
  have hfound : ∀ c origin, e.phase ≠ .found c origin := by simp [hphase]
  constructor
  · intro hunknown
    exact ⟨hread, h.pending, h.queue, hunknown, fun h => absurd h hnoText,
      fun c' origin h => absurd h (hfound c' origin)⟩
  · intro hknown
    refine ⟨hread, h.pending, h.queue, ?_, fun h => absurd h hnoText,
      fun c' origin h => absurd h (hfound c' origin)⟩
    intro c' hc'
    obtain rfl := Option.some.inj hc'
    exact hknown

end EchoState

end SuperShare
