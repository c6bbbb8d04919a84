import Mathlib.Data.Finset.Basic
import Mathlib.Data.Finset.Empty
import SuperShare.Clipboard.Echo
import SuperShare.Clipboard.SharedSlot

/-!
# Content of one client for the others

The server writes the content of a client to its own clipboard and suppresses it. Its clients
are sent what the monitor emits. In a run without early polls the monitor emits only what was
copied on the server itself, so that the content of a client reaches no other client.
-/

namespace SuperShare

/-- Capacity of the channel of clipboard changes. -/
def clipChangeCapacity : ℕ := 16

/-- A transfer that the receiving task has completed. -/
structure CompletedTransfer where
  client : String
  content : ClipboardContent
  /-- The number of its write, if the clipboard could be written. -/
  write : Option ℕ
  /-- The other clients that were registered then. -/
  others : Finset String
  deriving DecidableEq

/-- The clipboard tasks of the server: the receiving task, the monitor with its clipboard, and
the task that forwards changes. The completed transfers, and what was queued for the clients of a
name with the number of the write it is due to, are recorded besides. -/
structure RelayState where
  task : ReceiveTask
  echo : EchoState
  /-- The change that the monitor task has yet to send. -/
  emitting : Option Emission
  changes : List Emission
  clients : Finset String
  transfers : List CompletedTransfer
  queued : String → List (Message × Option ℕ)

/-- A step of a task, a local copy, a change of the clients, or the passage of time. -/
inductive RelayEvent where
  | localCopy (clipboard : SystemClipboard)
  /-- The receiving task handles a message of a client. If that completes a content, the clipboard
  can be written or not. -/
  | receive (client : String) (msg : Message) (written : Bool)
  /-- The receiving task sends the hash of what it wrote. -/
  | send
  | suppress
  | startPoll
  | getText
  | getImage
  | finishPoll
  /-- The monitor task sends the change that its poll has returned. -/
  | emit
  | resume
  /-- The forwarding task sends the first change to every client, until the receiver of one is
  gone. -/
  | forward (accepted : String → ℕ)
  | register (name : String)
  | unregister (name : String)
  | advance (milliseconds : ℕ)

namespace RelayState

/-- The tasks start on a clipboard. -/
def start (clipboard : SystemClipboard) : RelayState :=
  ⟨.start, .start clipboard, none, [], ∅, [], fun _ => []⟩

/-- The step that the clipboard and the monitor take. The receiving task handles no message while
it has a hash to send, and the monitor task does not go on while it has a change to send. -/
def echoEvent (lib : ClipboardLib) (s : RelayState) : RelayEvent → Option EchoEvent
  | .localCopy clipboard => some (.localCopy clipboard)
  | .receive client msg written =>
      if s.echo.pending.isSome ∨ written = false then none
      else (s.task.recv lib (client, msg)).2.map .write
  | .send => some .send
  | .suppress => some .suppress
  | .startPoll => some .startPoll
  | .getText => some .getText
  | .getImage => some .getImage
  | .finishPoll => some .finishPoll
  | .resume => if s.emitting.isSome then none else some .resume
  | .advance milliseconds => some (.advance milliseconds)
  | .emit | .forward _ | .register _ | .unregister _ => none

/-- The state after an event, but for the clipboard and the monitor. -/
def tasks (lib : ClipboardLib) (s : RelayState) : RelayEvent → RelayState
  | .receive client msg written =>
      if s.echo.pending.isSome then s
      else
        let (task, content) := s.task.recv lib (client, msg)
        { s with
          task := task
          transfers := s.transfers ++ content.toList.map fun content =>
            ⟨client, content, if written then some s.echo.written.length else none,
              s.clients.erase client⟩ }
  | .finishPoll => { s with emitting := (s.echo.react lib .finishPoll).2 <|> s.emitting }
  | .emit =>
      match s.emitting with
      | some emission =>
          if s.changes.length < clipChangeCapacity then
            { s with emitting := none, changes := s.changes ++ [emission] }
          else s
      | none => s
  | .forward accepted =>
      match s.changes with
      | emission :: changes =>
          match prepareTransfer lib emission.change.content with
          | .ok messages =>
              { s with
                changes := changes
                queued := fun name =>
                  if name ∈ s.clients then
                    s.queued name ++ (messages.take (accepted name)).map (·, emission.origin)
                  else s.queued name }
          | .error _ => { s with changes := changes }
      | [] => s
  | .register name => { s with clients := insert name s.clients }
  | .unregister name => { s with clients := s.clients.erase name }
  | _ => s

/-- The state after an event. -/
def step (lib : ClipboardLib) (s : RelayState) (event : RelayEvent) : RelayState :=
  { s.tasks lib event with
    echo := match s.echoEvent lib event with
      | some event => s.echo.step lib event
      | none => s.echo }

/-- No poll gets between a write and its suppression. -/
def RaceFree (lib : ClipboardLib) (s : RelayState) (event : RelayEvent) : Prop :=
  ∀ echoed, s.echoEvent lib event = some echoed → s.echo.SuppressedInTime lib echoed

/-- The content of the transfer was queued for every other client, and not for its own. -/
structure Relayed (lib : ClipboardLib) (s : RelayState) (t : CompletedTransfer) : Prop where
  others : ∀ name ∈ t.others, ∃ number messages, t.write = some number ∧
    prepareTransfer lib t.content = .ok messages ∧
    (messages.map fun msg => (msg, some number)).Sublist (s.queued name)
  sender : ∀ number, t.write = some number → ∀ msg, (msg, some number) ∉ s.queued t.client

/-- A client whose message completes a transfer is the only one registered. -/
def Alone (lib : ClipboardLib) (s : RelayState) : RelayEvent → Prop
  | .receive client msg _ => s.echo.pending.isSome = false →
      (s.task.recv lib (client, msg)).2.isSome = true → s.clients.erase client = ∅
  | _ => True

/-- Only a poll that finishes can be early. -/
theorem raceFree_of_ne {lib : ClipboardLib} {s : RelayState} {event : RelayEvent}
    (h : event ≠ .finishPoll) : RaceFree lib s event := by
  intro echoed hechoed hfinish
  subst hfinish
  cases event with
  | finishPoll => exact absurd rfl h
  | receive client msg written =>
    simp only [echoEvent] at hechoed
    split at hechoed
    · exact absurd hechoed (by simp)
    · cases hcontent : (s.task.recv lib (client, msg)).2 <;> simp [hcontent] at hechoed
  | resume =>
    simp only [echoEvent] at hechoed
    split at hechoed <;> exact absurd hechoed (by simp)
  | _ => exact absurd hechoed (by simp [echoEvent])

/-- Nothing that is due to a remote write is on its way to a client. -/
structure LocalOnly (s : RelayState) : Prop where
  emitting : ∀ emission ∈ s.emitting, emission.origin = none
  changes : ∀ emission ∈ s.changes, emission.origin = none
  queued : ∀ name, ∀ entry ∈ s.queued name, entry.2 = none

variable {lib : ClipboardLib} {s : RelayState}

/-- Every event keeps the clipboard and the monitor in order. -/
theorem ordered_step (h : s.echo.Ordered lib) (event : RelayEvent) :
    (s.step lib event).echo.Ordered lib := by
  rw [step]
  cases s.echoEvent lib event with
  | none => exact h
  | some echoed => exact h.step echoed

/-- A poll that returns nothing due to a remote write keeps it so. -/
theorem LocalOnly.finishPoll (h : LocalOnly s)
    (hpoll : EchoState.NotEchoed (s.echo.react lib .finishPoll).2) :
    LocalOnly (s.tasks lib .finishPoll) := by
  refine ⟨fun emission hmem => ?_, h.changes, h.queued⟩
  cases hreturned : (s.echo.react lib .finishPoll).2 with
  | none =>
    simp only [tasks, hreturned] at hmem
    exact h.emitting emission hmem
  | some returned =>
    simp only [tasks, hreturned] at hmem
    exact hpoll emission (hreturned ▸ hmem)

/-- Sending a change to the forwarding task keeps it local. -/
theorem LocalOnly.emit (h : LocalOnly s) : LocalOnly (s.tasks lib .emit) := by
  cases hemitting : s.emitting with
  | none => simpa only [tasks, hemitting] using h
  | some emission =>
    by_cases hroom : s.changes.length < clipChangeCapacity
    · simp only [tasks, hemitting, if_pos hroom]
      refine ⟨by simp, fun other hmem => ?_, h.queued⟩
      rcases List.mem_append.mp hmem with hmem | hmem
      · exact h.changes other hmem
      · rw [List.mem_singleton.mp hmem]
        exact h.emitting emission hemitting
    · simpa only [tasks, hemitting, if_neg hroom] using h

/-- What is queued for the clients comes from the changes. -/
theorem LocalOnly.forward (h : LocalOnly s) (accepted : String → ℕ) :
    LocalOnly (s.tasks lib (.forward accepted)) := by
  cases hchanges : s.changes with
  | nil => simpa only [tasks, hchanges] using h
  | cons emission changes =>
    have hrest : ∀ other ∈ changes, other.origin = none :=
      fun other hmem => h.changes other (hchanges ▸ List.mem_cons_of_mem _ hmem)
    have horigin : emission.origin = none := h.changes emission (hchanges ▸ List.mem_cons_self)
    cases hprepare : prepareTransfer lib emission.change.content with
    | error e =>
      simp only [tasks, hchanges, hprepare]
      exact ⟨h.emitting, hrest, h.queued⟩
    | ok messages =>
      simp only [tasks, hchanges, hprepare]
      refine ⟨h.emitting, hrest, fun name entry hmem => ?_⟩
      by_cases hname : name ∈ s.clients
      · simp only [if_pos hname] at hmem
        rcases List.mem_append.mp hmem with hmem | hmem
        · exact h.queued name entry hmem
        · obtain ⟨msg, -, rfl⟩ := List.mem_map.mp hmem
          exact horigin
      · simp only [if_neg hname] at hmem
        exact h.queued name entry hmem

/-- Without early polls nothing that is due to a remote write gets on its way. -/
theorem LocalOnly.step (h : LocalOnly s) (hordered : s.echo.Ordered lib) {event : RelayEvent}
    (hrace : RaceFree lib s event) : LocalOnly (s.step lib event) := by
  have htasks : LocalOnly (s.tasks lib event) := by
    cases event with
    | receive client msg written =>
      by_cases hbusy : s.echo.pending.isSome = true
      · simpa only [tasks, if_pos hbusy] using h
      · simp only [tasks, if_neg hbusy]
        exact ⟨h.emitting, h.changes, h.queued⟩
    | finishPoll => exact h.finishPoll ((hordered.notEchoed_iff .finishPoll).mpr (hrace _ rfl))
    | emit => exact h.emit
    | forward accepted => exact h.forward accepted
    | _ => exact ⟨h.emitting, h.changes, h.queued⟩
  exact ⟨htasks.emitting, htasks.changes, htasks.queued⟩

/-- In a run without early polls nothing that is due to a remote write gets on its way. -/
theorem localOnly_run {clipboard : SystemClipboard} {events : List RelayEvent}
    (hrace : Run.Along (step lib) (RaceFree lib) (start clipboard) events) :
    LocalOnly (events.foldl (step lib) (start clipboard)) := by
  have hstart : (start clipboard).echo.Ordered lib ∧ LocalOnly (start clipboard) :=
    ⟨EchoState.ordered_start clipboard, by simp [start], by simp [start], by simp [start]⟩
  exact (hrace.invariant (fun s => s.echo.Ordered lib ∧ LocalOnly s)
    (fun s event hok h => ⟨ordered_step h.1 event, h.2.step h.1 hok⟩) hstart).2

/-- A transfer has at least one message. -/
theorem prepareTransfer_ne_nil {content : ClipboardContent} {messages : List Message}
    (h : prepareTransfer lib content = .ok messages) : messages ≠ [] := by
  cases content with
  | text text =>
    obtain rfl : [.clipboardData .text (utf8 text)] = messages := Except.ok.inj h
    simp
  | image width height rgba =>
    obtain ⟨compressed, -, -, rfl⟩ := prepareTransfer_image h
    simp [imageMessages]

/-- While nothing is due to a remote write, a transfer is relayed only if there is no one to
relay it to. -/
theorem LocalOnly.relayed_iff (h : LocalOnly s) (t : CompletedTransfer) :
    Relayed lib s t ↔ t.others = ∅ := by
  constructor
  · intro hrelayed
    rw [Finset.eq_empty_iff_forall_notMem]
    intro name hname
    obtain ⟨number, messages, -, hprepare, hqueued⟩ := hrelayed.others name hname
    obtain ⟨msg, hmsg⟩ := List.exists_mem_of_ne_nil _ (prepareTransfer_ne_nil hprepare)
    have hentry : (msg, some number) ∈ s.queued name :=
      hqueued.subset (List.mem_map_of_mem hmsg)
    exact absurd (h.queued name _ hentry) (by simp)
  · intro hnone
    refine ⟨by simp [hnone], fun number _ msg hmem => ?_⟩
    exact absurd (h.queued _ _ hmem) (by simp)

/-- What a step adds to the completed transfers. -/
theorem transfers_step (s : RelayState) (event : RelayEvent) :
    (s.step lib event).transfers = s.transfers ∨ ∃ client msg written content,
      event = .receive client msg written ∧ s.echo.pending.isSome = false ∧
        (s.task.recv lib (client, msg)).2 = some content ∧
        (s.step lib event).transfers = s.transfers ++ [⟨client, content,
          if written then some s.echo.written.length else none, s.clients.erase client⟩] := by
  cases event with
  | receive client msg written =>
    by_cases hbusy : s.echo.pending.isSome = true
    · left
      simp only [step, tasks, if_pos hbusy]
    · cases hcontent : (s.task.recv lib (client, msg)).2 with
      | none =>
        left
        simp [step, tasks, if_neg hbusy, hcontent]
      | some content =>
        refine .inr ⟨client, msg, written, content, rfl, by simpa using hbusy, hcontent, ?_⟩
        simp [step, tasks, if_neg hbusy, hcontent]
  | emit =>
    left
    simp only [step, tasks]
    split
    · split <;> rfl
    · rfl
  | forward accepted =>
    left
    simp only [step, tasks]
    split
    · split <;> rfl
    · rfl
  | _ => exact .inl rfl

/-- Every transfer so far has found its client alone. -/
def AllAlone (s : RelayState) : Prop := ∀ t ∈ s.transfers, t.others = ∅

/-- Transfers that have been completed stay so. -/
theorem AllAlone.of_step {event : RelayEvent} (h : AllAlone (s.step lib event)) : AllAlone s := by
  intro t ht
  rcases transfers_step s event with hsame | ⟨client, msg, written, content, -, -, -, hmore⟩
  · exact h t (hsame ▸ ht)
  · exact h t (hmore ▸ List.mem_append_left _ ht)

/-- The transfers of a step find their client alone exactly if the step does. -/
theorem AllAlone.step_iff (h : AllAlone s) (event : RelayEvent) :
    AllAlone (s.step lib event) ↔ Alone lib s event := by
  rcases transfers_step s event with hsame | ⟨client, msg, written, content, rfl, hidle, hcontent,
    hmore⟩
  · have hall : AllAlone (s.step lib event) := by
      intro t ht
      exact h t (hsame ▸ ht)
    refine ⟨fun _ => ?_, fun _ => hall⟩
    cases event with
    | receive client msg written =>
      intro hidle hsome
      obtain ⟨content, hcontent⟩ := Option.isSome_iff_exists.mp hsome
      have hbusy : ¬ s.echo.pending.isSome = true := by simp [hidle]
      simp [step, tasks, if_neg hbusy, hcontent] at hsame
    | _ => trivial
  · constructor
    · intro hall _ _
      have hmem : ⟨client, content, if written then some s.echo.written.length else none,
          s.clients.erase client⟩ ∈ (s.step lib (.receive client msg written)).transfers := by
        rw [hmore]
        simp
      exact hall _ hmem
    · intro halone t ht
      rw [hmore] at ht
      rcases List.mem_append.mp ht with ht | ht
      · exact h t ht
      · rw [List.mem_singleton.mp ht]
        exact halone hidle (by rw [hcontent]; rfl)

/-- The transfers of a run find their clients alone exactly if its steps do. -/
theorem allAlone_iff (clipboard : SystemClipboard) (events : List RelayEvent) :
    AllAlone (events.foldl (step lib) (start clipboard)) ↔
      Run.Along (step lib) (Alone lib) (start clipboard) events :=
  Run.foldl_iff_along AllAlone AllAlone (fun s => ¬ AllAlone s)
    (fun _ event halone h => (h.step_iff event).mpr halone)
    (fun _ event hnot h hall => hnot ((h.step_iff event).mp hall))
    (fun _ _ hnot hall => hnot hall.of_step) (fun _ h => h) (fun _ h => h)
    (by simp [AllAlone, start]) events

/-- **No relay.** In every run without early polls, every transfer that the run completes is
relayed, now or as the run goes on without early polls, exactly if each was completed while its
client was the only one registered: no other client is ever sent the content, and neither is its
own. -/
theorem relayed_iff_alone {clipboard : SystemClipboard} {events : List RelayEvent}
    (hrace : Run.Along (step lib) (RaceFree lib) (start clipboard) events) :
    (∀ t ∈ (events.foldl (step lib) (start clipboard)).transfers, ∃ more,
        Run.Along (step lib) (RaceFree lib) (start clipboard) (events ++ more) ∧
          Relayed lib ((events ++ more).foldl (step lib) (start clipboard)) t) ↔
      Run.Along (step lib) (Alone lib) (start clipboard) events := by
  rw [← allAlone_iff]
  constructor
  · intro h t ht
    obtain ⟨more, hmore, hrelayed⟩ := h t ht
    exact ((localOnly_run hmore).relayed_iff t).mp hrelayed
  · intro halone t ht
    refine ⟨[], by rwa [List.append_nil], ?_⟩
    rw [List.append_nil]
    exact ((localOnly_run hrace).relayed_iff t).mpr (halone t ht)

/-- Two clients, and a text of one of them: the server writes and suppresses it, and a poll finds
it two seconds later. -/
def textOfLaptop : List RelayEvent :=
  [.register "laptop", .register "phone",
    .receive "laptop" (.clipboardData .text (utf8 "hello")) true, .send, .suppress,
    .advance 2000, .startPoll, .getText, .finishPoll]

/-- No poll of the run is early. -/
theorem raceFree_textOfLaptop :
    Run.Along (step pixelLib) (RaceFree pixelLib) (start ⟨none, none⟩) textOfLaptop := by
  have hothers : ∀ (s : RelayState) event, event ≠ .finishPoll → RaceFree pixelLib s event :=
    fun s event hevent => raceFree_of_ne hevent
  refine ⟨hothers _ _ nofun, hothers _ _ nofun, hothers _ _ nofun, hothers _ _ nofun,
    hothers _ _ nofun, hothers _ _ nofun, hothers _ _ nofun, hothers _ _ nofun, ?_, trivial⟩
  rintro echoed - - content i hfound
  obtain ⟨-, hi⟩ := MonitorPhase.found.inj hfound
  obtain rfl : 0 = i := Option.some.inj hi
  exact .inl (by decide +kernel)

/-- A run with a text for two clients. -/
theorem relayed_iff_alone_textOfLaptop :
    (∀ t ∈ (textOfLaptop.foldl (step pixelLib) (start ⟨none, none⟩)).transfers, ∃ more,
        Run.Along (step pixelLib) (RaceFree pixelLib) (start ⟨none, none⟩)
            (textOfLaptop ++ more) ∧
          Relayed pixelLib ((textOfLaptop ++ more).foldl (step pixelLib) (start ⟨none, none⟩)) t) ↔
      Run.Along (step pixelLib) (Alone pixelLib) (start ⟨none, none⟩) textOfLaptop :=
  relayed_iff_alone raceFree_textOfLaptop

/-- The text is not queued for the other client, however the run goes on. -/
theorem textOfLaptop_not_relayed :
    Run.Along (step pixelLib) (RaceFree pixelLib) (start ⟨none, none⟩) textOfLaptop ∧
      (textOfLaptop.foldl (step pixelLib) (start ⟨none, none⟩)).transfers =
        [⟨"laptop", .text "hello", some 0, {"phone"}⟩] ∧
      (textOfLaptop.foldl (step pixelLib) (start ⟨none, none⟩)).queued "phone" = [] ∧
      ∀ more, Run.Along (step pixelLib) (RaceFree pixelLib) (start ⟨none, none⟩)
          (textOfLaptop ++ more) →
        ¬ Relayed pixelLib ((textOfLaptop ++ more).foldl (step pixelLib) (start ⟨none, none⟩))
          ⟨"laptop", .text "hello", some 0, {"phone"}⟩ := by
  refine ⟨raceFree_textOfLaptop, by decide +kernel, rfl, ?_⟩
  intro more hmore hrelayed
  exact absurd (((localOnly_run hmore).relayed_iff _).mp hrelayed) (by simp)

end RelayState

end SuperShare
