import SuperShare.Clipboard.Limits
import SuperShare.Clipboard.Receiver
import SuperShare.Clipboard.TwoMachines

/-!
# One clipboard on two machines

Seen from outside, the clipboards of the server and its only client are to be one: when no task
has anything to do, both offer what was copied last, on whichever machine. This holds exactly as
long as no copy brings back, over another content, one that the monitor of its machine knows.
-/

namespace SuperShare

/-- The messages of a transfer, one after the other, return its content at the last of them and
nothing before. -/
theorem transfer_next {lib : ClipboardLib} (hzstd : lib.Inverse) {content : ClipboardContent}
    {sent rest : List Message} {msg : Message}
    (h : prepareTransfer lib content = .ok (sent ++ msg :: rest))
    (initial : Option ClipboardReassembler) :
    (handleClipboardMessage lib (reassemblerAfter lib initial sent) msg).2 =
      if rest = [] then some content else none := by
  have hreceived : receiveClipboard lib initial (sent ++ msg :: rest) =
      List.replicate (sent.length + rest.length) none ++ [some content] := by
    cases content with
    | text text =>
      have hmessages : [Message.clipboardData .text (utf8 text)] = sent ++ msg :: rest :=
        Except.ok.inj h
      obtain ⟨rfl, rfl⟩ : sent = [] ∧ rest = [] := by
        have hlength : 1 = sent.length + (rest.length + 1) := by
          simpa using congrArg List.length hmessages
        exact ⟨List.length_eq_zero_iff.mp (by omega), List.length_eq_zero_iff.mp (by omega)⟩
      rw [← hmessages, (receive_text initial text).1]
      rfl
    | image width height rgba =>
      obtain ⟨compressed, hcompress, hsize, hmessages⟩ := prepareTransfer_image h
      have hreceive := (@receive_image lib hzstd width height rgba compressed hcompress hsize
        (numberedChunks compressed) (List.Perm.refl _) initial (UInt32.ofNat compressed.length)).1
      rw [← chunkMessages_eq, ← imageMessages, ← hmessages] at hreceive
      rw [hreceive, List.length_append, List.length_cons]
      rfl
  have hnext := congrArg (fun outputs => outputs[sent.length]?) hreceived
  simp only [receiveClipboard, Run.outputs_append, Run.outputs] at hnext
  rw [List.getElem?_append_right (by simp), Run.length_outputs, Nat.sub_self,
    List.getElem?_cons_zero] at hnext
  refine Option.some.inj (hnext.trans ?_)
  split
  · rename_i hrest
    rw [hrest, List.getElem?_append_right (by simp)]
    simp
  · rename_i hrest
    have hlt : sent.length < sent.length + rest.length := by
      have := List.length_pos_iff.mpr hrest
      omega
    rw [List.getElem?_append_left (by simpa using hlt), List.getElem?_replicate, if_pos hlt]

namespace SyncState

/-- No change of a machine is on its way to the other. -/
structure Calm (s : SyncState) (m : Machine) : Prop where
  emitting : s.emitting m = none
  changes : s.changes m = []
  wire : s.wire m = []

/-- No task of a machine has anything to do, and its monitor knows what the clipboard offers. -/
structure AtRest (lib : ClipboardLib) (s : SyncState) (m : Machine) : Prop where
  calm : s.Calm m
  pending : (s.echo m).pending = none
  queue : (s.echo m).queue = []
  waiting : ∃ due, (s.echo m).phase = .waiting due
  known : ∀ c ∈ (s.echo m).clipboard.readClipboard, (s.echo m).Knows lib c

/-- Both machines are at rest. -/
def Settled (lib : ClipboardLib) (s : SyncState) : Prop := ∀ m, s.AtRest lib m

/-- Both clipboards offer what was copied last. -/
def Agrees (s : SyncState) : Prop :=
  ∀ m, (s.echo m).clipboard.readClipboard = s.copied.getLast?

/-- A content that is refused neither by the transfer nor by the peer's reader. -/
def Transferable (lib : ClipboardLib) (c : ClipboardContent) : Prop :=
  ∃ messages, prepareTransfer lib c = .ok messages ∧ ∀ m ∈ messages, m.Accepted

/-- A copy is made when both machines are at rest, of a content that can be transferred. What is
received can be written, and no poll gets between a write and its suppression. -/
structure Orderly (lib : ClipboardLib) (s : SyncState) (event : Machine × SyncEvent) : Prop where
  copy : ∀ clipboard, event.2 = .localCopy clipboard → s.Settled lib ∧
    ∃ c, clipboard.readClipboard = some c ∧ Transferable lib c
  written : event.2 ≠ .receive false
  inTime : ∀ echoed, s.echoEvent lib event.1 event.2 = some echoed →
    (s.echo event.1).SuppressedInTime lib echoed

/-- A copy of what the monitor of the machine knows is a copy of what the clipboard offers
already. -/
def Spreads (lib : ClipboardLib) (s : SyncState) (event : Machine × SyncEvent) : Prop :=
  ∀ clipboard, event.2 = .localCopy clipboard → ∀ c, clipboard.readClipboard = some c →
    (s.echo event.1).Knows lib c → (s.echo event.1).clipboard.readClipboard = some c

/-- Where the content that was copied last stands on its way from one machine to the other. -/
inductive Stage (lib : ClipboardLib) (s : SyncState) : Prop where
  /-- Both clipboards offer it. -/
  | shared : (∀ m, s.Calm m) → (∀ m, (s.echo m).Holds lib s.copied.getLast?) →
      s.transferred.Sublist s.copied → Stage lib s
  /-- No poll has returned it. -/
  | copied (p : Machine) (c : ClipboardContent) (old : Option ClipboardContent) :
      (∀ m, s.Calm m) → (s.echo p).Fresh lib c → (s.echo p.other).Holds lib old →
      s.copied.getLast? = some c → Transferable lib c →
      (s.transferred ++ [c]).Sublist s.copied → Stage lib s
  /-- A poll has returned it. -/
  | changed (p : Machine) (c : ClipboardContent) (old : Option ClipboardContent) :
      s.Calm p.other → s.wire p = [] →
      s.changes p ++ (s.emitting p).toList = [⟨c, c.hash lib⟩] →
      (s.echo p).Holds lib (some c) → (s.echo p.other).Holds lib old →
      s.copied.getLast? = some c → Transferable lib c →
      (s.transferred ++ [c]).Sublist s.copied → Stage lib s
  /-- A part of its messages has been received. -/
  | sent (p : Machine) (c : ClipboardContent) (old : Option ClipboardContent)
      (initial : Option ClipboardReassembler) (received : List Message) :
      s.Calm p.other → s.emitting p = none → s.changes p = [] → s.wire p ≠ [] →
      prepareTransfer lib c = .ok (received ++ s.wire p) →
      s.reassembler p.other = reassemblerAfter lib initial received →
      (s.echo p).Holds lib (some c) → (s.echo p.other).Holds lib old →
      s.copied.getLast? = some c → s.transferred.Sublist s.copied → Stage lib s
  /-- It has been written, and its suppression is on its way. -/
  | received (p : Machine) (c : ClipboardContent) :
      (∀ m, s.Calm m) → (s.echo p).Holds lib (some c) → (s.echo p.other).Received lib c →
      s.copied.getLast? = some c → s.transferred.Sublist s.copied → Stage lib s

variable {lib : ClipboardLib} {s : SyncState}

/-- The state after a step of the tasks around the clipboard of a machine. -/
def afterTask (lib : ClipboardLib) (s : SyncState) (m : Machine) (event : EchoEvent) :
    SyncState :=
  { s with
    echo := Function.update s.echo m ((s.echo m).step lib event)
    emitting := Function.update s.emitting m
      ((((s.echo m).react lib event).2.map Emission.change) <|> s.emitting m) }

/-- A step that returns nothing changes the clipboard and the monitor only. -/
theorem afterTask_of_quiet {m : Machine} {event : EchoEvent}
    (h : ((s.echo m).react lib event).2 = none) :
    s.afterTask lib m event =
      { s with echo := Function.update s.echo m ((s.echo m).step lib event) } := by
  have hemitting : Function.update s.emitting m
      ((((s.echo m).react lib event).2.map Emission.change) <|> s.emitting m) = s.emitting := by
    rw [h]
    exact Function.update_eq_self m s.emitting
  rw [afterTask, hemitting]

/-- Every other event is a step of the tasks around the clipboard, or waits. -/
theorem step_eq_afterTask (s : SyncState) (m : Machine) {event : SyncEvent}
    (hcopy : ∀ clipboard, event ≠ .localCopy clipboard)
    (hreceive : ∀ written, event ≠ .receive written) (hemit : event ≠ .emit)
    (hforward : event ≠ .forward) :
    s.step lib (m, event) = s ∨ ∃ echoed, echoed.keepsClipboard = true ∧
      s.echoEvent lib m event = some echoed ∧
      s.step lib (m, event) = s.afterTask lib m echoed := by
  have hquiet : ∀ echoed : EchoEvent, echoed ≠ .finishPoll →
      { s with echo := Function.update s.echo m ((s.echo m).step lib echoed) } =
        s.afterTask lib m echoed :=
    fun echoed hne => (afterTask_of_quiet (EchoState.react_quiet hne)).symm
  cases event with
  | localCopy clipboard => exact absurd rfl (hcopy clipboard)
  | receive written => exact absurd rfl (hreceive written)
  | emit => exact absurd rfl hemit
  | forward => exact absurd rfl hforward
  | finishPoll => exact .inr ⟨.finishPoll, rfl, rfl, rfl⟩
  | resume =>
    by_cases hemitting : (s.emitting m).isSome
    · left
      simp [step, tasks, echoEvent, hemitting]
    · right
      refine ⟨.resume, rfl, by simp [echoEvent, hemitting], ?_⟩
      rw [← hquiet .resume (by simp)]
      simp [step, tasks, echoEvent, hemitting]
  | send => exact .inr ⟨.send, rfl, rfl, hquiet _ nofun⟩
  | suppress => exact .inr ⟨.suppress, rfl, rfl, hquiet _ nofun⟩
  | startPoll => exact .inr ⟨.startPoll, rfl, rfl, hquiet _ nofun⟩
  | getText => exact .inr ⟨.getText, rfl, rfl, hquiet _ nofun⟩
  | getImage => exact .inr ⟨.getImage, rfl, rfl, hquiet _ nofun⟩
  | advance milliseconds => exact .inr ⟨.advance milliseconds, rfl, rfl, hquiet _ nofun⟩

/-- While both monitors know what their clipboards offer, a step of either returns nothing and keeps
it so. -/
theorem holds_afterTask {p : Machine} {own old : Option ClipboardContent}
    (hown : (s.echo p).Holds lib own) (hother : (s.echo p.other).Holds lib old) (m : Machine)
    {event : EchoEvent} (hevent : event.keepsClipboard = true) :
    s.afterTask lib m event =
        { s with echo := Function.update s.echo m ((s.echo m).step lib event) } ∧
      ((s.afterTask lib m event).echo p).Holds lib own ∧
      ((s.afterTask lib m event).echo p.other).Holds lib old := by
  rcases m.eq_or_other p with rfl | rfl
  · obtain ⟨hnext, hnone⟩ := hown.react hevent
    refine ⟨afterTask_of_quiet hnone, ?_, ?_⟩
    · simpa [afterTask] using hnext
    · simpa [afterTask] using hother
  · obtain ⟨hnext, hnone⟩ := hother.react hevent
    refine ⟨afterTask_of_quiet hnone, ?_, ?_⟩
    · simpa [afterTask] using hown
    · simpa [afterTask] using hnext

/-- What is on its way does not depend on the clipboards. -/
theorem Calm.setEcho {m : Machine} (h : s.Calm m) (echo : Machine → EchoState) :
    ({ s with echo := echo } : SyncState).Calm m :=
  ⟨h.emitting, h.changes, h.wire⟩

/-- A step of the tasks around a clipboard leaves the content on its way where it stands, or takes
it one place further. -/
theorem Stage.afterTask (h : Stage lib s) (hordered : ∀ m, (s.echo m).Ordered lib) {m : Machine}
    {event : EchoEvent} (hevent : event.keepsClipboard = true)
    (hintime : (s.echo m).SuppressedInTime lib event) : Stage lib (s.afterTask lib m event) := by
  cases h with
  | shared hcalm hholds hsub =>
    obtain ⟨hquiet, hown, hother⟩ := holds_afterTask (hholds m) (hholds m.other) m hevent
    rw [hquiet] at hown hother ⊢
    exact .shared (fun m => (hcalm m).setEcho _) (m.forall_iff.mpr ⟨hown, hother⟩) hsub
  | copied p c old hcalm hfresh hother hlast htransfer hsub =>
    rcases m.eq_or_other p with rfl | rfl
    · rcases hfresh.react hevent with ⟨hnext, hnone⟩ | ⟨hnext, origin, hsome⟩
      · rw [afterTask_of_quiet hnone]
        refine .copied m c old (fun m => (hcalm m).setEcho _) ?_ ?_ hlast htransfer hsub
        · simpa using hnext
        · simpa using hother
      · refine .changed m c old ?_ (hcalm m).wire ?_ ?_ ?_ hlast htransfer hsub
        · refine ⟨?_, (hcalm m.other).changes, (hcalm m.other).wire⟩
          simpa [SyncState.afterTask] using (hcalm m.other).emitting
        · simp [SyncState.afterTask, hsome, (hcalm m).changes]
        · simpa [SyncState.afterTask] using hnext
        · simpa [SyncState.afterTask] using hother
    · obtain ⟨hnext, hnone⟩ := hother.react hevent
      rw [afterTask_of_quiet hnone]
      refine .copied p c old (fun m => (hcalm m).setEcho _) ?_ ?_ hlast htransfer hsub
      · simpa using hfresh
      · simpa using hnext
  | changed p c old hcalm hwire hchange hholds hother hlast htransfer hsub =>
    obtain ⟨hquiet, hown, hrest⟩ := holds_afterTask hholds hother m hevent
    rw [hquiet] at hown hrest ⊢
    exact .changed p c old (hcalm.setEcho _) hwire hchange hown hrest hlast htransfer hsub
  | sent p c old initial received hcalm hemitting hchanges hwire hmessages hreassembler hholds
      hother hlast hsub =>
    obtain ⟨hquiet, hown, hrest⟩ := holds_afterTask hholds hother m hevent
    rw [hquiet] at hown hrest ⊢
    exact .sent p c old initial received (hcalm.setEcho _) hemitting hchanges hwire hmessages
      hreassembler hown hrest hlast hsub
  | received p c hcalm hholds hreceived hlast hsub =>
    rcases m.eq_or_other p with rfl | rfl
    · obtain ⟨hnext, hnone⟩ := hholds.react hevent
      rw [afterTask_of_quiet hnone]
      refine .received m c (fun m => (hcalm m).setEcho _) ?_ ?_ hlast hsub
      · simpa using hnext
      · simpa using hreceived
    · obtain ⟨hnext, hnone⟩ := hreceived.react (hordered _) hevent hintime
      rw [afterTask_of_quiet hnone]
      rcases hnext with hnext | hnext
      · refine .received p c (fun m => (hcalm m).setEcho _) ?_ ?_ hlast hsub
        · simpa using hholds
        · simpa using hnext
      · refine .shared (fun m => (hcalm m).setEcho _) ?_ hsub
        rw [hlast]
        refine p.forall_iff.mpr ⟨?_, ?_⟩
        · simpa using hholds
        · simpa using hnext

/-- At rest, nothing is on its way. -/
theorem Stage.shared_of_settled (h : Stage lib s) (hsettled : s.Settled lib) :
    (∀ m, (s.echo m).Holds lib s.copied.getLast?) ∧ s.transferred.Sublist s.copied := by
  cases h with
  | shared hcalm hholds hsub => exact ⟨hholds, hsub⟩
  | copied p c old hcalm hfresh hother hlast htransfer hsub =>
    exact absurd ((hsettled p).known c hfresh.read) hfresh.unknown
  | changed p c old hcalm hwire hchange hholds hother hlast htransfer hsub =>
    rw [(hsettled p).calm.changes, (hsettled p).calm.emitting] at hchange
    exact absurd hchange (by simp)
  | sent p c old initial received hcalm hemitting hchanges hwire hmessages hreassembler hholds
      hother hlast hsub =>
    exact absurd (hsettled p).calm.wire hwire
  | received p c hcalm hholds hreceived hlast hsub =>
    have hwaiting := hreceived.waiting
    rw [(hsettled _).queue, (hsettled _).pending] at hwaiting
    exact absurd hwaiting (by simp)

/-- The monitor task hands its change over. -/
theorem Stage.emit (h : Stage lib s) (m : Machine) : Stage lib (s.step lib (m, .emit)) := by
  have hidle : s.emitting m = none → s.step lib (m, .emit) = s := by
    intro hnone
    simp [step, tasks, echoEvent, hnone]
  cases h with
  | shared hcalm hholds hsub =>
    rw [hidle (hcalm m).emitting]
    exact .shared hcalm hholds hsub
  | copied p c old hcalm hfresh hother hlast htransfer hsub =>
    rw [hidle (hcalm m).emitting]
    exact .copied p c old hcalm hfresh hother hlast htransfer hsub
  | sent p c old initial received hcalm hemitting hchanges hwire hmessages hreassembler hholds
      hother hlast hsub =>
    have hnone : s.emitting m = none := by
      rcases m.eq_or_other p with rfl | rfl
      · exact hemitting
      · exact hcalm.emitting
    rw [hidle hnone]
    exact .sent p c old initial received hcalm hemitting hchanges hwire hmessages hreassembler
      hholds hother hlast hsub
  | received p c hcalm hholds hreceived hlast hsub =>
    rw [hidle (hcalm m).emitting]
    exact .received p c hcalm hholds hreceived hlast hsub
  | changed p c old hcalm hwire hchange hholds hother hlast htransfer hsub =>
    rcases m.eq_or_other p with rfl | rfl
    · cases hemitting : s.emitting m with
      | none =>
        rw [hidle hemitting]
        exact .changed m c old hcalm hwire hchange hholds hother hlast htransfer hsub
      | some change =>
        rw [hemitting, Option.toList_some] at hchange
        obtain ⟨hnil, hsingle⟩ : s.changes m = [] ∧ change = ⟨c, c.hash lib⟩ := by
          simpa using List.append_eq_singleton_iff.mp hchange
        have hroom : (s.changes m).length < clipChangeCapacity := by
          rw [hnil]
          decide
        simp only [step, tasks, echoEvent, hemitting, if_pos hroom]
        refine .changed m c old ?_ hwire ?_ hholds hother hlast htransfer hsub
        · refine ⟨?_, ?_, hcalm.wire⟩
          · simpa using hcalm.emitting
          · simpa using hcalm.changes
        · simp [hnil, hsingle]
    · rw [hidle hcalm.emitting]
      exact .changed p c old hcalm hwire hchange hholds hother hlast htransfer hsub

/-- The forwarding task sends the messages of the change. -/
theorem Stage.forward (h : Stage lib s) (m : Machine) :
    Stage lib (s.step lib (m, .forward)) := by
  have hidle : s.changes m = [] → s.step lib (m, .forward) = s := by
    intro hnil
    simp [step, tasks, echoEvent, hnil]
  cases h with
  | shared hcalm hholds hsub =>
    rw [hidle (hcalm m).changes]
    exact .shared hcalm hholds hsub
  | copied p c old hcalm hfresh hother hlast htransfer hsub =>
    rw [hidle (hcalm m).changes]
    exact .copied p c old hcalm hfresh hother hlast htransfer hsub
  | sent p c old initial received hcalm hemitting hchanges hwire hmessages hreassembler hholds
      hother hlast hsub =>
    have hnil : s.changes m = [] := by
      rcases m.eq_or_other p with rfl | rfl
      · exact hchanges
      · exact hcalm.changes
    rw [hidle hnil]
    exact .sent p c old initial received hcalm hemitting hchanges hwire hmessages hreassembler
      hholds hother hlast hsub
  | received p c hcalm hholds hreceived hlast hsub =>
    rw [hidle (hcalm m).changes]
    exact .received p c hcalm hholds hreceived hlast hsub
  | changed p c old hcalm hwire hchange hholds hother hlast htransfer hsub =>
    rcases m.eq_or_other p with rfl | rfl
    · cases hchanges : s.changes m with
      | nil =>
        rw [hidle hchanges]
        exact .changed m c old hcalm hwire hchange hholds hother hlast htransfer hsub
      | cons change rest =>
        rw [hchanges, List.cons_append, List.cons_eq_cons] at hchange
        obtain ⟨rfl, hrest⟩ := hchange
        obtain ⟨rfl, hemitting⟩ := List.append_eq_nil_iff.mp hrest
        obtain ⟨messages, hmessages, -⟩ := htransfer
        simp only [step, tasks, echoEvent, hchanges, hmessages]
        refine .sent m c old (s.reassembler m.other) [] ?_ ?_ ?_ ?_ ?_ rfl hholds hother hlast
          hsub
        · refine ⟨hcalm.emitting, ?_, ?_⟩
          · simpa using hcalm.changes
          · simpa using hcalm.wire
        · exact Option.toList_eq_nil_iff.mp hemitting
        · simp
        · simpa [hwire] using RelayState.prepareTransfer_ne_nil hmessages
        · simpa [hwire] using hmessages
    · rw [hidle hcalm.changes]
      exact .changed p c old hcalm hwire hchange hholds hother hlast htransfer hsub

/-- The receiving task handles the next message, and writes the content if it is the last. -/
theorem Stage.receive (hzstd : lib.Inverse) (h : Stage lib s) (m : Machine) :
    Stage lib (s.step lib (m, .receive true)) := by
  have hidle : s.wire m.other = [] → s.step lib (m, .receive true) = s := by
    intro hnil
    simp [step, tasks, echoEvent, hnil]
  cases h with
  | shared hcalm hholds hsub =>
    rw [hidle (hcalm _).wire]
    exact .shared hcalm hholds hsub
  | copied p c old hcalm hfresh hother hlast htransfer hsub =>
    rw [hidle (hcalm _).wire]
    exact .copied p c old hcalm hfresh hother hlast htransfer hsub
  | changed p c old hcalm hwire hchange hholds hother hlast htransfer hsub =>
    have hnil : s.wire m.other = [] := by
      rcases m.eq_or_other p with rfl | rfl
      · exact hcalm.wire
      · simpa using hwire
    rw [hidle hnil]
    exact .changed p c old hcalm hwire hchange hholds hother hlast htransfer hsub
  | received p c hcalm hholds hreceived hlast hsub =>
    rw [hidle (hcalm _).wire]
    exact .received p c hcalm hholds hreceived hlast hsub
  | sent p c old initial received hcalm hemitting hchanges hwire hmessages hreassembler hholds
      hother hlast hsub =>
    rcases m.eq_or_other p with rfl | rfl
    · rw [hidle hcalm.wire]
      exact .sent m c old initial received hcalm hemitting hchanges hwire hmessages hreassembler
        hholds hother hlast hsub
    · cases hnext : s.wire p with
      | nil => exact absurd hnext hwire
      | cons msg rest =>
        rw [hnext] at hmessages
        have hcontent := transfer_next hzstd hmessages initial
        rw [← hreassembler] at hcontent
        have hafter : (handleClipboardMessage lib (s.reassembler p.other) msg).1 =
            reassemblerAfter lib initial (received ++ [msg]) := by
          rw [reassemblerAfter_concat, hreassembler]
        by_cases hrest : rest = []
        · rw [if_pos hrest] at hcontent
          simp only [step, tasks, echoEvent, hother.pending, Machine.other_other, hnext, hcontent,
            Option.isSome_none, Bool.false_eq_true, false_or, if_false, Option.map_some]
          refine .received p c (p.forall_iff.mpr ⟨?_, ?_⟩) ?_ ?_ hlast hsub
          · exact ⟨hemitting, hchanges, by simpa using hrest⟩
          · refine ⟨hcalm.emitting, hcalm.changes, ?_⟩
            simpa using hcalm.wire
          · simpa using hholds
          · simpa using hother.write (SystemClipboard.read_write hholds.read)
        · rw [if_neg hrest] at hcontent
          simp only [step, tasks, echoEvent, hother.pending, Machine.other_other, hnext, hcontent,
            Option.isSome_none, Bool.false_eq_true, false_or, if_false, Option.map_none]
          refine .sent p c old initial (received ++ [msg]) ?_ hemitting hchanges ?_ ?_ ?_ hholds
            hother hlast hsub
          · refine ⟨hcalm.emitting, hcalm.changes, ?_⟩
            simpa using hcalm.wire
          · simpa using hrest
          · simpa using hmessages
          · simpa using hafter

/-- A copy on machines at rest spreads, or repeats what both offer. -/
theorem Stage.localCopy (h : Stage lib s) {m : Machine} {clipboard : SystemClipboard}
    (hsettled : s.Settled lib) {c : ClipboardContent} (hread : clipboard.readClipboard = some c)
    (htransfer : Transferable lib c) (hspreads : s.Spreads lib (m, .localCopy clipboard)) :
    Stage lib (s.step lib (m, .localCopy clipboard)) := by
  have hlast : (s.copied ++ clipboard.readClipboard.toList).getLast? = some c := by
    rw [hread]
    simp
  obtain ⟨due, hphase⟩ := (hsettled m).waiting
  obtain ⟨hholds, hsub⟩ := h.shared_of_settled hsettled
  obtain ⟨hfresh, hknown⟩ := (hholds m).localCopy hphase hread
  by_cases hknows : (s.echo m).Knows lib c
  · have hsame := hspreads clipboard rfl c hread hknows
    refine .shared (fun m => ⟨(hsettled m).calm.emitting, (hsettled m).calm.changes,
      (hsettled m).calm.wire⟩) ?_ (hsub.trans (List.sublist_append_left _ _))
    refine m.forall_iff.mpr ⟨?_, ?_⟩
    · simpa [step, tasks, echoEvent, hlast] using hknown hknows
    · have hcopied : s.copied.getLast? = some c := (hholds m).read.symm.trans hsame
      simpa [step, tasks, echoEvent, hlast, hcopied] using hholds m.other
  · refine .copied m c s.copied.getLast? (fun m => ⟨(hsettled m).calm.emitting,
      (hsettled m).calm.changes, (hsettled m).calm.wire⟩) ?_ ?_ hlast htransfer ?_
    · simpa [step, tasks, echoEvent] using hfresh hknows
    · simpa [step, tasks, echoEvent] using hholds m.other
    · change (s.transferred ++ [c]).Sublist (s.copied ++ clipboard.readClipboard.toList)
      rw [hread]
      exact hsub.append (List.Sublist.refl _)

/-- Every event keeps the clipboards and the monitors in order. -/
theorem ordered_step (h : ∀ m, (s.echo m).Ordered lib) (event : Machine × SyncEvent) (m : Machine) :
    ((s.step lib event).echo m).Ordered lib := by
  obtain ⟨p, event⟩ := event
  simp only [step]
  cases s.echoEvent lib p event with
  | none => exact h m
  | some echoed =>
    rcases eq_or_ne m p with rfl | hne
    · simpa using (h m).step echoed
    · simpa [Function.update_of_ne hne] using h m

/-- Every event of an orderly run that spreads what is copied takes it on its way. -/
theorem Stage.step (hzstd : lib.Inverse) (h : Stage lib s) (hordered : ∀ m, (s.echo m).Ordered lib)
    {event : Machine × SyncEvent} (horderly : s.Orderly lib event)
    (hspreads : s.Spreads lib event) : Stage lib (s.step lib event) := by
  obtain ⟨m, event⟩ := event
  by_cases hcopy : ∃ clipboard, event = .localCopy clipboard
  · obtain ⟨clipboard, rfl⟩ := hcopy
    obtain ⟨hsettled, c, hread, htransfer⟩ := horderly.copy clipboard rfl
    exact h.localCopy hsettled hread htransfer hspreads
  by_cases hreceive : ∃ written, event = .receive written
  · obtain ⟨written, rfl⟩ := hreceive
    cases written with
    | true => exact h.receive hzstd m
    | false => exact absurd rfl horderly.written
  by_cases hemit : event = .emit
  · exact hemit ▸ h.emit m
  by_cases hforward : event = .forward
  · exact hforward ▸ h.forward m
  rcases step_eq_afterTask s m (not_exists.mp hcopy) (not_exists.mp hreceive) hemit hforward with
    hsame | ⟨echoed, hkeeps, hechoed, hstep⟩
  · rwa [hsame]
  · rw [hstep]
    exact h.afterTask hordered hkeeps (horderly.inTime echoed hechoed)

/-- Machines without content share it. -/
theorem stage_start {clipboard : Machine → SystemClipboard}
    (hempty : ∀ m, (clipboard m).readClipboard = none) : Stage lib (start clipboard) := by
  refine .shared (fun m => ⟨rfl, rfl, rfl⟩) (fun m => ?_) (List.Sublist.refl _)
  exact ⟨hempty m, rfl, rfl, nofun, nofun, nofun⟩

/-- A copy at rest that does not spread leaves the machines at rest with different contents. -/
theorem agrees_iff_spreads (h : Stage lib s) {event : Machine × SyncEvent}
    (hzstd : lib.Inverse) (hordered : ∀ m, (s.echo m).Ordered lib)
    (horderly : s.Orderly lib event) :
    ((s.step lib event).Settled lib → (s.step lib event).Agrees) ↔ s.Spreads lib event := by
  constructor
  · rintro hagrees clipboard hcopy c hread hknows
    obtain ⟨m, event⟩ := event
    obtain rfl : event = .localCopy clipboard := hcopy
    obtain ⟨hsettled, -⟩ := horderly.copy clipboard rfl
    obtain ⟨hholds, -⟩ := h.shared_of_settled hsettled
    obtain ⟨due, hphase⟩ := (hsettled m).waiting
    have hknown := ((hholds m).localCopy hphase hread).2 hknows
    have hnext : (s.step lib (m, .localCopy clipboard)).Settled lib := by
      refine m.forall_iff.mpr ⟨?_, ?_⟩
      · refine ⟨⟨(hsettled m).calm.emitting, (hsettled m).calm.changes, (hsettled m).calm.wire⟩,
          ?_, ?_, ⟨due, ?_⟩, ?_⟩
        · simpa [step, tasks, echoEvent] using hknown.pending
        · simpa [step, tasks, echoEvent] using hknown.queue
        · simpa [step, tasks, echoEvent, EchoState.step, EchoState.react] using hphase
        · intro c' hc'
          simp only [step, tasks, echoEvent, Function.update_self] at hc' ⊢
          exact hknown.known c' (hknown.read.symm.trans hc')
      · refine ⟨⟨(hsettled _).calm.emitting, (hsettled _).calm.changes,
          (hsettled _).calm.wire⟩, ?_, ?_, ?_, ?_⟩
        · simpa [step, tasks, echoEvent] using (hsettled m.other).pending
        · simpa [step, tasks, echoEvent] using (hsettled m.other).queue
        · simpa [step, tasks, echoEvent] using (hsettled m.other).waiting
        · simpa [step, tasks, echoEvent] using (hsettled m.other).known
    have hother := hagrees hnext m.other
    have hlast : (s.copied ++ clipboard.readClipboard.toList).getLast? = some c := by
      rw [hread]
      simp
    simp only [step, tasks, echoEvent, ne_eq, Machine.other_ne, not_false_eq_true,
      Function.update_of_ne] at hother
    rw [hlast, (hholds m.other).read] at hother
    exact (hholds m).read.trans hother
  · intro hspreads hsettled m
    exact (((h.step hzstd hordered horderly hspreads).shared_of_settled hsettled).1 m).read

/-- What an orderly run keeps as long as what is copied spreads. -/
def Invariant (lib : ClipboardLib) (s : SyncState) : Prop :=
  Stage lib s ∧ ∀ m, (s.echo m).Ordered lib

/-- Every event of an orderly run that spreads what is copied keeps the invariant. -/
theorem Invariant.step (hzstd : lib.Inverse) (h : Invariant lib s) {event : Machine × SyncEvent}
    (horderly : s.Orderly lib event) (hspreads : s.Spreads lib event) :
    Invariant lib (s.step lib event) :=
  ⟨h.1.step hzstd h.2 horderly hspreads, ordered_step h.2 event⟩

/-- Machines without content have the invariant. -/
theorem invariant_start {clipboard : Machine → SystemClipboard}
    (hempty : ∀ m, (clipboard m).readClipboard = none) : Invariant lib (start clipboard) :=
  ⟨stage_start hempty, fun m => EchoState.ordered_start (clipboard m)⟩

/-- **One clipboard.** In an orderly run from empty clipboards, both clipboards offer what was
copied last in every state at rest, exactly when every copy of what the monitor of its machine
knows is a copy of what the clipboards offer already. -/
theorem clipboards_agree_iff (hzstd : lib.Inverse) {clipboard : Machine → SystemClipboard}
    (hempty : ∀ m, (clipboard m).readClipboard = none) {events : List (Machine × SyncEvent)}
    (horderly : Run.Along (step lib) (Orderly lib) (start clipboard) events) :
    (∀ first, first <+: events → (first.foldl (step lib) (start clipboard)).Settled lib →
        (first.foldl (step lib) (start clipboard)).Agrees) ↔
      Run.Along (step lib) (Spreads lib) (start clipboard) events := by
  have hstart : Invariant lib (start clipboard) := invariant_start hempty
  have hagrees : (start clipboard).Settled lib → (start clipboard).Agrees :=
    fun hsettled m => ((hstart.1.shared_of_settled hsettled).1 m).read
  refine (@Run.forall_reached_iff _ _ (step lib) (fun s => s.Settled lib → s.Agrees) _ hagrees
    events).trans ?_
  exact Run.Along.iff_along (Invariant lib)
    (fun s event horderly hspreads hinv => hinv.step hzstd horderly hspreads)
    (fun s event horderly hinv => agrees_iff_spreads hinv.1 hzstd hinv.2 horderly) horderly hstart

/-- **No bouncing.** In an orderly run in which every copy spreads, the contents that the two
machines forward to each other are among the contents copied, in their order: nothing is forwarded
twice or returned. -/
theorem transferred_sublist (hzstd : lib.Inverse) {clipboard : Machine → SystemClipboard}
    (hempty : ∀ m, (clipboard m).readClipboard = none) {events : List (Machine × SyncEvent)}
    (horderly : Run.Along (step lib) (Orderly lib) (start clipboard) events)
    (hspreads : Run.Along (step lib) (Spreads lib) (start clipboard) events) :
    (events.foldl (step lib) (start clipboard)).transferred.Sublist
      (events.foldl (step lib) (start clipboard)).copied := by
  have hstage := ((horderly.and hspreads).invariant (Invariant lib)
    (fun s event hok hinv => hinv.step hzstd hok.1 hok.2) (invariant_start hempty)).1
  cases hstage with
  | shared _ _ hsub => exact hsub
  | copied p c old _ _ _ _ _ hsub => exact (List.sublist_append_left _ _).trans hsub
  | changed p c old _ _ _ _ _ _ _ hsub => exact (List.sublist_append_left _ _).trans hsub
  | sent p c old initial received _ _ _ _ _ _ _ _ _ hsub => exact hsub
  | received p c _ _ _ _ hsub => exact hsub

/-- A pixel is copied on the server, sent to the client and written there. -/
def onePixelShared : List (Machine × SyncEvent) :=
  [(.server, .localCopy (MonitorRun.pixel [9, 9, 9, 255])), (.server, .advance 200),
    (.server, .startPoll), (.server, .getText), (.server, .getImage), (.server, .finishPoll),
    (.server, .emit), (.server, .resume), (.server, .forward), (.client, .receive true),
    (.client, .receive true), (.client, .receive true), (.client, .send), (.client, .suppress)]

/-- Only copies, failing writes and polls can break the order of a run. -/
theorem orderly_of_ne {event : Machine × SyncEvent}
    (hcopy : ∀ clipboard, event.2 ≠ .localCopy clipboard) (hreceive : event.2 ≠ .receive false)
    (hpoll : event.2 ≠ .finishPoll) : s.Orderly lib event := by
  refine ⟨fun clipboard h => absurd h (hcopy clipboard), hreceive, ?_⟩
  obtain ⟨m, event⟩ := event
  rintro echoed hechoed rfl
  cases event with
  | finishPoll => exact absurd rfl hpoll
  | receive written =>
    simp only [echoEvent] at hechoed
    split at hechoed
    · exact absurd hechoed (by simp)
    · split at hechoed
      · obtain ⟨content, -, hwrite⟩ := Option.map_eq_some_iff.mp hechoed
        exact absurd hwrite (by simp)
      · exact absurd hechoed (by simp)
  | resume =>
    simp only [echoEvent] at hechoed
    split at hechoed <;> exact absurd hechoed (by simp)
  | _ => exact absurd hechoed (by simp [echoEvent])

/-- The run is orderly. -/
theorem orderly_onePixelShared :
    Run.Along (step pixelLib) (Orderly pixelLib) (start fun _ => ⟨none, none⟩) onePixelShared := by
  have hne : ∀ (s : SyncState) (event : Machine × SyncEvent),
      (∀ clipboard, event.2 ≠ .localCopy clipboard) → event.2 ≠ .receive false →
        event.2 ≠ .finishPoll → s.Orderly pixelLib event :=
    fun s event hcopy hreceive hpoll => orderly_of_ne hcopy hreceive hpoll
  refine ⟨⟨?_, nofun, ?_⟩, hne _ _ nofun nofun nofun, hne _ _ nofun nofun nofun,
    hne _ _ nofun nofun nofun, hne _ _ nofun nofun nofun, ⟨nofun, nofun, ?_⟩,
    hne _ _ nofun nofun nofun, hne _ _ nofun nofun nofun, hne _ _ nofun nofun nofun,
    hne _ _ nofun nofun nofun, hne _ _ nofun nofun nofun, hne _ _ nofun nofun nofun,
    hne _ _ nofun nofun nofun, hne _ _ nofun nofun nofun, trivial⟩
  · rintro clipboard hcopy
    obtain rfl := SyncEvent.localCopy.inj hcopy
    refine ⟨fun m => ⟨⟨rfl, rfl, rfl⟩, rfl, rfl, ⟨clipboardPollIntervalMs, rfl⟩, nofun⟩, ?_⟩
    exact ⟨.image 1 1 [9, 9, 9, 255], rfl, _, rfl,
      fun m hm => Message.accepted_iff.mpr (fits_of_mem_image hm)⟩
  · rintro echoed hechoed rfl
    exact absurd hechoed (by simp [echoEvent])
  · rintro echoed - - content i hfound
    obtain ⟨-, horigin⟩ := MonitorPhase.found.inj hfound
    have hlocal : none = some i := horigin
    exact absurd hlocal (by simp)

/-- The copy of the pixel spreads. -/
theorem spreads_onePixelShared :
    Run.Along (step pixelLib) (Spreads pixelLib) (start fun _ => ⟨none, none⟩) onePixelShared := by
  refine ⟨?_, nofun, nofun, nofun, nofun, nofun, nofun, nofun, nofun, nofun, nofun, nofun, nofun,
    nofun, trivial⟩
  rintro clipboard - c - hknows
  exact absurd hknows (by simp [EchoState.Knows, start, EchoState.start, ClipboardMonitor.new])

/-- A run with a pixel for both machines. -/
theorem clipboards_agree_iff_onePixelShared :
    (∀ first, first <+: onePixelShared →
        (first.foldl (step pixelLib) (start fun _ => ⟨none, none⟩)).Settled pixelLib →
        (first.foldl (step pixelLib) (start fun _ => ⟨none, none⟩)).Agrees) ↔
      Run.Along (step pixelLib) (Spreads pixelLib) (start fun _ => ⟨none, none⟩)
        onePixelShared :=
  clipboards_agree_iff pixelLib_inverse (fun _ => rfl) orderly_onePixelShared

/-- The pixel is forwarded once. -/
theorem transferred_sublist_onePixelShared :
    (onePixelShared.foldl (step pixelLib) (start fun _ => ⟨none, none⟩)).transferred.Sublist
      (onePixelShared.foldl (step pixelLib) (start fun _ => ⟨none, none⟩)).copied :=
  transferred_sublist pixelLib_inverse (fun _ => rfl) orderly_onePixelShared spreads_onePixelShared

example : (onePixelShared.foldl (step pixelLib) (start fun _ => ⟨none, none⟩)).Agrees := by
  intro m
  cases m <;> decide +kernel

end SyncState

end SuperShare
