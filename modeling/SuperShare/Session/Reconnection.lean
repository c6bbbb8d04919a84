import SuperShare.Clipboard.Monitor
import SuperShare.Lib.Run
import SuperShare.Session.LostConnection

/-!
# The clipboard of a client that reconnects

Each connection of a client has a monitor of its own, which is told only of the contents that this
connection receives, and which goes on polling when the connection is lost. Receiving is one step
here: no poll gets between a write to the clipboard and its suppression, and nothing is received
once the server's writer has ended. The server keeps one entry for the client's name, that of the
connection made last, and a control handler that ends removes the entry of the name, whichever
connection's it is.
-/

namespace SuperShare

/-- A connection of the client: its monitor, and which of its tasks run. -/
structure ClientSession where
  monitor : ClipboardMonitor
  running : ConnectionPart → Bool

/-- The clipboard of the client, and the connections that it has made under its name, in this
order. -/
structure ClientClipboard where
  clipboard : SystemClipboard
  /-- What the clipboard offers was received from the server. No step reads it. -/
  received : Bool
  now : ℕ
  sessions : List ClientSession
  /-- The connection whose entry the server has under the name. -/
  registered : Option ℕ

/-- What happens to the clipboard and the connections. -/
inductive SessionEvent where
  | connect
  | localCopy (clipboard : SystemClipboard)
  | receive (n : ℕ) (content : ClipboardContent)
  | poll (n : ℕ)
  | part (n : ℕ) (event : PartEvent)
  | advance (milliseconds : ℕ)

/-- No further connection is made. -/
def SessionEvent.NoConnect : SessionEvent → Prop
  | .connect => False
  | .localCopy _ | .receive .. | .poll _ | .part .. | .advance _ => True

/-- No read or write fails. -/
def SessionEvent.Intact : SessionEvent → Prop
  | .part _ (.fail _) => False
  | .part _ (.turn _) | .connect | .localCopy _ | .receive .. | .poll _ | .advance _ => True

namespace ClientSession

/-- A new connection. -/
def connected : ClientSession := ⟨.new, ConnectionPart.start⟩

/-- What the server forwards on the data connection is received. -/
def CanReceive (session : ClientSession) : Prop :=
  session.running .serverDataWriter = true ∧ session.running .dataReader = true ∧
    session.running .receiveClipboard = true

instance canReceiveDecidable (session : ClientSession) : Decidable session.CanReceive :=
  inferInstanceAs (Decidable (_ ∧ _))

/-- Which tasks run after an event. The entry under the name has the only sender of the server's
data writer. -/
def step (session : ClientSession) (registered : Bool) (event : PartEvent) : ClientSession :=
  match event with
  | .turn .serverDataWriter =>
      if registered then session
      else { session with running := Function.update session.running .serverDataWriter false }
  | event => { session with running := ConnectionPart.step session.running event }

/-- The handler of the control connection has ended, and has removed the entry under the name. -/
def CleansUp (session : ClientSession) (registered : Bool) (event : PartEvent) : Prop :=
  session.running .controlHandler = true ∧
    (session.step registered event).running .controlHandler = false

instance cleansUpDecidable (session : ClientSession) (registered : Bool) (event : PartEvent) :
    Decidable (session.CleansUp registered event) := inferInstanceAs (Decidable (_ ∧ _))

/-- The data connection carries what the client forwards. -/
def Carries (session : ClientSession) : Prop := ConnectionPart.Carries session.running

/-- The monitor has received or emitted this content last. -/
def Knows (lib : ClipboardLib) (session : ClientSession) (content : ClipboardContent) : Prop :=
  session.monitor.remoteHash = some (content.hash lib) ∨
    session.monitor.lastHash = some (content.hash lib)

end ClientSession

namespace ClientClipboard

/-- The client starts. -/
def start (clipboard : SystemClipboard) : ClientClipboard := ⟨clipboard, false, 0, [], none⟩

/-- The state after an event. -/
def step (lib : ClipboardLib) (s : ClientClipboard) : SessionEvent → ClientClipboard
  | .connect =>
      { s with sessions := s.sessions ++ [.connected], registered := some s.sessions.length }
  | .localCopy clipboard => { s with clipboard := clipboard, received := false }
  | .receive n content =>
      match s.sessions[n]? with
      | some session =>
          if session.CanReceive then
            let monitor := session.monitor.suppress s.now (content.hash lib)
            { s with
              clipboard := .writeClipboard content
              received := true
              sessions := s.sessions.set n { session with monitor := monitor } }
          else s
      | none => s
  | .poll n =>
      match s.sessions[n]? with
      | some session =>
          let monitor := (session.monitor.poll lib s.now s.clipboard).1
          { s with sessions := s.sessions.set n { session with monitor := monitor } }
      | none => s
  | .part n event =>
      match s.sessions[n]? with
      | some session =>
          { s with
            sessions := s.sessions.set n (session.step (s.registered = some n) event)
            registered :=
              if session.CleansUp (s.registered = some n) event then none else s.registered }
      | none => s
  | .advance milliseconds => { s with now := s.now + milliseconds }

/-- The connection with a number has a property. -/
def Has (s : ClientClipboard) (n : ℕ) (p : ClientSession → Prop) : Prop :=
  ∃ session, s.sessions[n]? = some session ∧ p session

/-- A poll of connection `n` sends the server content that was received from it. -/
def Echoes (lib : ClipboardLib) (s : ClientClipboard) (n : ℕ) : Prop :=
  s.received = true ∧ s.Has n fun session =>
    session.Carries ∧ (session.monitor.poll lib s.now s.clipboard).2.isSome

/-- One connection receives while another carries what the client forwards. -/
def Divided (s : ClientClipboard) : Prop :=
  ∃ m n, m ≠ n ∧ s.Has m ClientSession.Carries ∧ s.Has n ClientSession.CanReceive

/-- The clipboard offers content that was received, which the monitor of a connection that carries
does not know. -/
def Unknown (lib : ClipboardLib) (s : ClientClipboard) : Prop :=
  s.received = true ∧ ∃ content, s.clipboard.readClipboard = some content ∧
    ∃ m, s.Has m fun session => session.Carries ∧ ¬ session.Knows lib content

variable {lib : ClipboardLib} {s : ClientClipboard}

/-! ## One poll -/

/-- The window of the monitor's last suppression closes. -/
theorem not_windowOpen_later (monitor : ClipboardMonitor) (now : ℕ) :
    ¬ monitor.WindowOpen (now + (monitor.lastRemoteWrite.getD 0 + clipboardSuppressionMs)) := by
  rintro ⟨t, ht, hopen⟩
  rw [Option.mem_def.mp ht, Option.getD_some] at hopen
  omega

/-- Once its window is closed, a monitor emits what it does not know. -/
theorem poll_isSome_later {session : ClientSession} {content : ClipboardContent}
    {clipboard : SystemClipboard} (hread : clipboard.readClipboard = some content)
    (hknows : ¬ session.Knows lib content) (now : ℕ) :
    (session.monitor.poll lib (now + (session.monitor.lastRemoteWrite.getD 0 +
      clipboardSuppressionMs)) clipboard).2.isSome := by
  have hclosed := not_windowOpen_later session.monitor now
  have hsilent : ¬ session.monitor.Silences lib (now + (session.monitor.lastRemoteWrite.getD 0 +
      clipboardSuppressionMs)) content := by
    rintro (hremote | hopen | hlast)
    · exact hknows (.inl hremote)
    · exact hclosed hopen
    · exact hknows (.inr hlast)
  simp only [ClipboardMonitor.poll, hread,
    ClipboardMonitor.pollContent_of_not_silences hsilent, Option.isSome_some]

/-- A monitor that knows the content changes nothing and emits nothing. -/
theorem poll_of_knows {session : ClientSession} {content : ClipboardContent}
    {clipboard : SystemClipboard} (hread : clipboard.readClipboard = some content)
    (hknows : session.Knows lib content) (now : ℕ) :
    session.monitor.poll lib now clipboard = (session.monitor, none) := by
  have hsilent : session.monitor.Silences lib now content :=
    hknows.elim .inl fun hlast => .inr (.inr hlast)
  simp only [ClipboardMonitor.poll, hread, ClipboardMonitor.pollContent_of_silences hsilent]

/-- A task that has ended does not run after an event. -/
theorem step_le {session : ClientSession} {registered : Bool} {event : PartEvent}
    {part : ConnectionPart} (h : (session.step registered event).running part = true) :
    session.running part = true := by
  unfold ClientSession.step at h
  split at h
  · split at h
    · exact h
    · simp only [Function.update_apply] at h
      split at h
      · exact absurd h Bool.false_ne_true
      · exact h
  · exact ConnectionPart.step_le h

/-- An event of a connection leaves its monitor alone. -/
@[simp] theorem monitor_step (session : ClientSession) (registered : Bool) (event : PartEvent) :
    (session.step registered event).monitor = session.monitor := by
  unfold ClientSession.step
  split
  · split <;> rfl
  · rfl

/-! ## What stays impossible -/

variable {s' : ClientClipboard}

/-- What a connection has after one was replaced, the new one has, or the same one had. -/
theorem Has.of_set {k n : ℕ} {session : ClientSession} {p : ClientSession → Prop}
    (h : s'.Has n p) (hs : s'.sessions = s.sessions.set k session) :
    n = k ∧ p session ∨ n ≠ k ∧ s.Has n p := by
  obtain ⟨found, hfound, hp⟩ := h
  rw [hs] at hfound
  by_cases hn : n = k
  · subst hn
    obtain ⟨hlength, hget⟩ := List.getElem?_eq_some_iff.mp hfound
    rw [List.getElem_set_self] at hget
    exact .inl ⟨rfl, hget ▸ hp⟩
  · rw [List.getElem?_set_ne (Ne.symm hn)] at hfound
    exact .inr ⟨hn, found, hfound, hp⟩

/-- What no event gives a connection, it had before. -/
theorem Has.before {k n : ℕ} {old new : ClientSession} {p : ClientSession → Prop}
    (h : s'.Has n p) (hs : s'.sessions = s.sessions.set k new) (hk : s.sessions[k]? = some old)
    (hp : p new → p old) : s.Has n p := by
  rcases h.of_set hs with ⟨rfl, hnew⟩ | ⟨-, hother⟩
  · exact ⟨old, hk, hp hnew⟩
  · exact hother

/-- No content received can be sent back: only one connection is in use, and its monitor knows
what the clipboard offers. -/
structure Sealed (lib : ClipboardLib) (s : ClientClipboard) : Prop where
  alone : ¬ s.Divided
  known : ¬ s.Unknown lib

/-- Received content is known to the monitor of the connection that has received it, and there is
no other that carries. -/
theorem Sealed.receive (h : s.Sealed lib) (n : ℕ) (content : ClipboardContent) :
    (s.step lib (.receive n content)).Sealed lib := by
  cases hn : s.sessions[n]? with
  | none => simpa only [step, hn] using h
  | some session =>
    by_cases hreceive : session.CanReceive
    · simp only [step, hn, if_pos hreceive]
      constructor
      · rintro ⟨k, m, hne, hcarries, hreceives⟩
        exact h.alone ⟨k, m, hne, hcarries.before rfl hn id, hreceives.before rfl hn id⟩
      · rintro ⟨-, found, hfound, m, hunknown⟩
        obtain rfl : found = content := SystemClipboard.eq_of_read_write hfound
        rcases hunknown.of_set rfl with ⟨-, -, hknows⟩ | ⟨hne, hother⟩
        · exact hknows (.inl rfl)
        · obtain ⟨other, hm, hcarries, -⟩ := hother
          exact h.alone ⟨m, n, hne, ⟨other, hm, hcarries⟩, session, hn, hreceive⟩
    · simpa only [step, hn, if_neg hreceive] using h

/-- A poll of a monitor that knows received content changes nothing. -/
theorem Sealed.poll (h : s.Sealed lib) (n : ℕ) : (s.step lib (.poll n)).Sealed lib := by
  cases hn : s.sessions[n]? with
  | none => simpa only [step, hn] using h
  | some session =>
    simp only [step, hn]
    constructor
    · rintro ⟨k, m, hne, hcarries, hreceives⟩
      exact h.alone ⟨k, m, hne, hcarries.before rfl hn id, hreceives.before rfl hn id⟩
    · rintro ⟨hreceived, content, hread, m, hunknown⟩
      rcases hunknown.of_set rfl with ⟨-, hcarries, hknows⟩ | ⟨-, hother⟩
      · -- The monitor knew the content, and has not changed.
        by_cases hbefore : session.Knows lib content
        · rw [poll_of_knows hread hbefore] at hknows
          exact hknows hbefore
        · exact h.known ⟨hreceived, content, hread, n, session, hn, hcarries, hbefore⟩
      · exact h.known ⟨hreceived, content, hread, m, hother⟩

/-- Tasks that end only take connections out of use. -/
theorem Sealed.part (h : s.Sealed lib) (n : ℕ) (event : PartEvent) :
    (s.step lib (.part n event)).Sealed lib := by
  cases hn : s.sessions[n]? with
  | none => simpa only [step, hn] using h
  | some session =>
    have hcarries : (session.step (s.registered = some n) event).Carries → session.Carries :=
      fun hnext => ⟨step_le hnext.1, step_le hnext.2⟩
    have hreceive : (session.step (s.registered = some n) event).CanReceive →
        session.CanReceive := fun hnext =>
      ⟨step_le hnext.1, step_le hnext.2.1, step_le hnext.2.2⟩
    simp only [step, hn]
    constructor
    · rintro ⟨k, m, hne, hk, hm⟩
      exact h.alone ⟨k, m, hne, hk.before rfl hn hcarries, hm.before rfl hn hreceive⟩
    · rintro ⟨hreceived, content, hread, m, hunknown⟩
      refine h.known ⟨hreceived, content, hread, m, hunknown.before rfl hn ?_⟩
      rintro ⟨hnext, hknows⟩
      refine ⟨hcarries hnext, ?_⟩
      rwa [ClientSession.Knows, monitor_step] at hknows

/-- Without a new connection, no event makes it possible to send back received content. -/
theorem Sealed.step (h : s.Sealed lib) {event : SessionEvent} (hevent : event.NoConnect) :
    (s.step lib event).Sealed lib := by
  cases event with
  | connect => exact hevent.elim
  | localCopy clipboard => exact ⟨h.alone, fun hunknown => Bool.false_ne_true hunknown.1⟩
  | receive n content => exact h.receive n content
  | poll n => exact h.poll n
  | part n event => exact h.part n event
  | advance milliseconds => exact ⟨h.alone, h.known⟩

/-- As long as it is not possible, no poll does it. -/
theorem Sealed.not_echoes (h : s.Sealed lib) (n : ℕ) : ¬ s.Echoes lib n := by
  rintro ⟨hreceived, session, hn, hcarries, hemits⟩
  cases hread : s.clipboard.readClipboard with
  | none => simp [ClipboardMonitor.poll, hread] at hemits
  | some content =>
    refine h.known ⟨hreceived, content, hread, n, session, hn, hcarries, fun hknows => ?_⟩
    rw [poll_of_knows hread hknows] at hemits
    exact Bool.false_ne_true hemits

/-! ## What is possible -/

/-- Three texts that the hash function tells apart. -/
def threeTexts : List ClipboardContent := [.text "a", .text "b", .text "c"]

omit s in
/-- Of three different hashes, one differs from two given ones. -/
theorem exists_hash_ne (hdistinct : DistinctHashes lib threeTexts)
    (h h' : Option (Vector UInt8 32)) :
    ∃ content ∈ threeTexts, some (content.hash lib) ≠ h ∧ some (content.hash lib) ≠ h' := by
  have hne (c c' : ClipboardContent) (hc : c ∈ threeTexts) (hc' : c' ∈ threeTexts)
      (hcontents : c ≠ c') : some (c.hash lib) ≠ some (c'.hash lib) :=
    fun hsame => hcontents (hdistinct c hc c' hc' (Option.some.inj hsame))
  have hab := hne (.text "a") (.text "b") (by decide) (by decide) (by decide)
  have hac := hne (.text "a") (.text "c") (by decide) (by decide) (by decide)
  have hbc := hne (.text "b") (.text "c") (by decide) (by decide) (by decide)
  by_contra hnone
  have htaken (c : ClipboardContent) (hc : c ∈ threeTexts) :
      some (c.hash lib) = h ∨ some (c.hash lib) = h' := by
    by_contra hfree
    exact hnone ⟨c, hc, not_or.mp hfree⟩
  -- Two of the three are the same given one.
  have ha := htaken (.text "a") (by decide)
  have hb := htaken (.text "b") (by decide)
  have hc := htaken (.text "c") (by decide)
  grind

/-- A monitor that does not know received content can send it back. -/
theorem canEcho_of_unknown (h : s.Unknown lib) :
    Run.CanReach (step lib) SessionEvent.NoConnect (fun s => ∃ n, s.Echoes lib n) s := by
  obtain ⟨hreceived, content, hread, m, session, hm, hcarries, hknows⟩ := h
  refine Run.canReach_of_run [.advance (session.monitor.lastRemoteWrite.getD 0 +
    clipboardSuppressionMs)] (by simp [SessionEvent.NoConnect]) ?_
  exact Run.canReach_of_goal
    ⟨m, hreceived, session, hm, hcarries, poll_isSome_later hread hknows s.now⟩

/-- A connection that carries sends back what another receives. -/
theorem canEcho_of_divided (hdistinct : DistinctHashes lib threeTexts) (h : s.Divided) :
    Run.CanReach (step lib) SessionEvent.NoConnect (fun s => ∃ n, s.Echoes lib n) s := by
  obtain ⟨m, n, hne, ⟨session, hm, hcarries⟩, other, hn, hreceive⟩ := h
  obtain ⟨content, hcontent, hremote, hlast⟩ := exists_hash_ne hdistinct
    session.monitor.remoteHash session.monitor.lastHash
  have hread : (SystemClipboard.writeClipboard content).readClipboard = some content := by
    simp only [threeTexts, List.mem_cons, List.not_mem_nil, or_false] at hcontent
    rcases hcontent with rfl | rfl | rfl <;> rfl
  refine Run.canReach_of_run [.receive n content] (by simp [SessionEvent.NoConnect]) ?_
  apply canEcho_of_unknown
  simp only [List.foldl_cons, List.foldl_nil, step, hn, if_pos hreceive]
  refine ⟨rfl, content, hread, m, session, ?_, hcarries, ?_⟩
  · rw [List.getElem?_set_ne hne.symm]
    exact hm
  · rintro (hknown | hknown)
    · exact hremote hknown.symm
    · exact hlast hknown.symm

/-- **Reconnection.** In every state, received content can be sent back to the server before
another connection is made exactly if one connection receives while another carries what the
client forwards, or the monitor of a connection that carries does not know the received content
that the clipboard offers. -/
theorem canEcho_iff (hdistinct : DistinctHashes lib threeTexts) (s : ClientClipboard) :
    Run.CanReach (step lib) SessionEvent.NoConnect (fun s => ∃ n, s.Echoes lib n) s ↔
      s.Divided ∨ s.Unknown lib := by
  constructor
  · intro hreach
    by_contra hnone
    have hsealed : s.Sealed lib := ⟨(not_or.mp hnone).1, (not_or.mp hnone).2⟩
    have hstep (s : ClientClipboard) (event : SessionEvent) (hevent : event.NoConnect)
        (hs : s.Sealed lib) : (s.step lib event).Sealed lib := hs.step hevent
    refine Run.not_canReach_of_trap (Sealed lib) hstep ?_ hsealed hreach
    rintro s hs ⟨n, hechoes⟩
    exact hs.not_echoes n hechoes
  · rintro (hdivided | hunknown)
    · exact canEcho_of_divided hdistinct hdivided
    · exact canEcho_of_unknown hunknown

/-- The hashes of the three texts. -/
def letterLib : ClipboardLib where
  zstdEncode := pixelLib.zstdEncode
  zstdDecode := pixelLib.zstdDecode
  blake3 data :=
    if data = utf8 "a" then
      #v[23, 118, 47, 221, 217, 105, 164, 83, 146, 93, 101, 113, 122, 195, 238, 162,
        19, 32, 182, 107, 84, 52, 47, 222, 21, 18, 141, 108, 175, 33, 33, 95]
    else if data = utf8 "b" then
      #v[16, 229, 207, 61, 60, 138, 79, 159, 52, 104, 200, 204, 88, 238, 168, 72,
        146, 162, 47, 218, 219, 193, 172, 178, 36, 16, 25, 0, 68, 193, 213, 83]
    else
      #v[234, 122, 161, 252, 158, 253, 190, 16, 109, 187, 112, 54, 154, 117, 233, 103,
        31, 162, 157, 82, 189, 85, 83, 103, 17, 191, 25, 116, 119, 184, 240, 33]

/-- BLAKE3 tells the texts apart. -/
theorem distinctHashes_letterLib : DistinctHashes letterLib threeTexts := by decide +kernel

/-- The server gives up the control connection, and the client notices it. -/
def controlLost : List SessionEvent :=
  [.connect, .part 0 (.fail .controlHandler), .part 0 (.turn .serverControlWriter),
    .part 0 (.turn .serverDataWriter), .part 0 (.turn .controlReader),
    .part 0 (.turn .controlLoop)]

/-- The client connects again. -/
def reconnected : ClientClipboard :=
  (controlLost ++ [SessionEvent.connect]).foldl (step letterLib) (start ⟨none, none⟩)

/-- The first data connection still carries what the client forwards. -/
theorem canEcho_iff_reconnected :
    reconnected.Divided ∧ (Run.CanReach (step letterLib) SessionEvent.NoConnect
      (fun s => ∃ n, s.Echoes letterLib n) reconnected ↔
        reconnected.Divided ∨ reconnected.Unknown letterLib) := by
  have hdivided : reconnected.Divided :=
    ⟨0, 1, by decide, ⟨_, rfl, rfl, rfl⟩, _, rfl, rfl, rfl, rfl⟩
  exact ⟨hdivided, canEcho_iff distinctHashes_letterLib reconnected⟩

/-! ## After a reconnection -/

/-- What a replaced connection keeps, every connection keeps. -/
theorem Has.after {k n : ℕ} {old new : ClientSession} {p : ClientSession → Prop} (h : s.Has n p)
    (hs : s'.sessions = s.sessions.set k new) (hk : s.sessions[k]? = some old)
    (hp : p old → p new) : s'.Has n p := by
  obtain ⟨session, hn, hsession⟩ := h
  by_cases hsame : k = n
  · subst hsame
    obtain rfl := Option.some.inj (hk.symm.trans hn)
    refine ⟨new, ?_, hp hsession⟩
    rw [hs]
    exact List.getElem?_set_self (List.getElem?_eq_some_iff.mp hk).1
  · refine ⟨session, ?_, hsession⟩
    rw [hs, List.getElem?_set_ne hsame]
    exact hn

/-- A new connection leaves the others where they are. -/
theorem Has.connect {n : ℕ} {p : ClientSession → Prop} (h : s.Has n p) (lib : ClipboardLib) :
    (s.step lib .connect).Has n p := by
  obtain ⟨session, hn, hsession⟩ := h
  refine ⟨session, ?_, hsession⟩
  rw [step, List.getElem?_append_left (List.getElem?_eq_some_iff.mp hn).1]
  exact hn

/-- The monitor and the task that forwards its changes run. -/
def Background (session : ClientSession) : Prop := ConnectionPart.Background session.running

/-- No event ends the monitor of a connection. -/
theorem Background.step {session : ClientSession} (h : Background session) (registered : Bool)
    (event : PartEvent) : Background (session.step registered event) := by
  unfold ClientSession.step
  split
  · split
    · exact h
    · rintro part (rfl | rfl)
      · exact h .monitor (.inl rfl)
      · exact h .forwardClipboard (.inr rfl)
  · exact ConnectionPart.Background.step h event

/-- A data connection that carries, without failures, carries on. -/
theorem carries_turn {session : ClientSession} (h : Background session ∧ session.Carries)
    (registered : Bool) (part : ConnectionPart) :
    (session.step registered (.turn part)).Carries := by
  unfold ClientSession.step
  split
  · split <;> exact h.2
  · exact ConnectionPart.Carries.turn h.2 h.1 part

/-- The handler of the control connection does not run on without the client's reader. -/
def Tidy (session : ClientSession) : Prop :=
  session.running .controlHandler = true → session.running .controlReader = true

/-- No turn ends the reader of the client while the handler runs, or the handler. -/
theorem controlled_turn {session : ClientSession} (h : Tidy session)
    (hhandler : session.running .controlHandler = true) (registered : Bool)
    (part : ConnectionPart) :
    ConnectionPart.Controlled (session.step registered (.turn part)).running := by
  have hcontrolled : ConnectionPart.Controlled session.running := ⟨h hhandler, hhandler⟩
  unfold ClientSession.step
  split
  · split <;> exact hcontrolled
  · have hkept : Holding.Supported ConnectionPart.heldBy
        {part | part = .controlReader ∨ part = .controlHandler} := by
      rintro part (rfl | rfl)
      · exact ⟨.controlHandler, by simp [ConnectionPart.heldBy], .inr rfl⟩
      · exact ⟨.controlReader, by simp [ConnectionPart.heldBy], .inl rfl⟩
    have hrunning : ∀ part ∈ {part | part = .controlReader ∨ part = .controlHandler},
        session.running part = true := by
      rintro part (rfl | rfl)
      · exact hcontrolled.1
      · exact hcontrolled.2
    exact ⟨hkept.turn hrunning part _ (.inl rfl), hkept.turn hrunning part _ (.inr rfl)⟩

/-- Turns keep a connection tidy, and its handler removes no entry. -/
theorem Tidy.turn {session : ClientSession} (h : Tidy session) (registered : Bool)
    (part : ConnectionPart) : Tidy (session.step registered (.turn part)) ∧
      ¬ session.CleansUp registered (.turn part) := by
  constructor
  · exact fun hhandler => (controlled_turn h (step_le hhandler) registered part).1
  · rintro ⟨hhandler, hended⟩
    rw [(controlled_turn h hhandler registered part).2] at hended
    exact Bool.false_ne_true hended.symm

/-- No turn ends a task of a whole connection whose entry is there. -/
theorem whole_turn {session : ClientSession} (h : ∀ part, session.running part = true)
    (other part : ConnectionPart) : (session.step true (.turn other)).running part = true := by
  unfold ClientSession.step
  split
  · exact h part
  · exact ConnectionPart.all_turn h other part

/-- What holds after a reconnection: an earlier connection carries what the client forwards, the one
that is registered is whole, and no handler is about to end. -/
structure Reconnected (m : ℕ) (s : ClientClipboard) : Prop where
  carries : s.Has m fun session => Background session ∧ session.Carries
  registered : ∃ n, n ≠ m ∧ s.registered = some n ∧
    s.Has n fun session => ∀ part, session.running part = true
  tidy : ∀ session ∈ s.sessions, Tidy session

/-- What all connections have, they have with a new one in the place of another. -/
theorem forall_sessions_set {sessions : List ClientSession} {p : ClientSession → Prop}
    (h : ∀ session ∈ sessions, p session) {new : ClientSession} (hnew : p new) (k : ℕ) :
    ∀ session ∈ sessions.set k new, p session := by
  intro session hsession
  rcases List.mem_or_eq_of_mem_set hsession with hmem | rfl
  · exact h session hmem
  · exact hnew

/-- What all connections have, they have with a new one after them. -/
theorem forall_sessions_connect {p : ClientSession → Prop} (h : ∀ session ∈ s.sessions, p session)
    (hnew : p .connected) (lib : ClipboardLib) :
    ∀ session ∈ (s.step lib .connect).sessions, p session :=
  List.forall_mem_append.mpr ⟨h, List.forall_mem_singleton.mpr hnew⟩

/-- A connection that is made beside one that carries, while no handler is about to end. -/
theorem reconnected_connect {m : ℕ}
    (hcarries : s.Has m fun session => Background session ∧ session.Carries)
    (htidy : ∀ session ∈ s.sessions, Tidy session) (lib : ClipboardLib) :
    (s.step lib .connect).Reconnected m := by
  obtain ⟨session, hm, -⟩ := id hcarries
  have hlength : m < s.sessions.length := (List.getElem?_eq_some_iff.mp hm).1
  refine ⟨hcarries.connect lib, ⟨s.sessions.length, hlength.ne', rfl, ?_⟩,
    forall_sessions_connect htidy (fun _ => rfl) lib⟩
  -- it is the last one, and whole
  exact ⟨.connected, List.getElem?_concat_length, fun _ => rfl⟩

/-- A connection whose monitor has changed changes nothing of that. -/
theorem Reconnected.monitor {m k : ℕ} (h : s.Reconnected m) {session : ClientSession}
    (monitor : ClipboardMonitor) (hk : s.sessions[k]? = some session)
    (hs : s'.sessions = s.sessions.set k { session with monitor := monitor })
    (hregistered : s'.registered = s.registered) : s'.Reconnected m := by
  obtain ⟨n, hne, hn, hwhole⟩ := h.registered
  refine ⟨h.carries.after hs hk id, ⟨n, hne, hregistered.trans hn, hwhole.after hs hk id⟩, ?_⟩
  have htidy : Tidy { session with monitor := monitor } :=
    h.tidy session (List.mem_of_getElem? hk)
  rw [hs]
  exact forall_sessions_set h.tidy htidy k

/-- As long as no read or write fails, it goes on holding. -/
theorem Reconnected.step {m : ℕ} (h : s.Reconnected m) (lib : ClipboardLib) {event : SessionEvent}
    (hintact : event.Intact) : (s.step lib event).Reconnected m := by
  cases event with
  | connect => exact reconnected_connect h.carries h.tidy lib
  | localCopy clipboard => exact ⟨h.carries, h.registered, h.tidy⟩
  | receive k content =>
    cases hk : s.sessions[k]? with
    | none => simpa only [ClientClipboard.step, hk] using h
    | some session =>
      simp only [ClientClipboard.step, hk]
      split
      · exact h.monitor _ hk rfl rfl
      · exact h
  | poll k =>
    cases hk : s.sessions[k]? with
    | none => simpa only [ClientClipboard.step, hk] using h
    | some session =>
      simp only [ClientClipboard.step, hk]
      exact h.monitor _ hk rfl rfl
  | part k event =>
    cases event with
    | fail part => exact hintact.elim
    | turn part =>
      cases hk : s.sessions[k]? with
      | none => simpa only [ClientClipboard.step, hk] using h
      | some session =>
        obtain ⟨n, hne, hn, hwhole⟩ := h.registered
        obtain ⟨htidy, hkeeps⟩ :=
          (h.tidy session (List.mem_of_getElem? hk)).turn (s.registered = some k) part
        simp only [ClientClipboard.step, hk, if_neg hkeeps]
        refine ⟨h.carries.after rfl hk fun hcarries => ?_, ⟨n, hne, hn, ?_⟩,
          forall_sessions_set h.tidy htidy k⟩
        · exact ⟨hcarries.1.step _ _, carries_turn hcarries _ part⟩
        · by_cases hsame : k = n
          · -- the entry of the registered connection is there
            subst hsame
            refine hwhole.after rfl hk fun hall => ?_
            simpa only [hn, decide_true] using whole_turn hall part
          · obtain ⟨other, hother, hall⟩ := hwhole
            exact ⟨other, by rw [List.getElem?_set_ne hsame]; exact hother, hall⟩
  | advance milliseconds => exact ⟨h.carries, h.registered, h.tidy⟩

/-- The monitors of all connections run. -/
def MonitorsRun (s : ClientClipboard) : Prop := ∀ session ∈ s.sessions, Background session

/-- Nothing ends the monitor of a connection. -/
theorem MonitorsRun.step (h : s.MonitorsRun) (lib : ClipboardLib) (event : SessionEvent) :
    (s.step lib event).MonitorsRun := by
  have hset {k : ℕ} {old new : ClientSession} (hk : s.sessions[k]? = some old)
      (hnew : Background old → Background new) :
      ∀ session ∈ s.sessions.set k new, Background session :=
    forall_sessions_set h (hnew (h old (List.mem_of_getElem? hk))) k
  cases event with
  | connect => exact forall_sessions_connect h (fun _ _ => rfl) lib
  | localCopy clipboard => exact h
  | receive k content =>
    cases hk : s.sessions[k]? with
    | none => simpa only [ClientClipboard.step, hk] using h
    | some session =>
      simp only [ClientClipboard.step, hk]
      split
      · exact hset hk id
      · exact h
  | poll k =>
    cases hk : s.sessions[k]? with
    | none => simpa only [ClientClipboard.step, hk] using h
    | some session =>
      simp only [ClientClipboard.step, hk]
      exact hset hk id
  | part k event =>
    cases hk : s.sessions[k]? with
    | none => simpa only [ClientClipboard.step, hk] using h
    | some session =>
      simp only [ClientClipboard.step, hk]
      exact hset hk fun hbackground => hbackground.step _ event
  | advance milliseconds => exact h

/-- **After a reconnection.** When the client connects while a data connection that it has made
before still carries what it forwards, and no control handler of an earlier connection runs on
without the client's reader, received content can be sent back to the server ever after, as long as
no read or write fails. -/
theorem canEcho_after_reconnection (hdistinct : DistinctHashes lib threeTexts)
    (clipboard : SystemClipboard) (first rest : List SessionEvent)
    (hrest : ∀ event ∈ rest, event.Intact)
    (htidy : ∀ session ∈ (first.foldl (step lib) (start clipboard)).sessions, Tidy session) {m : ℕ}
    (hm : (first.foldl (step lib) (start clipboard)).Has m ClientSession.Carries) :
    Run.CanReach (step lib) SessionEvent.NoConnect (fun s => ∃ n, s.Echoes lib n)
      ((first ++ .connect :: rest).foldl (step lib) (start clipboard)) := by
  rw [List.foldl_append, List.foldl_cons]
  let before := first.foldl (step lib) (start clipboard)
  have hmonitors : before.MonitorsRun :=
    List.foldlRecOn (motive := MonitorsRun) first (step lib)
      (fun _ hsession => absurd hsession (by simp [start])) fun _ h event _ => h.step lib event
  obtain ⟨session, hget, hcarries⟩ := hm
  have hbefore : before.Has m fun session => Background session ∧ session.Carries :=
    ⟨session, hget, hmonitors session (List.mem_of_getElem? hget), hcarries⟩
  have hconnected : (before.step lib .connect).Reconnected m :=
    reconnected_connect hbefore htidy lib
  have hafter : (rest.foldl (step lib) (before.step lib .connect)).Reconnected m :=
    List.foldlRecOn rest (step lib) hconnected fun s h event hmem => h.step lib (hrest event hmem)
  obtain ⟨⟨old, hold, -, hcarries⟩, ⟨n, hne, -, new, hnew, hall⟩, -⟩ := hafter
  exact canEcho_of_divided hdistinct
    ⟨m, n, hne.symm, ⟨old, hold, hcarries⟩, new, hnew, hall _, hall _, hall _⟩

/-- The monitor of the lost connection polls. -/
theorem canEcho_after_controlLost :
    Run.CanReach (step letterLib) SessionEvent.NoConnect (fun s => ∃ n, s.Echoes letterLib n)
      ((controlLost ++ SessionEvent.connect :: [SessionEvent.poll 0]).foldl (step letterLib)
        (start ⟨none, none⟩)) :=
  canEcho_after_reconnection distinctHashes_letterLib ⟨none, none⟩ controlLost [.poll 0]
    (by simp [SessionEvent.Intact])
    (fun session hsession => by
      obtain rfl := List.mem_singleton.mp hsession
      exact fun hhandler => absurd hhandler (by decide))
    (m := 0) ⟨_, rfl, rfl, rfl⟩

/-- A control handler that ends after the client has connected again takes the new entry out, and
nothing is received any more. -/
example :
    let lost : List SessionEvent :=
      [.connect, .part 0 (.fail .controlReader), .part 0 (.turn .controlLoop), .connect,
        .part 0 (.turn .controlWriter), .part 0 (.turn .controlHandler)]
    let s := lost.foldl (step letterLib) (start ⟨none, none⟩)
    s.registered = none ∧
      ((s.step letterLib (.part 1 (.turn .serverDataWriter))).sessions.map
        fun session => session.running .serverDataWriter) = [true, false] := by
  decide

end ClientClipboard

end SuperShare
