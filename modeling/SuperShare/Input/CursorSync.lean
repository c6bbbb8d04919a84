import SuperShare.Input.Motion

/-!
# The logical position and the real cursor

In local mode the callback keeps a logical position of its own, by adding up the differences of
reported positions. The real cursor moves by the physical motion of an event, and only when the
event passes. This file compares the two over runs with any number of remote sessions. They
part when an event crosses into remote mode and moves the logical position, since the event is
suppressed, and when the accumulator, which goes on in remote mode, is cut off at an edge that
the cursor has not reached.
-/

namespace SuperShare

variable {κ : Type}

/-- The callback with rdev's accumulator and the real cursor, which is known from the first
reported position on. -/
structure CursorState where
  grab : GrabState
  cursor : Option (ℤ × ℤ)

/-- What is seen after an event: whether it was handled in local mode, the logical position and
the real cursor. -/
structure CursorOutcome where
  handledLocally : Bool
  pos : ℤ × ℤ
  cursor : Option (ℤ × ℤ)

/-- The real cursor starts at the first reported position, and moves by a physical motion
exactly when the event passes. -/
def moveCursor (width height : ℤ) (reported : ℤ × ℤ) (passed : Bool) (cursor : Option (ℤ × ℤ)) :
    PhysicalEvent κ → Option (ℤ × ℤ)
  | .motion dx dy =>
      match cursor with
      | none => some reported
      | some (x, y) =>
          if passed then
            some (CursorNumber.clamp (x + dx) 0 width, CursorNumber.clamp (y + dy) 0 height)
          else some (x, y)
  | _ => cursor

namespace CursorState

/-- The state when the capture starts, with the accumulator at a position. -/
def start (screenWidth screenHeight : UInt32) (accumulator : ℤ × ℤ) : CursorState :=
  ⟨.start screenWidth screenHeight accumulator, none⟩

/-- One physical event. -/
def react (lib : KeyLib κ) (s : CursorState) (input : PhysicalInput κ) :
    CursorState × CursorOutcome :=
  let (grab, outcome) := s.grab.react lib input
  let cursor := moveCursor s.grab.callback.screenWidth s.grab.callback.screenHeight
    grab.accumulator outcome.capture.passed.isSome s.cursor input.event
  (⟨grab, cursor⟩,
    ⟨!outcome.capture.remote, (grab.callback.posX, grab.callback.posY), cursor⟩)

/-- The state after an event. -/
def step (lib : KeyLib κ) (s : CursorState) (input : PhysicalInput κ) : CursorState :=
  (s.react lib input).1

end CursorState

/-- After an event handled in local mode, the logical position is the real cursor. -/
def CursorOutcome.InSync (o : CursorOutcome) : Prop :=
  o.handledLocally = true → ∀ c ∈ o.cursor, o.pos = c

/-- The difference that is reported for a motion of a coordinate. -/
def reportedDelta (bound accumulator d : ℤ) : ℤ :=
  CursorNumber.clamp (accumulator + d) 0 bound - accumulator

/-- A coordinate that a difference does not move: there is none, or it leads beyond the edge at
which the coordinate is. -/
def StandsStill (bound pos delta : ℤ) : Prop :=
  delta = 0 ∨ (pos = bound ∧ 0 < delta) ∨ (pos = 0 ∧ delta < 0)

instance (bound pos delta : ℤ) : Decidable (StandsStill bound pos delta) :=
  inferInstanceAs (Decidable (_ ∨ _ ∨ _))

/-- Where the accumulator is cut off at an edge, the coordinate is no farther from it. -/
def EdgeAgrees (bound accumulator pos d : ℤ) : Prop :=
  (bound < accumulator + d → accumulator ≤ pos) ∧ (accumulator + d < 0 → pos ≤ accumulator)

instance (bound accumulator pos d : ℤ) : Decidable (EdgeAgrees bound accumulator pos d) :=
  inferInstanceAs (Decidable (_ ∧ _))

/-- What an event has to meet for the positions to stay together. In local mode after the first
report, a motion that crosses into remote mode leaves the logical position where it is, and any
other motion is cut off in the accumulator only at an edge that the logical position is no
farther from. -/
def CursorState.KeepsSync (s : CursorState) (input : PhysicalInput κ) : Prop :=
  let checked := s.grab.callback.checkExit input.exitRequested input.hasClient
  match input.event with
  | .motion dx dy =>
      checked.isRemote = false → checked.prevInitialized = true →
        let deltaX := reportedDelta checked.screenWidth s.grab.accumulator.1 dx
        let deltaY := reportedDelta checked.screenHeight s.grab.accumulator.2 dy
        if checked.screenWidth - 1 ≤
            CursorNumber.clamp (checked.posX + deltaX) 0 checked.screenWidth ∧
            input.hasClient = true then
          StandsStill checked.screenWidth checked.posX deltaX ∧
            StandsStill checked.screenHeight checked.posY deltaY
        else
          EdgeAgrees checked.screenWidth s.grab.accumulator.1 checked.posX dx ∧
            EdgeAgrees checked.screenHeight s.grab.accumulator.2 checked.posY dy
  | _ => True

/-- A coordinate on the screen. -/
def OnScreen (bound x : ℤ) : Prop := 0 ≤ x ∧ x ≤ bound

/-- A clamped coordinate is on the screen. -/
theorem onScreen_clamp {bound : ℤ} (hbound : 0 ≤ bound) (x : ℤ) :
    OnScreen bound (CursorNumber.clamp x 0 bound) := by
  simp only [OnScreen, CursorNumber.clamp]
  omega

/-- A coordinate on the screen is not changed by clamping. -/
theorem clamp_eq_self {bound x : ℤ} (h : OnScreen bound x) :
    CursorNumber.clamp x 0 bound = x := by
  simp only [OnScreen, CursorNumber.clamp] at h ⊢
  omega

/-- A clamped coordinate stays where it is exactly when it stands still. -/
theorem clamp_add_eq_self_iff {bound pos delta : ℤ} (hpos : OnScreen bound pos) :
    CursorNumber.clamp (pos + delta) 0 bound = pos ↔ StandsStill bound pos delta := by
  simp only [OnScreen, CursorNumber.clamp, StandsStill] at hpos ⊢
  omega

/-- The reported difference and the physical motion lead to one coordinate exactly when the
edges agree. -/
theorem clamp_add_delta_iff {bound accumulator pos d : ℤ} (hacc : OnScreen bound accumulator)
    (hpos : OnScreen bound pos) :
    CursorNumber.clamp (pos + reportedDelta bound accumulator d) 0 bound =
      CursorNumber.clamp (pos + d) 0 bound ↔ EdgeAgrees bound accumulator pos d := by
  simp only [OnScreen, CursorNumber.clamp, EdgeAgrees, reportedDelta] at hacc hpos ⊢
  constructor
  · intro h
    omega
  · intro h
    omega

/-- What a motion does in remote mode: the mode, the frozen position and the screen stay. -/
theorem handle_motion_remote (lib : KeyLib κ) (hasClient : Bool) {s : CallbackState ℤ}
    (hremote : s.isRemote = true) (x y : ℤ) :
    let r := s.handle lib hasClient (.mouseMove x y)
    r.1.isRemote = true ∧ (r.1.frozenX, r.1.frozenY) = (s.frozenX, s.frozenY) ∧
      (r.1.screenWidth, r.1.screenHeight) = (s.screenWidth, s.screenHeight) ∧ r.2.1 = false := by
  intro r
  simp only [r, CallbackState.handle, hremote, if_true]
  split <;> exact ⟨hremote, rfl, rfl, rfl⟩

/-- The position to which a reported one leads, the first time or by its difference. -/
def CallbackState.trackedPos (s : CallbackState ℤ) (x y : ℤ) : ℤ × ℤ :=
  if s.prevInitialized then
    (CursorNumber.clamp (s.posX + (x - s.prevX)) 0 s.screenWidth,
      CursorNumber.clamp (s.posY + (y - s.prevY)) 0 s.screenHeight)
  else (CursorNumber.clamp x 0 s.screenWidth, CursorNumber.clamp y 0 s.screenHeight)

/-- What a motion does in local mode: it crosses and freezes the position to which it leads, or
it passes. -/
theorem handle_motion_local (lib : KeyLib κ) (hasClient : Bool) {s : CallbackState ℤ}
    (hlocal : s.isRemote = false) (x y : ℤ) :
    let r := s.handle lib hasClient (.mouseMove x y)
    (r.1.posX, r.1.posY) = s.trackedPos x y ∧
      (r.1.screenWidth, r.1.screenHeight) = (s.screenWidth, s.screenHeight) ∧
      (s.screenWidth - 1 ≤ (s.trackedPos x y).1 ∧ hasClient = true ∧ r.1.isRemote = true ∧
          (r.1.frozenX, r.1.frozenY) = s.trackedPos x y ∧ r.2.1 = false ∨
        ¬ (s.screenWidth - 1 ≤ (s.trackedPos x y).1 ∧ hasClient = true) ∧
          r.1.isRemote = false ∧ r.2.1 = true) := by
  intro r
  have htracked : ((s.track x y).2.2.posX, (s.track x y).2.2.posY) = s.trackedPos x y := by
    cases hinit : s.prevInitialized <;>
      simp [CallbackState.track, CallbackState.trackedPos, hinit, CursorNumber.add,
        CursorNumber.sub, CursorNumber.ofNat]
  have hscreen : (s.track x y).2.2.screenWidth = s.screenWidth := rfl
  have hx : (s.track x y).2.2.posX = (s.trackedPos x y).1 := congrArg Prod.fst htracked
  simp only [r, CallbackState.handle, hlocal, Bool.false_eq_true, if_false]
  split
  · rename_i hcross
    obtain ⟨hedge, hclient⟩ := Bool.and_eq_true_iff.mp hcross
    rw [hx] at hedge
    refine ⟨htracked, rfl, Or.inl ⟨?_, hclient, rfl, htracked, rfl⟩⟩
    exact of_decide_eq_true hedge
  · rename_i hcross
    refine ⟨htracked, rfl, Or.inr ⟨?_, hlocal, rfl⟩⟩
    rintro ⟨hedge, hclient⟩
    rw [Bool.and_eq_true_iff, hx] at hcross
    exact hcross ⟨decide_eq_true hedge, hclient⟩

namespace CursorState

/-- The positions are together: in local mode the logical position is the real cursor, and in
remote mode the frozen one is. -/
structure Together (s : CursorState) : Prop where
  synced : s.grab.Synced
  screen : 0 ≤ s.grab.callback.screenWidth ∧ 0 ≤ s.grab.callback.screenHeight
  started : s.cursor.isSome = s.grab.callback.prevInitialized
  accumulator : s.cursor.isSome = true →
    OnScreen s.grab.callback.screenWidth s.grab.accumulator.1 ∧
      OnScreen s.grab.callback.screenHeight s.grab.accumulator.2
  onScreen : ∀ c ∈ s.cursor, OnScreen s.grab.callback.screenWidth c.1 ∧
    OnScreen s.grab.callback.screenHeight c.2
  inLocal : s.grab.callback.isRemote = false → ∀ c ∈ s.cursor,
    (s.grab.callback.posX, s.grab.callback.posY) = c
  inRemote : s.grab.callback.isRemote = true → ∀ c ∈ s.cursor,
    (s.grab.callback.frozenX, s.grab.callback.frozenY) = c

/-- The state after the exit check of an input. -/
def checked (s : CursorState) (input : PhysicalInput κ) : CursorState :=
  { s with grab := { s.grab with
      callback := s.grab.callback.checkExit input.exitRequested input.hasClient } }

/-- The exit check brings the logical position back to the cursor. -/
theorem Together.checked {s : CursorState} (h : s.Together) (input : PhysicalInput κ) :
    (s.checked input).Together := by
  rcases checkExit_cases s.grab.callback input.exitRequested input.hasClient with
    hsame | ⟨hremote, hexit⟩
  · have heq : s.checked input = s := by rw [CursorState.checked, hsame]
    rwa [heq]
  · have hinit := h.synced.remote hremote
    rw [CursorState.checked, hexit]
    constructor
    · exact ⟨h.synced.prev, fun habsurd => absurd habsurd (by simp)⟩
    · exact h.screen
    · exact h.started
    · exact h.accumulator
    · exact h.onScreen
    · intro _
      exact h.inRemote hremote
    · intro habsurd
      exact absurd habsurd (by simp)

/-- A motion is handled in the state after the exit check. -/
theorem react_motion (lib : KeyLib κ) (s : CursorState) {input : PhysicalInput κ} {dx dy : ℤ}
    (hevent : input.event = .motion dx dy) :
    let t := (s.checked input).grab
    let x := CursorNumber.clamp (t.accumulator.1 + dx) 0 t.callback.screenWidth
    let y := CursorNumber.clamp (t.accumulator.2 + dy) 0 t.callback.screenHeight
    let r := t.callback.handle lib input.hasClient (.mouseMove x y)
    let cursor := moveCursor t.callback.screenWidth t.callback.screenHeight (x, y) r.2.1 s.cursor
      (.motion dx dy : PhysicalEvent κ)
    s.react lib input =
      (⟨⟨r.1, (x, y)⟩, cursor⟩, ⟨!t.callback.isRemote, (r.1.posX, r.1.posY), cursor⟩) := by
  have hscreen : (s.grab.callback.checkExit input.exitRequested input.hasClient).screenWidth =
        s.grab.callback.screenWidth ∧
      (s.grab.callback.checkExit input.exitRequested input.hasClient).screenHeight =
        s.grab.callback.screenHeight := by
    rcases checkExit_cases s.grab.callback input.exitRequested input.hasClient with
      hsame | ⟨-, hexit⟩
    · rw [hsame]
      exact ⟨rfl, rfl⟩
    · rw [hexit]
      exact ⟨rfl, rfl⟩
  intro t x y r cursor
  have hx : CursorNumber.clamp (s.grab.accumulator.1 + dx) 0 s.grab.callback.screenWidth = x := by
    rw [← hscreen.1]
    rfl
  have hy : CursorNumber.clamp (s.grab.accumulator.2 + dy) 0 s.grab.callback.screenHeight = y := by
    rw [← hscreen.2]
    rfl
  have hpassed : ∀ (pass : Bool) (event : EventType ℤ κ),
      (if pass = true then some event else none).isSome = pass := by
    intro pass event
    cases pass <;> rfl
  simp only [react, GrabState.react, GrabState.report, hevent, hx, hy, SuperShare.callback,
    hpassed]
  rw [← hscreen.1, ← hscreen.2]
  rfl

/-- Events other than motions keep the positions together. -/
theorem Together.react_other {s : CursorState} (h : s.Together) (lib : KeyLib κ)
    {input : PhysicalInput κ} (hevent : ∀ dx dy, input.event ≠ .motion dx dy) :
    (s.react lib input).2.InSync ∧ (s.react lib input).1.Together := by
  have hchecked := h.checked input
  obtain ⟨other, hreport, hother⟩ : ∃ other, s.grab.report input.event =
      (s.grab.accumulator, 0, other) ∧ ∀ x y, other ≠ .mouseMove x y := by
    rcases s.grab.report_cases input.event with ⟨dx, dy, hmotion⟩ | ⟨-, hother⟩
    · exact absurd hmotion (hevent dx dy)
    · exact hother
  obtain ⟨hstate, -⟩ := handle_of_not_motion lib input.hasClient
    (s.checked input).grab.callback hother
  have hcursor : ∀ width height reported pass,
      moveCursor width height reported pass s.cursor input.event = s.cursor := by
    intro width height reported pass
    cases hkind : input.event with
    | motion dx dy => exact absurd hkind (hevent dx dy)
    | _ => rfl
  have hreact : s.react lib input = (s.checked input,
      ⟨!(s.checked input).grab.callback.isRemote,
        ((s.checked input).grab.callback.posX, (s.checked input).grab.callback.posY),
        s.cursor⟩) := by
    simp only [react, GrabState.react, hreport, SuperShare.callback, hcursor]
    rw [show s.grab.callback.checkExit input.exitRequested input.hasClient =
      (s.checked input).grab.callback from rfl, hstate]
    rfl
  rw [hreact]
  constructor
  · intro hlocal
    exact hchecked.inLocal (by simpa using hlocal)
  · exact hchecked

/-- After a motion the positions are together around a cursor on the screen when the logical
position, or the frozen one, is that cursor. -/
theorem Together.of_motion {s : CursorState} (h : s.Together) {r : CallbackState ℤ} {x y : ℤ}
    {c : ℤ × ℤ} (hprev : r.prevX = x ∧ r.prevY = y ∧ r.prevInitialized = true)
    (hscreen : (r.screenWidth, r.screenHeight) =
      (s.grab.callback.screenWidth, s.grab.callback.screenHeight))
    (hreported : OnScreen s.grab.callback.screenWidth x ∧ OnScreen s.grab.callback.screenHeight y)
    (hcursor : OnScreen s.grab.callback.screenWidth c.1 ∧
      OnScreen s.grab.callback.screenHeight c.2)
    (hlocal : r.isRemote = false → (r.posX, r.posY) = c)
    (hremote : r.isRemote = true → (r.frozenX, r.frozenY) = c) :
    (⟨⟨r, (x, y)⟩, some c⟩ : CursorState).Together := by
  obtain ⟨hwidth, hheight⟩ := Prod.mk.inj hscreen
  obtain ⟨hprevX, hprevY, hinit⟩ := hprev
  have hsome : ∀ {p : ℤ × ℤ}, p = c → ∀ c' ∈ some c, p = c' := by
    intro p hp c' hc'
    exact hp.trans (Option.some.inj hc')
  constructor
  · exact ⟨fun _ => Prod.ext hprevX hprevY, fun _ => hinit⟩
  · simp only [hwidth, hheight]
    exact h.screen
  · exact hinit.symm
  · intro _
    simp only [hwidth, hheight]
    exact hreported
  · intro c' hc'
    obtain rfl := Option.some.inj hc'
    simp only [hwidth, hheight]
    exact hcursor
  · intro hmode
    exact hsome (hlocal hmode)
  · intro hmode
    exact hsome (hremote hmode)

/-- After a motion in local mode the logical position is seen to be the cursor exactly when it is,
and then the positions are together. -/
theorem Together.of_local_motion {s : CursorState} (h : s.Together) {r : CallbackState ℤ} {x y : ℤ}
    {c : ℤ × ℤ} (hprev : r.prevX = x ∧ r.prevY = y ∧ r.prevInitialized = true)
    (hscreen : (r.screenWidth, r.screenHeight) =
      (s.grab.callback.screenWidth, s.grab.callback.screenHeight))
    (hreported : OnScreen s.grab.callback.screenWidth x ∧ OnScreen s.grab.callback.screenHeight y)
    (hcursor : OnScreen s.grab.callback.screenWidth c.1 ∧
      OnScreen s.grab.callback.screenHeight c.2)
    (hfrozen : r.isRemote = true → (r.frozenX, r.frozenY) = (r.posX, r.posY)) :
    ((⟨true, (r.posX, r.posY), some c⟩ : CursorOutcome).InSync ↔ (r.posX, r.posY) = c) ∧
      ((r.posX, r.posY) = c → (⟨⟨r, (x, y)⟩, some c⟩ : CursorState).Together) := by
  constructor
  · constructor
    · intro hsync
      exact hsync rfl c rfl
    · intro hpos _ c' hc'
      exact hpos.trans (Option.some.inj hc')
  · intro hpos
    refine h.of_motion hprev hscreen hreported hcursor (fun _ => hpos) ?_
    intro hremote
    exact (hfrozen hremote).trans hpos

/-- A motion in remote mode keeps them together: the cursor and the frozen position stay. -/
theorem Together.react_remote {s : CursorState} (h : s.Together) (lib : KeyLib κ)
    {input : PhysicalInput κ} {dx dy : ℤ} (hevent : input.event = .motion dx dy)
    (hremote : (s.checked input).grab.callback.isRemote = true) :
    (s.react lib input).2.InSync ∧ (s.react lib input).1.Together := by
  have hchecked := h.checked input
  have hreact := s.react_motion lib hevent
  let t := (s.checked input).grab
  let x := CursorNumber.clamp (t.accumulator.1 + dx) 0 t.callback.screenWidth
  let y := CursorNumber.clamp (t.accumulator.2 + dy) 0 t.callback.screenHeight
  obtain ⟨hmode, hfrozen, hscreen, hpass⟩ := handle_motion_remote lib input.hasClient hremote x y
  obtain ⟨hprevX, hprevY, hinit, -⟩ := handle_mouseMove lib input.hasClient t.callback x y
  have hstarted : s.cursor.isSome = true :=
    hchecked.started.trans (hchecked.synced.remote hremote)
  obtain ⟨c, hc⟩ := Option.isSome_iff_exists.mp hstarted
  simp only [t, x, y] at hreact hpass
  rw [hpass, hc] at hreact
  rw [hreact]
  constructor
  · intro hlocal
    simp [hremote] at hlocal
  · refine hchecked.of_motion ⟨hprevX, hprevY, hinit⟩ hscreen ?_ (hchecked.onScreen c hc) ?_ ?_
    · exact ⟨onScreen_clamp hchecked.screen.1 _, onScreen_clamp hchecked.screen.2 _⟩
    · intro hlocal
      exact absurd (hmode.symm.trans hlocal) (by simp)
    · intro _
      exact hfrozen.trans (hchecked.inRemote hremote c hc)

/-- The first reported position is where the cursor starts. -/
theorem Together.react_first {s : CursorState} (h : s.Together) (lib : KeyLib κ)
    {input : PhysicalInput κ} {dx dy : ℤ} (hevent : input.event = .motion dx dy)
    (hlocal : (s.checked input).grab.callback.isRemote = false)
    (hfirst : (s.checked input).grab.callback.prevInitialized = false) :
    (s.react lib input).2.InSync ∧ (s.react lib input).1.Together := by
  have hchecked := h.checked input
  have hreact := s.react_motion lib hevent
  let t := (s.checked input).grab
  let x := CursorNumber.clamp (t.accumulator.1 + dx) 0 t.callback.screenWidth
  let y := CursorNumber.clamp (t.accumulator.2 + dy) 0 t.callback.screenHeight
  have hx : OnScreen t.callback.screenWidth x := onScreen_clamp hchecked.screen.1 _
  have hy : OnScreen t.callback.screenHeight y := onScreen_clamp hchecked.screen.2 _
  obtain ⟨hpos, hscreen, hcases⟩ := handle_motion_local lib input.hasClient hlocal x y
  obtain ⟨hprevX, hprevY, hinit, -⟩ := handle_mouseMove lib input.hasClient t.callback x y
  have htracked : t.callback.trackedPos x y = (x, y) := by
    rw [CallbackState.trackedPos, if_neg (by simp [t, hfirst]), clamp_eq_self hx,
      clamp_eq_self hy]
  have hnone : s.cursor = none := by
    have hstarted := hchecked.started
    rw [hfirst] at hstarted
    simpa [CursorState.checked] using hstarted
  rw [htracked] at hpos hcases
  rw [hnone] at hreact
  rw [hreact]
  constructor
  · intro _ c hc
    exact hpos.trans (Option.some.inj hc)
  · refine hchecked.of_motion ⟨hprevX, hprevY, hinit⟩ hscreen ⟨hx, hy⟩ ⟨hx, hy⟩ ?_ ?_
    · intro _
      exact hpos
    · intro hmode
      rcases hcases with ⟨-, -, -, hfrozen, -⟩ | ⟨-, hlocal', -⟩
      · exact hfrozen
      · exact absurd (hmode.symm.trans hlocal') (by simp)

/-- After the first report the logical position moves by the reported difference. -/
theorem Together.trackedPos_eq {s : CursorState} (h : s.Together)
    (hinit : s.grab.callback.prevInitialized = true) (dx dy : ℤ) :
    s.grab.callback.trackedPos
        (CursorNumber.clamp (s.grab.accumulator.1 + dx) 0 s.grab.callback.screenWidth)
        (CursorNumber.clamp (s.grab.accumulator.2 + dy) 0 s.grab.callback.screenHeight) =
      (CursorNumber.clamp (s.grab.callback.posX + reportedDelta s.grab.callback.screenWidth
          s.grab.accumulator.1 dx) 0 s.grab.callback.screenWidth,
        CursorNumber.clamp (s.grab.callback.posY + reportedDelta s.grab.callback.screenHeight
          s.grab.accumulator.2 dy) 0 s.grab.callback.screenHeight) := by
  obtain ⟨hX, hY⟩ := Prod.mk.inj (h.synced.prev hinit)
  rw [CallbackState.trackedPos, if_pos hinit, hX, hY]
  rfl

/-- A later motion in local mode leaves the positions together exactly when it keeps them so. -/
theorem Together.react_local {s : CursorState} (h : s.Together) (lib : KeyLib κ)
    {input : PhysicalInput κ} {dx dy : ℤ} (hevent : input.event = .motion dx dy)
    (hlocal : (s.checked input).grab.callback.isRemote = false)
    (hinit : (s.checked input).grab.callback.prevInitialized = true) :
    ((s.react lib input).2.InSync ↔ s.KeepsSync input) ∧
      (s.KeepsSync input → (s.react lib input).1.Together) := by
  have hchecked := h.checked input
  have hreact := s.react_motion lib hevent
  let t := (s.checked input).grab
  let x := CursorNumber.clamp (t.accumulator.1 + dx) 0 t.callback.screenWidth
  let y := CursorNumber.clamp (t.accumulator.2 + dy) 0 t.callback.screenHeight
  let deltaX := reportedDelta t.callback.screenWidth t.accumulator.1 dx
  let deltaY := reportedDelta t.callback.screenHeight t.accumulator.2 dy
  have hx : OnScreen t.callback.screenWidth x := onScreen_clamp hchecked.screen.1 _
  have hy : OnScreen t.callback.screenHeight y := onScreen_clamp hchecked.screen.2 _
  obtain ⟨hpos, hscreen, hcases⟩ := handle_motion_local lib input.hasClient hlocal x y
  obtain ⟨hprevX, hprevY, hinit', -⟩ := handle_mouseMove lib input.hasClient t.callback x y
  obtain ⟨c, hc⟩ := Option.isSome_iff_exists.mp (hchecked.started.trans hinit)
  obtain ⟨haccX, haccY⟩ := hchecked.accumulator (hchecked.started.trans hinit)
  obtain ⟨hcX, hcY⟩ := hchecked.onScreen c hc
  obtain rfl : (t.callback.posX, t.callback.posY) = c := hchecked.inLocal hlocal c hc
  have hcursor : s.cursor = some (t.callback.posX, t.callback.posY) := hc
  have htracked : t.callback.trackedPos x y =
      (CursorNumber.clamp (t.callback.posX + deltaX) 0 t.callback.screenWidth,
        CursorNumber.clamp (t.callback.posY + deltaY) 0 t.callback.screenHeight) :=
    hchecked.trackedPos_eq hinit dx dy
  have hkeeps : s.KeepsSync input ↔
      if t.callback.screenWidth - 1 ≤ (t.callback.trackedPos x y).1 ∧ input.hasClient = true then
        StandsStill t.callback.screenWidth t.callback.posX deltaX ∧
          StandsStill t.callback.screenHeight t.callback.posY deltaY
      else
        EdgeAgrees t.callback.screenWidth t.accumulator.1 t.callback.posX dx ∧
          EdgeAgrees t.callback.screenHeight t.accumulator.2 t.callback.posY dy := by
    rw [htracked]
    simp only [KeepsSync, hevent]
    constructor
    · intro hkeep
      exact hkeep hlocal hinit
    · intro hkeep _ _
      exact hkeep
  rw [hkeeps]
  rcases hcases with ⟨hedge, hclient, hmode, hfrozen, hpass⟩ | ⟨hstay, hmode, hpass⟩
  · -- The event crosses and is suppressed: the cursor stays.
    rw [if_pos ⟨hedge, hclient⟩]
    have hsync : t.callback.trackedPos x y = (t.callback.posX, t.callback.posY) ↔
        StandsStill t.callback.screenWidth t.callback.posX deltaX ∧
          StandsStill t.callback.screenHeight t.callback.posY deltaY := by
      rw [htracked, Prod.mk.injEq, clamp_add_eq_self_iff hcX, clamp_add_eq_self_iff hcY]
    simp only [t, x, y] at hreact hpass
    rw [hpass, hcursor] at hreact
    rw [hreact, ← hsync, ← hpos, hlocal]
    refine hchecked.of_local_motion ⟨hprevX, hprevY, hinit'⟩ hscreen ⟨hx, hy⟩ ⟨hcX, hcY⟩ ?_
    intro _
    exact hfrozen.trans hpos.symm
  · -- The event passes: the cursor moves by the physical motion.
    rw [if_neg hstay]
    have hsync : t.callback.trackedPos x y =
        (CursorNumber.clamp (t.callback.posX + dx) 0 t.callback.screenWidth,
          CursorNumber.clamp (t.callback.posY + dy) 0 t.callback.screenHeight) ↔
        EdgeAgrees t.callback.screenWidth t.accumulator.1 t.callback.posX dx ∧
          EdgeAgrees t.callback.screenHeight t.accumulator.2 t.callback.posY dy := by
      rw [htracked, Prod.mk.injEq, clamp_add_delta_iff haccX hcX, clamp_add_delta_iff haccY hcY]
    simp only [t, x, y] at hreact hpass
    rw [hpass, hcursor] at hreact
    rw [hreact, ← hsync, ← hpos, hlocal]
    refine hchecked.of_local_motion ⟨hprevX, hprevY, hinit'⟩ hscreen ⟨hx, hy⟩
      ⟨onScreen_clamp hchecked.screen.1 _, onScreen_clamp hchecked.screen.2 _⟩ ?_
    intro hremote
    exact absurd (hremote.symm.trans hmode) (by simp)

/-- Every event leaves the positions together exactly when it keeps them so. -/
theorem Together.react {s : CursorState} (h : s.Together) (lib : KeyLib κ)
    (input : PhysicalInput κ) :
    ((s.react lib input).2.InSync ↔ s.KeepsSync input) ∧
      (s.KeepsSync input → (s.react lib input).1.Together) := by
  have hboth : ∀ {p q r : Prop}, p ∧ r → q → (p ↔ q) ∧ (q → r) := by
    rintro p q r ⟨hp, hr⟩ hq
    exact ⟨⟨fun _ => hq, fun _ => hp⟩, fun _ => hr⟩
  by_cases hmotion : ∃ dx dy, input.event = .motion dx dy
  · obtain ⟨dx, dy, hevent⟩ := hmotion
    cases hremote : (s.checked input).grab.callback.isRemote with
    | true =>
      refine hboth (h.react_remote lib hevent hremote) ?_
      simp only [KeepsSync, hevent]
      intro hlocal
      exact absurd (hremote.symm.trans hlocal) (by simp)
    | false =>
      cases hinit : (s.checked input).grab.callback.prevInitialized with
      | true => exact h.react_local lib hevent hremote hinit
      | false =>
        refine hboth (h.react_first lib hevent hremote hinit) ?_
        simp only [KeepsSync, hevent]
        intro _ hlater
        exact absurd (hinit.symm.trans hlater) (by simp)
  · have hother : ∀ dx dy, input.event ≠ .motion dx dy := fun dx dy h => hmotion ⟨dx, dy, h⟩
    refine hboth (h.react_other lib hother) ?_
    unfold KeepsSync
    cases hkind : input.event with
    | motion dx dy => exact absurd hkind (hother dx dy)
    | _ => trivial

/-- The positions are together when the capture starts, since no cursor is known yet. -/
theorem together_start (screenWidth screenHeight : UInt32) (accumulator : ℤ × ℤ) :
    (start screenWidth screenHeight accumulator).Together := by
  constructor
  · exact ⟨fun h => absurd h Bool.false_ne_true, fun h => absurd h Bool.false_ne_true⟩
  · exact ⟨Int.natCast_nonneg _, Int.natCast_nonneg _⟩
  · rfl
  · intro h
    exact absurd h Bool.false_ne_true
  · intro c hc
    exact absurd hc (by simp [start])
  · intro _ c hc
    exact absurd hc (by simp [start])
  · intro _ c hc
    exact absurd hc (by simp [start])

/-- **Cursor synchronisation.** In a run from the start, with any number of remote sessions, the
logical position is the real cursor after every event handled in local mode exactly when every
event of the run keeps the positions together. -/
theorem cursor_in_sync_iff (lib : KeyLib κ) (screenWidth screenHeight : UInt32)
    (accumulator : ℤ × ℤ) (inputs : List (PhysicalInput κ)) :
    (∀ o ∈ Run.outputs (CursorState.react lib) (start screenWidth screenHeight accumulator) inputs,
        o.InSync) ↔
      Run.Along (step lib) KeepsSync (start screenWidth screenHeight accumulator) inputs :=
  Run.forall_outputs_iff_along Together (fun _ input hkeep h => (h.react lib input).2 hkeep)
    (fun _ input h => (h.react lib input).1) (together_start ..) inputs

/-- A cursor in the middle of the screen is moved across the right edge; the client asks to
return, and a button is pressed. -/
def returnOutcomes : List CursorOutcome :=
  Run.outputs (CursorState.react .constant) (start 100 100 (50, 50))
    [(⟨.motion 0 0, false, true⟩ : PhysicalInput String), ⟨.motion 60 0, false, true⟩,
      ⟨.buttonPress .left, true, true⟩]

/-- The press finds the logical position at the edge and the cursor in the middle. -/
theorem cursor_apart_after_return : ¬ ∀ o ∈ returnOutcomes, o.InSync := by
  have hlast : returnOutcomes.getLast? = some ⟨true, (100, 50), some (50, 50)⟩ := by rfl
  intro h
  have hsync := h _ (List.mem_of_getLast? hlast) rfl _ rfl
  exact absurd hsync (by decide)

end CursorState

end SuperShare
