import SuperShare.Input.CursorSync

/-!
# Forwarded deltas and reported positions

The position that rdev reports is its accumulator. The callback remembers it at every motion, in
both modes, and forwards the difference to the next one. This file shows that no difference goes
beyond the physical motion of its event, and that those of a session lead from the position at
its entry to the last one, whatever sessions there were before.
-/

namespace SuperShare

variable {κ : Type}

/-- A physical event, and whether the forwarding channel has room for what it causes. -/
structure QueuedInput (κ : Type) where
  input : PhysicalInput κ
  room : Bool

/-- What the callback did with a physical event. -/
structure DeltaOutcome (κ : Type) where
  motion : ℤ × ℤ
  capture : CaptureOutcome ℤ κ ℤ

/-- A coordinate of a delta follows that of a motion: it is zero or has its sign, and is not
larger. -/
def Follows (delta motion : ℤ) : Prop :=
  (delta = 0 ∨ delta.sign = motion.sign) ∧ delta.natAbs ≤ motion.natAbs

/-- A forwarded delta follows the physical motion of its event on both axes. -/
def DeltaOutcome.Faithful (o : DeltaOutcome κ) : Prop :=
  ∀ dx dy, o.capture.emitted = some (.mouseDelta dx dy) →
    Follows dx o.motion.1 ∧ Follows dy o.motion.2

/-- The deltas that were forwarded. -/
def forwardedDeltas (outcomes : List (DeltaOutcome κ)) : List (ℤ × ℤ) :=
  (emittedTrace (outcomes.map DeltaOutcome.capture)).filterMap WarpInputEvent.delta?

namespace GrabState

/-- One physical event is reported to the callback, with a channel that may be full. -/
def reactQueued (lib : KeyLib κ) (g : GrabState) (q : QueuedInput κ) :
    GrabState × DeltaOutcome κ :=
  let (accumulator, _, event) := g.report q.input.event
  let r := SuperShare.callback lib g.callback
    ⟨event, q.input.exitRequested, q.input.hasClient, q.room⟩
  (⟨r.1, accumulator⟩, ⟨q.input.event.motionOf, r.2⟩)

/-- The callback is synchronised with the accumulator, which is on the screen once a position was
reported. -/
structure Tracked (g : GrabState) : Prop where
  synced : g.Synced
  screen : 0 ≤ g.callback.screenWidth ∧ 0 ≤ g.callback.screenHeight
  onScreen : g.callback.prevInitialized = true →
    OnScreen g.callback.screenWidth g.accumulator.1 ∧
      OnScreen g.callback.screenHeight g.accumulator.2

/-- The accumulator moves by what it does not drop. -/
theorem react_accumulator (lib : KeyLib κ) (g : GrabState) (input : PhysicalInput κ) :
    (g.react lib input).1.accumulator =
      g.accumulator + ((g.react lib input).2.motion - (g.react lib input).2.dropped) := by
  simp only [react]
  cases input.event with
  | motion dx dy =>
    refine Prod.ext ?_ ?_
    · simp only [report, PhysicalEvent.motionOf, overshoot, Prod.fst_add, Prod.fst_sub]
      omega
    · simp only [report, PhysicalEvent.motionOf, overshoot, Prod.snd_add, Prod.snd_sub]
      omega
  | _ => simp [report, PhysicalEvent.motionOf]

end GrabState

/-- What lies between zero and a motion follows it. -/
theorem follows_of_between {delta motion : ℤ}
    (h : 0 ≤ delta ∧ delta ≤ motion ∨ motion ≤ delta ∧ delta ≤ 0) : Follows delta motion := by
  refine ⟨?_, by omega⟩
  by_cases hzero : delta = 0
  · exact .inl hzero
  · right
    rcases h with ⟨hlow, hhigh⟩ | ⟨hlow, hhigh⟩
    · rw [Int.sign_eq_one_of_pos (by omega), Int.sign_eq_one_of_pos (by omega)]
    · rw [Int.sign_eq_neg_one_of_neg (by omega), Int.sign_eq_neg_one_of_neg (by omega)]

/-- Clamping only drops a part of a step. -/
theorem follows_clamp {bound x : ℤ} (hx : OnScreen bound x) (d : ℤ) :
    Follows (CursorNumber.clamp (x + d) 0 bound - x) d := by
  refine follows_of_between ?_
  simp only [OnScreen, CursorNumber.clamp] at hx ⊢
  omega

namespace GrabState

variable (lib : KeyLib κ)

/-- Before the first report nothing is tracked. -/
theorem tracked_start (screenWidth screenHeight : UInt32) (accumulator : ℤ × ℤ) :
    (start screenWidth screenHeight accumulator).Tracked where
  synced := ⟨fun h => absurd h Bool.false_ne_true, fun h => absurd h Bool.false_ne_true⟩
  screen := ⟨Int.natCast_nonneg _, Int.natCast_nonneg _⟩
  onScreen h := absurd h Bool.false_ne_true

/-- Every event keeps the accumulator tracked. -/
theorem Tracked.react {g : GrabState} (h : g.Tracked) (input : PhysicalInput κ) :
    (g.react lib input).1.Tracked := by
  have hscreen : ((g.react lib input).1.callback.screenWidth,
      (g.react lib input).1.callback.screenHeight) =
        (g.callback.screenWidth, g.callback.screenHeight) := callback_screen lib g.callback _
  obtain ⟨hwidth, hheight⟩ := Prod.mk.inj hscreen
  refine ⟨(h.synced.react lib input).1, by rw [hwidth, hheight]; exact h.screen, ?_⟩
  rw [hwidth, hheight]
  rcases g.report_cases input.event with ⟨dx, dy, hevent⟩ | ⟨-, other, hreport, hother⟩
  · intro _
    simp only [GrabState.react, report, hevent]
    exact ⟨onScreen_clamp h.screen.1 _, onScreen_clamp h.screen.2 _⟩
  · intro hinit
    obtain ⟨hstate, -⟩ := handle_of_not_motion lib input.hasClient
      (g.callback.checkExit input.exitRequested input.hasClient) hother
    obtain ⟨-, -, hchecked⟩ := checkExit_prev g.callback input.exitRequested input.hasClient
    simp only [GrabState.react, hreport, SuperShare.callback, hstate, hchecked] at hinit ⊢
    exact h.onScreen hinit

/-- In remote mode, the delta of an event leads from the position before it to the one after. -/
theorem Tracked.delta {g : GrabState} (h : g.Tracked) {input : PhysicalInput κ}
    (hremote : (g.react lib input).2.capture.remote = true) :
    (g.react lib input).2.capture.delta = (g.react lib input).1.accumulator - g.accumulator := by
  rw [react_accumulator, add_sub_cancel_left]
  exact (h.synced.react lib input).2 hremote

/-- The reported position follows the physical motion. -/
theorem Tracked.follows {g : GrabState} (h : g.Tracked)
    (hinit : g.callback.prevInitialized = true) (input : PhysicalInput κ) :
    Follows ((g.react lib input).1.accumulator.1 - g.accumulator.1)
        (g.react lib input).2.motion.1 ∧
      Follows ((g.react lib input).1.accumulator.2 - g.accumulator.2)
        (g.react lib input).2.motion.2 := by
  obtain ⟨hx, hy⟩ := h.onScreen hinit
  rcases g.report_cases input.event with ⟨dx, dy, hevent⟩ | ⟨hmotion, other, hreport, -⟩
  · simp only [GrabState.react, report, hevent]
    exact ⟨follows_clamp hx dx, follows_clamp hy dy⟩
  · simp only [GrabState.react, hreport, hmotion, sub_self]
    exact ⟨follows_of_between (by simp), follows_of_between (by simp)⟩

/-- A delta is forwarded in remote mode only. -/
theorem remote_of_delta {g : GrabState} {input : PhysicalInput κ} {dx dy : ℤ}
    (h : (g.react lib input).2.capture.emitted = some (.mouseDelta dx dy)) :
    (g.react lib input).2.capture.remote = true := by
  rcases handle_cases lib input.hasClient
      (g.callback.checkExit input.exitRequested input.hasClient) (g.report input.event).2.2 with
    ⟨hremote, -⟩ | ⟨-, -, -, hnone⟩ | ⟨-, -, -, -, enter, hsome, henter⟩
  · exact hremote
  · have hsent := hnone.symm.trans h
    cases hsent
  · have hsent := hsome.symm.trans h
    obtain rfl := Option.some.inj hsent
    cases henter

/-- Every event keeps the accumulator tracked, and forwards no more than its motion. -/
theorem Tracked.reactQueued {g : GrabState} (h : g.Tracked) (q : QueuedInput κ) :
    (g.reactQueued lib q).1.Tracked ∧ (g.reactQueued lib q).2.Faithful := by
  refine ⟨h.react lib q.input, ?_⟩
  intro dx dy hemitted
  have hsent : (g.react lib q.input).2.capture.emitted = some (.mouseDelta dx dy) := by
    change (if q.room then _ else none) = _ at hemitted
    split at hemitted
    · exact hemitted
    · cases hemitted
  have hremote := remote_of_delta lib hsent
  have hdelta := h.delta lib hremote
  have hinit := h.synced.remote (isRemote_of_checkExit hremote)
  obtain ⟨hx, hy⟩ := h.follows lib hinit q.input
  have hsame : (g.react lib q.input).2.capture.delta = (dx, dy) := by
    rw [CaptureOutcome.delta, hsent]
    rfl
  rw [hsame] at hdelta
  rw [← Prod.fst_sub, ← hdelta] at hx
  rw [← Prod.snd_sub, ← hdelta] at hy
  exact ⟨hx, hy⟩

/-- Over events in remote mode, with room for what they cause, the deltas lead from the position
before the first to the one after the last. -/
theorem Tracked.sum_deltas {g : GrabState} (h : g.Tracked) {session : List (QueuedInput κ)}
    (hremote : ∀ o ∈ Run.outputs (GrabState.reactQueued lib) g session, o.capture.remote = true)
    (hroom : ∀ q ∈ session, q.room = true) :
    (forwardedDeltas (Run.outputs (GrabState.reactQueued lib) g session)).sum =
      (Run.final (GrabState.reactQueued lib) g session).accumulator - g.accumulator := by
  rw [forwardedDeltas, sum_emittedTrace, List.map_map]
  induction session generalizing g with
  | nil => simp [Run.outputs, Run.final]
  | cons q session ih =>
    obtain ⟨hq, hsession⟩ := List.forall_mem_cons.mp hroom
    obtain ⟨ho, hrest⟩ := List.forall_mem_cons.mp hremote
    have hfirst : (g.reactQueued lib q).2.capture.delta =
        (g.reactQueued lib q).1.accumulator - g.accumulator := by
      obtain ⟨input, room⟩ := q
      obtain rfl : room = true := hq
      exact h.delta lib ho
    have hnext := ih (h.reactQueued lib q).1 hrest hsession
    rw [Run.outputs, List.map_cons, List.sum_cons, hnext, Function.comp_apply, hfirst]
    simp only [Run.final, List.foldl_cons]
    abel

/-- **Deltas.** In every run from the start, no forwarded delta goes beyond the physical motion of
its event. Over every stretch of events handled in remote mode with room in the channel, as from
an entry to the last event of its session, the deltas add up to the way from the position that
was reported before the stretch to the last one, whatever was before. -/
theorem deltas_follow (screenWidth screenHeight : UInt32) (accumulator : ℤ × ℤ) :
    (∀ inputs : List (QueuedInput κ), ∀ o ∈ Run.outputs (GrabState.reactQueued lib)
        (start screenWidth screenHeight accumulator) inputs, o.Faithful) ∧
      ∀ before session : List (QueuedInput κ),
        let entered := Run.final (GrabState.reactQueued lib)
          (start screenWidth screenHeight accumulator) before
        let outcomes := Run.outputs (GrabState.reactQueued lib) entered session
        (∀ o ∈ outcomes, o.capture.remote = true) → (∀ q ∈ session, q.room = true) →
          (forwardedDeltas outcomes).sum =
            (Run.final (GrabState.reactQueued lib) entered session).accumulator -
              entered.accumulator := by
  have hstart := tracked_start screenWidth screenHeight accumulator
  constructor
  · intro inputs
    exact Run.forall_outputs Tracked (fun g q (_ : True) h => h.reactQueued lib q) hstart
      fun _ _ => trivial
  · intro before session entered outcomes hremote hroom
    have hentered : entered.Tracked :=
      List.foldlRecOn before _ hstart fun g h q _ => (h.reactQueued lib q).1
    exact hentered.sum_deltas lib hremote hroom

/-- A session that is entered at the edge, after one that was left, and goes down and back. -/
theorem deltas_follow_back :
    let motion (dx dy : ℤ) (exit : Bool) : QueuedInput String := ⟨⟨.motion dx dy, exit, true⟩, true⟩
    let before := [motion 1 0 false, motion 3 0 false, motion (-5) 2 true, motion 6 0 false]
    let session := [motion 4 7 false, motion (-2) 0 false]
    let entered := Run.final (reactQueued .constant) (start 100 100 (98, 50)) before
    (forwardedDeltas (Run.outputs (reactQueued .constant) entered session)).sum =
      (98, 59) - (100, 52) := by
  intro motion before session entered
  have hentered : entered.accumulator = (100, 52) := by decide
  have hlast : (Run.final (reactQueued .constant) entered session).accumulator = (98, 59) := by
    decide
  have hremote : ∀ o ∈ Run.outputs (reactQueued .constant) entered session,
      o.capture.remote = true := by decide
  have hsum := (deltas_follow .constant 100 100 (98, 50)).2 before session hremote (by decide)
  exact hsum.trans (by rw [hlast, hentered])

end GrabState

end SuperShare
