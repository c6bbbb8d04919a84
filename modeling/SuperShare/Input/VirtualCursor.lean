import Mathlib.Algebra.Order.BigOperators.Group.List
import SuperShare.Input.Boundary

/-!
# The virtual cursor

The server tracks the cursor over all screens from raw deltas and says when it crosses from
one screen to another. Screens come and go between the deltas; after each change the cursor
is told the new bounds.
-/

namespace SuperShare

/-- Events generated by virtual cursor boundary detection. -/
inductive BoundaryEvent where
  /-- Cursor entered a different screen, at a position in its local coordinates. -/
  | enter (targetScreen : UInt8) (enterX enterY : ℚ)
  /-- Cursor left the current screen and returned to the server screen. -/
  | leave (sourceScreen : UInt8)

/-- Virtual cursor state on the server. -/
structure VirtualCursor where
  globalX : ℚ
  globalY : ℚ
  /-- The screen the cursor was last on. -/
  currentScreenId : UInt8
  /-- Total width of all screens. -/
  totalWidth : UInt32
  /-- Maximum height across all screens. -/
  maxHeight : UInt32

/-- Clamp a coordinate to a global bound. -/
def clampTo (x : ℚ) (bound : UInt32) : ℚ :=
  let x := if x < 0 then 0 else x
  if x ≥ bound.toNat then (bound - 1).toNat else x

namespace VirtualCursor

/-- A new virtual cursor at the center of the server screen. -/
def new (serverWidth serverHeight : UInt32) : VirtualCursor where
  globalX := (serverWidth / 2).toNat
  globalY := (serverHeight / 2).toNat
  currentScreenId := 0
  totalWidth := serverWidth
  maxHeight := serverHeight

/-- Update the dimensions when screens are added or removed. -/
def updateBounds (v : VirtualCursor) (coord : CoordinateSystem) : VirtualCursor :=
  { v with
    totalWidth := coord.totalWidth
    maxHeight := (coord.screens.map ScreenInfo.height).max?.getD 1080 }

/-- Apply a mouse delta to the virtual cursor position. -/
def applyDelta (v : VirtualCursor) (dx dy : ℚ) (coord : CoordinateSystem) :
    VirtualCursor × Option BoundaryEvent :=
  let globalX := clampTo (v.globalX + dx) v.totalWidth
  let globalY := clampTo (v.globalY + dy) v.maxHeight
  let newScreenId := ((coord.screenAtX globalX).map ScreenInfo.id).getD 0
  if newScreenId != v.currentScreenId then
    let oldScreenId := v.currentScreenId
    let v := { v with globalX, globalY, currentScreenId := newScreenId }
    match coord.screens.find? fun s => s.id == newScreenId with
    | some screen =>
        let localX := globalX - screen.offsetX.toNat
        let localY := globalY
        if newScreenId == 0 then (v, some (.leave oldScreenId))
        else (v, some (.enter newScreenId localX localY))
    | none => (v, none)
  else ({ v with globalX, globalY }, none)

end VirtualCursor

/-- What happens to a cursor and the screens it is on. -/
inductive CursorStep where
  | change (change : LayoutChange)
  | updateBounds
  | delta (dx dy : ℚ)

/-- A cursor and its coordinate system. -/
structure CursorTracking where
  cursor : VirtualCursor
  coord : CoordinateSystem
  /-- The layout has changed since the cursor was told its bounds. -/
  stale : Bool

namespace CursorTracking

/-- The cursor in the middle of the server's screen, the only one. -/
def start (serverWidth serverHeight : UInt32) : CursorTracking :=
  ⟨.new serverWidth serverHeight, .new serverWidth serverHeight, false⟩

/-- A step, with the event that it returns. -/
def react (t : CursorTracking) : CursorStep → CursorTracking × Option BoundaryEvent
  | .change change => ({ t with coord := t.coord.apply change, stale := true }, none)
  | .updateBounds => ({ t with cursor := t.cursor.updateBounds t.coord, stale := false }, none)
  | .delta dx dy =>
      let moved := t.cursor.applyDelta dx dy t.coord
      ({ t with cursor := moved.1 }, moved.2)

end CursorTracking

/-- A layout with the server's screen, distinct ids and screens that are not empty. -/
structure CoordinateSystem.Proper (c : CoordinateSystem) : Prop where
  server : ∃ s ∈ c.screens, s.id = 0
  ids : (c.screens.map ScreenInfo.id).Nodup
  widths : ∀ s ∈ c.screens, 0 < s.width.toNat
  heights : ∀ s ∈ c.screens, 0 < s.height.toNat
  sum : c.widthSum < 2 ^ 32

/-- The steps allowed: the layout stays proper, and bounds are updated before the next delta. -/
def CursorTracking.Allowed (t : CursorTracking) : CursorStep → Prop
  | .change change => (t.coord.apply change).Proper
  | .updateBounds => True
  | .delta _ _ => t.stale = false

/-! ## Proper layouts -/

namespace CoordinateSystem

/-- A server's screen that is not empty is a proper layout. -/
theorem proper_new {serverWidth serverHeight : UInt32} (hwidth : 0 < serverWidth.toNat)
    (hheight : 0 < serverHeight.toNat) : (new serverWidth serverHeight).Proper where
  server := ⟨_, List.mem_singleton.mpr rfl, rfl⟩
  ids := by simp [new]
  widths := by simpa [new] using hwidth
  heights := by simpa [new] using hheight
  sum := serverWidth.toNat_lt

/-- A screen with an id of its own that is not empty can be added where its width fits. -/
theorem Proper.addScreen {c : CoordinateSystem} (h : c.Proper) {id : UInt8}
    (hid : id ∉ c.screens.map ScreenInfo.id) (name : String) {width height : UInt32}
    (hwidth : 0 < width.toNat) (hheight : 0 < height.toNat)
    (hsum : c.widthSum + width.toNat < 2 ^ 32) :
    (c.addScreen id name width height).Proper where
  server := by
    obtain ⟨server, hserver, hzero⟩ := h.server
    exact ⟨server, List.mem_append_left _ hserver, hzero⟩
  ids := by
    rw [CoordinateSystem.addScreen, List.map_append]
    refine List.nodup_append.mpr ⟨h.ids, by simp, ?_⟩
    intro old hold new hnew hsame
    rw [hsame, List.mem_singleton.mp hnew] at hold
    exact hid hold
  widths := by
    intro s hs
    rcases List.mem_append.mp hs with hold | hnew
    · exact h.widths s hold
    · rw [List.mem_singleton.mp hnew]
      exact hwidth
  heights := by
    intro s hs
    rcases List.mem_append.mp hs with hold | hnew
    · exact h.heights s hold
    · rw [List.mem_singleton.mp hnew]
      exact hheight
  sum := by rwa [widthSum_addScreen]

/-- Any screen but the server's can be removed. -/
theorem Proper.removeScreen {c : CoordinateSystem} (h : c.Proper) {id : UInt8} (hid : id ≠ 0) :
    (c.removeScreen id).Proper := by
  have hids : (c.removeScreen id).screens.map ScreenInfo.id =
      (c.screens.filter fun s => s.id != id).map ScreenInfo.id :=
    map_recalculate (fun _ _ => rfl) 0 _
  have hold {s : ScreenInfo} (hs : s ∈ (c.removeScreen id).screens) :
      ∃ old ∈ c.screens, s = { old with offsetX := s.offsetX } := by
    obtain ⟨old, hold, hsame⟩ := exists_of_mem_recalculate hs
    exact ⟨old, List.mem_of_mem_filter hold, hsame⟩
  constructor
  · obtain ⟨server, hserver, hzero⟩ := h.server
    have hkept : (0 : UInt8) ∈ (c.removeScreen id).screens.map ScreenInfo.id := by
      rw [hids, ← hzero]
      exact List.mem_map_of_mem (List.mem_filter.mpr ⟨hserver, by simpa [hzero] using Ne.symm hid⟩)
    exact List.mem_map.mp hkept
  · rw [hids]
    exact h.ids.sublist (List.filter_sublist.map ScreenInfo.id)
  · intro s hs
    obtain ⟨old, hmem, hsame⟩ := hold hs
    rw [hsame]
    exact h.widths old hmem
  · intro s hs
    obtain ⟨old, hmem, hsame⟩ := hold hs
    rw [hsame]
    exact h.heights old hmem
  · rw [widthSum_removeScreen]
    have hle : Tiling.total (fun s => s.width.toNat) (c.screens.filter fun s => s.id != id) ≤
        c.widthSum := (List.filter_sublist.map _).sum_le_sum fun _ _ => Nat.zero_le _
    exact Nat.lt_of_le_of_lt hle h.sum

end CoordinateSystem

/-! ## One delta -/

/-- What clamping does: to the first position from the left of it, to the last from the right. -/
theorem clampTo_cases {bound : UInt32} (h : 0 < bound.toNat) (x : ℚ) :
    (x < 0 ∧ clampTo x bound = 0) ∨
      (0 ≤ x ∧ x < bound.toNat ∧ clampTo x bound = x) ∨
      (bound.toNat ≤ x ∧ clampTo x bound = (bound.toNat - 1 : ℕ)) := by
  have hone : (1 : UInt32).toNat = 1 := rfl
  have hsub : (bound - 1).toNat = bound.toNat - 1 :=
    UInt32.toNat_sub_of_le _ _ (UInt32.le_iff_toNat_le.mpr (by omega))
  have hpos : (0 : ℚ) < bound.toNat := by exact_mod_cast h
  rw [← hsub]
  by_cases hneg : x < 0
  · exact .inl ⟨hneg, by rw [clampTo, if_pos hneg, if_neg (not_le.mpr hpos)]⟩
  · by_cases hbound : bound.toNat ≤ x
    · exact .inr (.inr ⟨hbound, by rw [clampTo, if_neg hneg, if_pos hbound]⟩)
    · refine .inr (.inl ⟨not_lt.mp hneg, not_le.mp hbound, ?_⟩)
      rw [clampTo, if_neg hneg, if_neg hbound]

/-- A clamped coordinate is within its bound. -/
theorem clampTo_mem {bound : UInt32} (h : 0 < bound.toNat) (x : ℚ) :
    0 ≤ clampTo x bound ∧ clampTo x bound < bound.toNat := by
  rcases clampTo_cases h x with ⟨-, hx⟩ | ⟨hlow, hhigh, hx⟩ | ⟨-, hx⟩
  · rw [hx]
    exact ⟨le_refl _, by exact_mod_cast h⟩
  · rw [hx]
    exact ⟨hlow, hhigh⟩
  · rw [hx]
    exact ⟨Nat.cast_nonneg _, by exact_mod_cast Nat.sub_lt h Nat.one_pos⟩

/-- A coordinate stays where it is between 0 and a bound, and otherwise goes to the first or the
last pixel column before the bound. -/
def ClampsTo (x : ℚ) (bound : ℕ) (y : ℚ) : Prop :=
  (x < 0 → y = 0) ∧ (0 ≤ x → x < bound → y = x) ∧ (bound ≤ x → y = (bound - 1 : ℕ))

/-- Clamping to a bound that is not empty. -/
theorem clampsTo_clampTo {bound : UInt32} (h : 0 < bound.toNat) (x : ℚ) :
    ClampsTo x bound.toNat (clampTo x bound) := by
  have hpos : (0 : ℚ) < bound.toNat := by exact_mod_cast h
  rcases clampTo_cases h x with ⟨hneg, hx⟩ | ⟨hlow, hhigh, hx⟩ | ⟨hbound, hx⟩
  · exact ⟨fun _ => hx, fun hlow => absurd hneg (not_lt.mpr hlow), fun hbound => by linarith⟩
  · exact ⟨fun hneg => absurd hneg (not_lt.mpr hlow), fun _ _ => hx,
      fun hbound => absurd hhigh (not_lt.mpr hbound)⟩
  · exact ⟨fun hneg => by linarith, fun _ hhigh => absurd hhigh (not_lt.mpr hbound), fun _ => hx⟩

/-- The maximum of the heights is the height of the tallest screen. -/
theorem exists_tallest {screens : List ScreenInfo} (h : screens ≠ []) :
    ∃ s ∈ screens, (∀ other ∈ screens, other.height ≤ s.height) ∧
      (screens.map ScreenInfo.height).max?.getD 1080 = s.height := by
  cases hmax : (screens.map ScreenInfo.height).max? with
  | none => exact absurd (List.map_eq_nil_iff.mp (List.max?_eq_none_iff.mp hmax)) h
  | some height =>
    obtain ⟨hmem, hle⟩ := List.max?_eq_some_iff.mp hmax
    obtain ⟨s, hs, rfl⟩ := List.mem_map.mp hmem
    exact ⟨s, hs, fun other hother => hle _ (List.mem_map_of_mem hother), rfl⟩

/-- A position within the total width is on a screen, which the lookup finds. -/
theorem exists_screenAtX {c : CoordinateSystem} (h : Laid 0 c.screens)
    (hsum : c.widthSum < 2 ^ 32) {x : ℚ} (hlow : 0 ≤ x) (hhigh : x < c.totalWidth.toNat) :
    ∃ s ∈ c.screens, s.Contains x ∧ c.screenAtX x = some s := by
  have htotal : c.totalWidth.toNat = c.widthSum := h.max_rightEdge hsum
  have hfloor : ⌊x⌋.toNat < c.totalWidth.toNat := (Nat.floor_lt hlow).mpr hhigh
  have hend : (toU32 x).toNat < 0 + c.widthSum := by
    rw [toNat_toU32]
    omega
  obtain ⟨before, s, after, hscreens, hcovers, -⟩ := h.exists_covers (Nat.zero_le _) hend
  have hs : s ∈ c.screens := by simp [hscreens]
  refine ⟨s, hs, ?_, (screenAtX_eq_some h hsum).mpr ⟨hs, hcovers⟩⟩
  exact ((h.edgeExact hsum s hs).covers_toU32 hlow).mp hcovers

/-- What a delta does: the cursor moves within the bounds, onto the screen `s` that contains it,
and the event is the one for a change of the current screen to `s`. -/
theorem applyDelta_eq {v : VirtualCursor} {c : CoordinateSystem}
    (hids : (c.screens.map ScreenInfo.id).Nodup) (dx dy : ℚ) {s : ScreenInfo} (hs : s ∈ c.screens)
    (hfind : c.screenAtX (clampTo (v.globalX + dx) v.totalWidth) = some s) :
    v.applyDelta dx dy c =
      ({ v with
          globalX := clampTo (v.globalX + dx) v.totalWidth
          globalY := clampTo (v.globalY + dy) v.maxHeight
          currentScreenId := s.id },
        if s.id = v.currentScreenId then none
        else if s.id = 0 then some (.leave v.currentScreenId)
        else some (.enter s.id (clampTo (v.globalX + dx) v.totalWidth - s.offsetX.toNat)
          (clampTo (v.globalY + dy) v.maxHeight))) := by
  simp only [VirtualCursor.applyDelta, hfind, Option.map_some, Option.getD_some,
    find?_id hids hs]
  by_cases hid : s.id = v.currentScreenId
  · simp [hid]
  · have hchange : (s.id != v.currentScreenId) = true := by simpa using hid
    rw [if_pos hchange, if_neg hid]
    by_cases hzero : s.id = 0
    · simp [hzero]
    · simp [hzero]

/-! ## Runs -/

/-- What is returned for a change of the current screen from `source` to `target`: nothing if
there is none, a leave with the source if the target is the server, and otherwise an enter at a
coordinate of the target screen. -/
def EventFor (c : CoordinateSystem) (source target : UInt8) (event : Option BoundaryEvent) : Prop :=
  (event = none ↔ target = source) ∧
  (∀ id, event = some (.leave id) ↔ target ≠ source ∧ target = 0 ∧ id = source) ∧
  (∀ id, (∃ x y, event = some (.enter id x y)) ↔ target ≠ source ∧ target ≠ 0 ∧ id = target) ∧
  ∀ id x y, event = some (.enter id x y) → ∃ s ∈ c.screens, s.id = id ∧ 0 ≤ x ∧ x < s.width.toNat

/-- A delta as it should be: nothing is subtracted from an empty bound, the cursor moves by the
delta and is kept within the bounds of the layout, its current screen is the one that contains
it, and the event is that for the change of the current screen. -/
def CursorTracking.GoodMove (t : CursorTracking) : CursorStep → Prop
  | .delta dx dy =>
      let next := t.react (.delta dx dy)
      let cursor := next.1.cursor
      (1 ≤ t.cursor.totalWidth ∧ 1 ≤ t.cursor.maxHeight) ∧
      (0 ≤ cursor.globalX ∧ cursor.globalX < t.coord.totalWidth.toNat ∧
        ClampsTo (t.cursor.globalX + dx) t.coord.totalWidth.toNat cursor.globalX) ∧
      (0 ≤ cursor.globalY ∧ ∃ s ∈ t.coord.screens,
        (∀ other ∈ t.coord.screens, other.height ≤ s.height) ∧ cursor.globalY < s.height.toNat ∧
          ClampsTo (t.cursor.globalY + dy) s.height.toNat cursor.globalY) ∧
      (∃ s ∈ t.coord.screens, s.id = cursor.currentScreenId ∧ s.Contains cursor.globalX) ∧
      EventFor t.coord t.cursor.currentScreenId cursor.currentScreenId next.2
  | _ => True

/-- The current screen as the events tell it. -/
def replay (screen : UInt8) : Option BoundaryEvent → UInt8
  | some (.enter targetScreen _ _) => targetScreen
  | some (.leave _) => 0
  | none => screen

/-- What holds between the steps: the screens are laid out, and a cursor that has been told its
bounds knows them. -/
structure CursorTracking.Consistent (t : CursorTracking) : Prop where
  proper : t.coord.Proper
  laid : Laid 0 t.coord.screens
  totalWidth : t.stale = false → t.cursor.totalWidth = t.coord.totalWidth
  maxHeight : t.stale = false →
    t.cursor.maxHeight = (t.coord.screens.map ScreenInfo.height).max?.getD 1080

/-- Cursor start: the new cursor knows the bounds of the server's screen. -/
theorem CursorTracking.consistent_start {serverWidth serverHeight : UInt32}
    (hwidth : 0 < serverWidth.toNat) (hheight : 0 < serverHeight.toNat) :
    (start serverWidth serverHeight).Consistent where
  proper := CoordinateSystem.proper_new hwidth hheight
  laid := ⟨rfl, trivial⟩
  totalWidth := by
    intro _
    simp [start, CoordinateSystem.new, CoordinateSystem.totalWidth, VirtualCursor.new,
      ScreenInfo.rightEdge]
  maxHeight := by
    intro _
    simp [start, CoordinateSystem.new, VirtualCursor.new]

/-- Cursor step: allowed steps keep the layout and what the cursor knows of it. -/
theorem CursorTracking.Consistent.react {t : CursorTracking} (h : t.Consistent)
    {step : CursorStep} (hallowed : t.Allowed step) : (t.react step).1.Consistent := by
  cases step with
  | change change =>
    have hlaid := CoordinateSystem.laid_apply (fun _ => h.laid) change hallowed.sum
    exact ⟨hallowed, hlaid, nofun, nofun⟩
  | updateBounds => exact ⟨h.proper, h.laid, fun _ => rfl, fun _ => rfl⟩
  | delta dx dy =>
    have hbounds : (t.cursor.applyDelta dx dy t.coord).1.totalWidth = t.cursor.totalWidth ∧
        (t.cursor.applyDelta dx dy t.coord).1.maxHeight = t.cursor.maxHeight := by
      simp only [VirtualCursor.applyDelta]
      split
      · split
        · split <;> exact ⟨rfl, rfl⟩
        · exact ⟨rfl, rfl⟩
      · exact ⟨rfl, rfl⟩
    refine ⟨h.proper, h.laid, fun hstale => ?_, fun hstale => ?_⟩
    · exact hbounds.1.trans (h.totalWidth hstale)
    · exact hbounds.2.trans (h.maxHeight hstale)

/-- The event for a change of the current screen, at a position on the new one. -/
theorem eventFor_of_contains {c : CoordinateSystem} {s : ScreenInfo} (hs : s ∈ c.screens)
    {x : ℚ} (hx : s.Contains x) (y : ℚ) (source : UInt8) :
    EventFor c source s.id
      (if s.id = source then none
        else if s.id = 0 then some (.leave source)
        else some (.enter s.id (x - s.offsetX.toNat) y)) := by
  have hlow : 0 ≤ x - s.offsetX.toNat := by linarith [hx.1]
  have hhigh : x - s.offsetX.toNat < s.width.toNat := by linarith [hx.2]
  by_cases hid : s.id = source
  · simp [EventFor, hid]
  · rw [if_neg hid]
    by_cases hzero : s.id = 0
    · rw [if_pos hzero]
      refine ⟨by simp [hid], ?_, by simp [hzero], by simp⟩
      intro id
      constructor
      · rintro ⟨⟩
        exact ⟨hid, hzero, rfl⟩
      · rintro ⟨-, -, rfl⟩
        rfl
    · rw [if_neg hzero]
      refine ⟨by simp [hid], by simp [hzero], ?_, ?_⟩
      · intro id
        constructor
        · rintro ⟨_, _, ⟨⟩⟩
          exact ⟨hid, hzero, rfl⟩
        · rintro ⟨-, -, rfl⟩
          exact ⟨_, _, rfl⟩
      · rintro id lx ly ⟨⟩
        exact ⟨s, hs, rfl, hlow, hhigh⟩

/-- The total width that a cursor with current bounds knows is that of the layout. -/
theorem CursorTracking.Consistent.toNat_totalWidth {t : CursorTracking} (h : t.Consistent)
    (hstale : t.stale = false) :
    t.cursor.totalWidth.toNat = t.coord.widthSum ∧ 0 < t.coord.widthSum := by
  have htotal : t.coord.totalWidth.toNat = t.coord.widthSum := h.laid.max_rightEdge h.proper.sum
  refine ⟨by rw [h.totalWidth hstale, htotal], ?_⟩
  obtain ⟨server, hserver, -⟩ := h.proper.server
  have hwidth := h.proper.widths server hserver
  have hend := (h.laid.bounds hserver).2
  simp only [CoordinateSystem.widthSum]
  omega

/-- The height that a cursor with current bounds knows is that of a tallest screen. -/
theorem CursorTracking.Consistent.exists_maxHeight {t : CursorTracking} (h : t.Consistent)
    (hstale : t.stale = false) :
    ∃ s ∈ t.coord.screens, (∀ other ∈ t.coord.screens, other.height ≤ s.height) ∧
      t.cursor.maxHeight = s.height := by
  obtain ⟨server, hserver, -⟩ := h.proper.server
  obtain ⟨tallest, htallest, hheights, hmax⟩ := exists_tallest (List.ne_nil_of_mem hserver)
  exact ⟨tallest, htallest, hheights, (h.maxHeight hstale).trans hmax⟩

/-- With current bounds, a clamped position is on a screen, which the lookup finds. -/
theorem CursorTracking.Consistent.exists_screenAtX {t : CursorTracking} (h : t.Consistent)
    (hstale : t.stale = false) (x : ℚ) :
    ∃ s ∈ t.coord.screens, s.Contains (clampTo x t.cursor.totalWidth) ∧
      t.coord.screenAtX (clampTo x t.cursor.totalWidth) = some s := by
  obtain ⟨htotal, hpos⟩ := h.toNat_totalWidth hstale
  obtain ⟨hlow, hhigh⟩ := clampTo_mem (htotal ▸ hpos) x
  rw [h.totalWidth hstale] at hlow hhigh ⊢
  exact SuperShare.exists_screenAtX h.laid h.proper.sum hlow hhigh

/-- A delta with current bounds is as it should be. -/
theorem CursorTracking.Consistent.goodMove {t : CursorTracking} (h : t.Consistent)
    {step : CursorStep} (hallowed : t.Allowed step) : t.GoodMove step := by
  cases step with
  | change change => trivial
  | updateBounds => trivial
  | delta dx dy =>
    obtain ⟨htotal, hsum⟩ := h.toNat_totalWidth hallowed
    have hpos : 0 < t.cursor.totalWidth.toNat := htotal ▸ hsum
    obtain ⟨tallest, htallest, hheights, hheight⟩ := h.exists_maxHeight hallowed
    have hpos' : 0 < t.cursor.maxHeight.toNat := by
      rw [hheight]
      exact h.proper.heights tallest htallest
    have hx := clampTo_mem hpos (t.cursor.globalX + dx)
    have hy := clampTo_mem hpos' (t.cursor.globalY + dy)
    obtain ⟨s, hs, hcontains, hfind⟩ := h.exists_screenAtX hallowed (t.cursor.globalX + dx)
    simp only [GoodMove, CursorTracking.react, applyDelta_eq h.proper.ids dx dy hs hfind]
    refine ⟨⟨?_, ?_⟩, ⟨hx.1, h.totalWidth hallowed ▸ hx.2, ?_⟩,
      ⟨hy.1, tallest, htallest, hheights, hheight ▸ hy.2, ?_⟩, ⟨s, hs, rfl, hcontains⟩,
      eventFor_of_contains hs hcontains _ _⟩
    · exact UInt32.le_iff_toNat_le.mpr hpos
    · exact UInt32.le_iff_toNat_le.mpr hpos'
    · rw [← h.totalWidth hallowed]
      exact clampsTo_clampTo hpos _
    · rw [← hheight]
      exact clampsTo_clampTo hpos' _

/-- A delta's event leads from the current screen before it to the one after it; nothing else
changes the current screen. -/
theorem CursorTracking.Consistent.replay_react {t : CursorTracking} (h : t.Consistent)
    {step : CursorStep} (hallowed : t.Allowed step) :
    replay t.cursor.currentScreenId (t.react step).2 =
      (t.react step).1.cursor.currentScreenId := by
  have hgood := h.goodMove hallowed
  cases step with
  | change change => rfl
  | updateBounds => rfl
  | delta dx dy =>
    obtain ⟨-, -, -, -, hnone, hleave, henter, -⟩ := hgood
    cases hevent : (t.react (.delta dx dy)).2 with
    | none => exact (hnone.mp hevent).symm
    | some event =>
      cases event with
      | enter target x y => exact ((henter target).mp ⟨x, y, hevent⟩).2.2
      | leave source => exact ((hleave source).mp hevent).2.1.symm

/-- Cursor run: the events replayed from the current screen give the current screen. -/
theorem replay_outputs {t : CursorTracking} (ht : t.Consistent) {steps : List CursorStep}
    (h : Run.Along (fun t step => (CursorTracking.react t step).1) CursorTracking.Allowed t steps) :
    (Run.outputs CursorTracking.react t steps).foldl replay t.cursor.currentScreenId =
      (Run.final CursorTracking.react t steps).cursor.currentScreenId := by
  induction steps generalizing t with
  | nil => rfl
  | cons step steps ih =>
    rw [Run.outputs, List.foldl_cons, ht.replay_react h.1]
    exact ih (ht.react h.1) h.2

/-- **Virtual cursor.** In every run that keeps the server's screen and tells the cursor the bounds
after a change, each delta moves the cursor by itself and leaves it within the bounds, on the
screen that its id names, with the event for the change of the current screen; and the events
tell the current screen. -/
theorem virtualCursor_run {serverWidth serverHeight : UInt32} (hwidth : 0 < serverWidth.toNat)
    (hheight : 0 < serverHeight.toNat) {steps : List CursorStep}
    (h : Run.Along (fun t step => (CursorTracking.react t step).1) CursorTracking.Allowed
      (.start serverWidth serverHeight) steps) :
    Run.Along (fun t step => (CursorTracking.react t step).1) CursorTracking.GoodMove
        (.start serverWidth serverHeight) steps ∧
      (Run.outputs CursorTracking.react (.start serverWidth serverHeight) steps).foldl replay 0 =
        (Run.final CursorTracking.react (.start serverWidth serverHeight)
          steps).cursor.currentScreenId := by
  have hstart := CursorTracking.consistent_start hwidth hheight
  constructor
  · exact h.imp CursorTracking.Consistent
      (fun t step hallowed ht => ⟨ht.react hallowed, ht.goodMove hallowed⟩) hstart
  · exact replay_outputs hstart h

/-- A cursor that crosses to a laptop and, once the laptop is gone, is on the server's screen. -/
theorem virtualCursor_run_laptop :
    Run.Along (fun t step => (CursorTracking.react t step).1) CursorTracking.GoodMove
      (.start 100 80)
      [.change (.addScreen 1 "laptop" 50 40), .updateBounds, .delta 60 0,
        .change (.removeScreen 1), .updateBounds, .delta 0 5] := by
  have hnew : (CoordinateSystem.new 100 80).Proper :=
    CoordinateSystem.proper_new (by decide) (by decide)
  have hadd : ((CoordinateSystem.new 100 80).addScreen 1 "laptop" 50 40).Proper :=
    hnew.addScreen (by decide) "laptop" (by decide) (by decide) (by decide)
  have hremove : (((CoordinateSystem.new 100 80).addScreen 1 "laptop" 50 40).removeScreen
      1).Proper := hadd.removeScreen (by decide)
  have hallowed : Run.Along (fun t step => (CursorTracking.react t step).1) CursorTracking.Allowed
      (.start 100 80)
      [.change (.addScreen 1 "laptop" 50 40), .updateBounds, .delta 60 0,
        .change (.removeScreen 1), .updateBounds, .delta 0 5] :=
    ⟨hadd, trivial, rfl, hremove, trivial, rfl, trivial⟩
  exact (virtualCursor_run (by decide) (by decide) hallowed).1

end SuperShare
