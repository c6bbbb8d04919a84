import SuperShare.Input.VirtualCursor

/-!
# The rows of the virtual cursor

The screens stand side by side with their upper edges in line and may differ in height, but the
row of the cursor is clamped with the height of the tallest. So the cursor that comes to a lower
screen may be below its lower edge. A delta keeps the cursor inside the screen it comes to exactly
when that screen is as tall as any other or the sum of the rows is above its lower edge.
-/

namespace SuperShare

/-- The screen that a position comes to when it is clamped: the one that contains it, the first for
a position left of all screens, the last for one right of them. -/
def CoordinateSystem.Lands (c : CoordinateSystem) (x : ℚ) (s : ScreenInfo) : Prop :=
  ((s.offsetX.toNat : ℚ) ≤ x ∨ s.offsetX.toNat = 0) ∧
    (x < s.offsetX.toNat + s.width.toNat ∨ s.offsetX.toNat + s.width.toNat = c.widthSum)

/-- Whether a position lands on a screen can be computed. -/
instance CoordinateSystem.decidableLands (c : CoordinateSystem) (x : ℚ) (s : ScreenInfo) :
    Decidable (c.Lands x s) :=
  inferInstanceAs (Decidable ((_ ∨ _) ∧ (_ ∨ _)))

namespace CursorTracking

/-- After a delta, the cursor is inside its current screen, and so is the row of an enter inside the
screen that is entered. -/
def InsideScreen (t : CursorTracking) : CursorStep → Prop
  | .delta dx dy =>
      let next := t.react (.delta dx dy)
      let cursor := next.1.cursor
      (∃ s ∈ t.coord.screens, s.id = cursor.currentScreenId ∧
        0 ≤ cursor.globalY ∧ cursor.globalY < s.height.toNat) ∧
      ∀ id x y, next.2 = some (.enter id x y) →
        ∃ s ∈ t.coord.screens, s.id = id ∧ 0 ≤ y ∧ y < s.height.toNat
  | _ => True

/-- Before a delta: the screen that the cursor will come to is as tall as any other, or the row
that the delta leads to is above its lower edge. -/
def RowFits (t : CursorTracking) : CursorStep → Prop
  | .delta dx dy =>
      ∃ s ∈ t.coord.screens, t.coord.Lands (t.cursor.globalX + dx) s ∧
        ((∀ other ∈ t.coord.screens, other.height ≤ s.height) ∨
          t.cursor.globalY + dy < s.height.toNat)
  | _ => True

/-- Whether the row of a delta fits can be computed from the state before it. -/
instance decidableRowFits (t : CursorTracking) : ∀ step : CursorStep, Decidable (t.RowFits step)
  | .change _ => isTrue trivial
  | .updateBounds => isTrue trivial
  | .delta _ _ => inferInstanceAs (Decidable (∃ s ∈ t.coord.screens, _ ∧ (_ ∨ _)))

end CursorTracking

/-! ## Clamped positions -/

/-- A clamped row is above the lower edge of a screen within the bound exactly if the row is or the
screen is as high as the bound. -/
theorem clampTo_lt_iff {bound height : UInt32} (h : 0 < height.toNat) (hle : height ≤ bound)
    (y : ℚ) : clampTo y bound < height.toNat ↔ bound ≤ height ∨ y < height.toNat := by
  have hle' : height.toNat ≤ bound.toNat := UInt32.le_iff_toNat_le.mp hle
  have hcast : (height.toNat : ℚ) ≤ bound.toNat := by exact_mod_cast hle'
  have hpos : (0 : ℚ) < height.toNat := by exact_mod_cast h
  rw [UInt32.le_iff_toNat_le]
  rcases clampTo_cases (Nat.lt_of_lt_of_le h hle') y with ⟨hneg, hy⟩ | ⟨-, hhigh, hy⟩ | ⟨hhigh, hy⟩
  · rw [hy]
    exact iff_of_true hpos (.inr (hneg.trans hpos))
  · rw [hy]
    refine ⟨.inr, ?_⟩
    rintro (hbound | hrow)
    · exact hhigh.trans_le (by exact_mod_cast hbound)
    · exact hrow
  · have hrow : ¬ y < height.toNat := not_lt.mpr (hcast.trans hhigh)
    rw [hy, Nat.cast_lt, or_iff_left hrow]
    omega

/-- A screen of a layout contains a clamped position exactly if the position lands on it. -/
theorem contains_clampTo_iff {c : CoordinateSystem} (h : Laid 0 c.screens)
    {bound : UInt32} (hbound : bound.toNat = c.widthSum) {s : ScreenInfo} (hs : s ∈ c.screens)
    (hwidth : 0 < s.width.toNat) (x : ℚ) : s.Contains (clampTo x bound) ↔ c.Lands x s := by
  have hend : s.offsetX.toNat + s.width.toNat ≤ bound.toNat := by
    have hbounds := (h.bounds hs).2
    rwa [Nat.zero_add, ← CoordinateSystem.widthSum, ← hbound] at hbounds
  have hcast : (s.offsetX.toNat + s.width.toNat : ℚ) ≤ bound.toNat := by exact_mod_cast hend
  have hpos : (0 : ℚ) < s.width.toNat := by exact_mod_cast hwidth
  have hstart : (0 : ℚ) ≤ s.offsetX.toNat := Nat.cast_nonneg _
  rw [CoordinateSystem.Lands, ScreenInfo.Contains, ← hbound]
  have hsome : 0 < bound.toNat := by omega
  rcases clampTo_cases hsome x with ⟨hneg, hx⟩ | ⟨hlow, hhigh, hx⟩ | ⟨hhigh, hx⟩
  · have hright : x < s.offsetX.toNat + s.width.toNat := by linarith
    rw [hx]
    constructor
    · rintro ⟨hzero, -⟩
      exact ⟨.inr (Nat.le_zero.mp (by exact_mod_cast hzero)), .inl hright⟩
    · rintro ⟨hleft, -⟩
      have hzero : s.offsetX.toNat = 0 := hleft.resolve_left (by linarith)
      rw [hzero, Nat.cast_zero, zero_add]
      exact ⟨le_refl _, hpos⟩
  · rw [hx]
    constructor
    · rintro ⟨hleft, hright⟩
      exact ⟨.inl hleft, .inl hright⟩
    · rintro ⟨hleft, hright⟩
      constructor
      · rcases hleft with hleft | hzero
        · exact hleft
        · rwa [hzero, Nat.cast_zero]
      · rcases hright with hright | hlast
        · exact hright
        · exact hhigh.trans_le (by exact_mod_cast hlast.ge)
  · have hleft : (s.offsetX.toNat : ℚ) ≤ x ∨ s.offsetX.toNat = 0 := .inl (by linarith)
    have hright : ¬ x < s.offsetX.toNat + s.width.toNat := by linarith
    rw [hx, or_iff_right hright, and_iff_right hleft]
    norm_cast
    omega

/-- Two screens of a layout do not contain the same position. -/
theorem Laid.eq_of_contains {c : CoordinateSystem} (h : Laid 0 c.screens)
    (hsum : c.widthSum < 2 ^ 32) {s other : ScreenInfo} (hs : s ∈ c.screens)
    (hother : other ∈ c.screens) {x : ℚ} (hlow : 0 ≤ x) (hx : s.Contains x)
    (hx' : other.Contains x) : s = other := by
  have hfind {s : ScreenInfo} (hs : s ∈ c.screens) (hx : s.Contains x) : c.screenAtX x = some s :=
    (screenAtX_eq_some h hsum).mpr ⟨hs, ((h.edgeExact hsum s hs).covers_toU32 hlow).mpr hx⟩
  exact Option.some.inj ((hfind hs hx).symm.trans (hfind hother hx'))

/-! ## One delta -/

namespace CursorTracking

/-- With current bounds, the cursor comes to the one screen that its position lands on. -/
theorem Consistent.exists_lands {t : CursorTracking} (h : t.Consistent)
    (hstale : t.stale = false) (x : ℚ) :
    ∃ s ∈ t.coord.screens, t.coord.Lands x s ∧
      t.coord.screenAtX (clampTo x t.cursor.totalWidth) = some s ∧
      ∀ other ∈ t.coord.screens, t.coord.Lands x other → other = s := by
  obtain ⟨htotal, hsum⟩ := h.toNat_totalWidth hstale
  have hlow : 0 ≤ clampTo x t.cursor.totalWidth := (clampTo_mem (htotal ▸ hsum) x).1
  have hlands {s : ScreenInfo} (hs : s ∈ t.coord.screens) :=
    contains_clampTo_iff h.laid htotal hs (h.proper.widths s hs) x
  obtain ⟨s, hs, hcontains, hfind⟩ := h.exists_screenAtX hstale x
  refine ⟨s, hs, (hlands hs).mp hcontains, hfind, fun other hother hother' => ?_⟩
  exact h.laid.eq_of_contains h.proper.sum hother hs hlow ((hlands hother).mpr hother') hcontains

/-- The cursor and an enter have the same row, the clamped one: a delta keeps the cursor inside the
screen `s` that it comes to exactly if this row is above the screen's lower edge. -/
theorem insideScreen_delta_iff {t : CursorTracking}
    (hids : (t.coord.screens.map ScreenInfo.id).Nodup) {dx dy : ℚ} {s : ScreenInfo}
    (hs : s ∈ t.coord.screens)
    (hfind : t.coord.screenAtX (clampTo (t.cursor.globalX + dx) t.cursor.totalWidth) = some s)
    (hlow : 0 ≤ clampTo (t.cursor.globalY + dy) t.cursor.maxHeight) :
    t.InsideScreen (.delta dx dy) ↔
      clampTo (t.cursor.globalY + dy) t.cursor.maxHeight < s.height.toNat := by
  simp only [InsideScreen, react, applyDelta_eq hids dx dy hs hfind]
  constructor
  · rintro ⟨⟨screen, hscreen, hid, -, hrow⟩, -⟩
    have hfirst := find?_id hids hscreen
    rw [hid, find?_id hids hs] at hfirst
    rwa [Option.some.inj hfirst]
  · intro hrow
    refine ⟨⟨s, hs, rfl, hlow, hrow⟩, fun id x y hevent => ?_⟩
    split_ifs at hevent with hid hzero
    · cases hevent
    · cases hevent
      exact ⟨s, hs, rfl, hlow, hrow⟩

/-- A delta keeps the cursor inside its screen exactly when its row fits the screen it comes to. -/
theorem Consistent.insideScreen_iff {t : CursorTracking} (h : t.Consistent) {step : CursorStep}
    (hallowed : t.Allowed step) : t.InsideScreen step ↔ t.RowFits step := by
  cases step with
  | change change => exact Iff.rfl
  | updateBounds => exact Iff.rfl
  | delta dx dy =>
    obtain ⟨s, hs, hlands, hfind, hunique⟩ := h.exists_lands hallowed (t.cursor.globalX + dx)
    obtain ⟨tallest, htallest, hheights, hheight⟩ := h.exists_maxHeight hallowed
    have hpos : 0 < t.cursor.maxHeight.toNat := hheight ▸ h.proper.heights tallest htallest
    have hrow := clampTo_lt_iff (h.proper.heights s hs) (hheight ▸ hheights s hs)
      (t.cursor.globalY + dy)
    have htall : t.cursor.maxHeight ≤ s.height ↔
        ∀ other ∈ t.coord.screens, other.height ≤ s.height := by
      rw [hheight]
      constructor
      · intro hle other hother
        exact UInt32.le_trans (hheights other hother) hle
      · intro hall
        exact hall tallest htallest
    rw [insideScreen_delta_iff h.proper.ids hs hfind (clampTo_mem hpos _).1, hrow, htall]
    constructor
    · intro hfits
      exact ⟨s, hs, hlands, hfits⟩
    · rintro ⟨other, hother, hlands', hfits⟩
      rwa [hunique other hother hlands'] at hfits

/-- **Layouts that keep the row.** Every delta keeps the cursor inside the screen it comes to
exactly when all screens have the same height: there are rows below the lower edge of any other
screen that a delta can lead to. -/
theorem Consistent.forall_insideScreen_iff {t : CursorTracking} (h : t.Consistent)
    (hstale : t.stale = false) :
    (∀ dx dy, t.InsideScreen (.delta dx dy)) ↔
      ∀ s ∈ t.coord.screens, ∀ other ∈ t.coord.screens, other.height = s.height := by
  have hiff (dx dy : ℚ) : t.InsideScreen (.delta dx dy) ↔ t.RowFits (.delta dx dy) :=
    h.insideScreen_iff (show t.Allowed (.delta dx dy) from hstale)
  constructor
  · intro hinside
    -- a delta to the first row below a screen keeps inside only where the screen is a tallest one
    have hle (s : ScreenInfo) (hs : s ∈ t.coord.screens) :
        ∀ other ∈ t.coord.screens, other.height ≤ s.height := by
      have hwidth : (0 : ℚ) < s.width.toNat := by exact_mod_cast h.proper.widths s hs
      have hlands : t.coord.Lands (t.cursor.globalX + (s.offsetX.toNat - t.cursor.globalX)) s :=
        ⟨.inl (by linarith), .inl (by linarith)⟩
      obtain ⟨_, _, _, _, hunique⟩ := h.exists_lands hstale
        (t.cursor.globalX + (s.offsetX.toNat - t.cursor.globalX))
      obtain ⟨landed, hlanded, hlands', hfits⟩ := (hiff _ _).mp
        (hinside (s.offsetX.toNat - t.cursor.globalX) (s.height.toNat - t.cursor.globalY))
      rw [hunique landed hlanded hlands', ← hunique s hs hlands] at hfits
      exact hfits.resolve_right (by linarith)
    intro s hs other hother
    exact UInt32.le_antisymm (hle s hs other hother) (hle other hother s hs)
  · intro hsame dx dy
    obtain ⟨s, hs, hlands, -, -⟩ := h.exists_lands hstale (t.cursor.globalX + dx)
    refine (hiff dx dy).mpr ⟨s, hs, hlands, .inl fun other hother => ?_⟩
    exact UInt32.le_of_eq (hsame s hs other hother)

end CursorTracking

/-! ## Runs -/

/-- **Rows along a run.** In every run that keeps the server's screen and tells the cursor the
bounds after a change, all deltas keep the cursor inside its current screen, and the rows entered
inside the screens entered, exactly when the row of each delta fits the screen it leads to. -/
theorem cursorRows_run {serverWidth serverHeight : UInt32} (hwidth : 0 < serverWidth.toNat)
    (hheight : 0 < serverHeight.toNat) {steps : List CursorStep}
    (h : Run.Along (fun t step => (CursorTracking.react t step).1) CursorTracking.Allowed
      (.start serverWidth serverHeight) steps) :
    Run.Along (fun t step => (CursorTracking.react t step).1) CursorTracking.InsideScreen
        (.start serverWidth serverHeight) steps ↔
      Run.Along (fun t step => (CursorTracking.react t step).1) CursorTracking.RowFits
        (.start serverWidth serverHeight) steps :=
  h.congr CursorTracking.Consistent
    (fun _ _ hallowed ht => ⟨ht.react hallowed, ht.insideScreen_iff hallowed⟩)
    (CursorTracking.consistent_start hwidth hheight)

/-- A cursor that goes to a lower laptop above its lower edge, back to the server and down. -/
theorem cursorRows_run_laptop :
    Run.Along (fun t step => (CursorTracking.react t step).1) CursorTracking.InsideScreen
      (.start 2560 1440)
      [.change (.addScreen 1 "laptop" 1280 720), .updateBounds, .delta 1300 (-1),
        .delta (-5000) 0, .delta 0 5000] := by
  have hadd : ((CoordinateSystem.new 2560 1440).addScreen 1 "laptop" 1280 720).Proper :=
    (CoordinateSystem.proper_new (by decide) (by decide)).addScreen (by decide) "laptop"
      (by decide) (by decide) (by decide)
  have hallowed : Run.Along (fun t step => (CursorTracking.react t step).1) CursorTracking.Allowed
      (.start 2560 1440)
      [.change (.addScreen 1 "laptop" 1280 720), .updateBounds, .delta 1300 (-1),
        .delta (-5000) 0, .delta 0 5000] :=
    ⟨hadd, trivial, rfl, rfl, rfl, trivial⟩
  exact (cursorRows_run (by decide) (by decide) hallowed).mpr (by decide +kernel)

/-- From the middle of the server's screen to the right, onto a laptop of half its height: the row
that is entered is the one below the laptop's last. -/
theorem enter_below_laptop :
    let steps := [.change (.addScreen 1 "laptop" 1280 720), .updateBounds, .delta 1300 0]
    let t := Run.final CursorTracking.react (.start 2560 1440) steps
    Run.Along (fun t step => (CursorTracking.react t step).1) CursorTracking.Allowed
        (.start 2560 1440) steps ∧
      (t.coord.screens = [⟨0, "server", 2560, 1440, 0⟩, ⟨1, "laptop", 1280, 720, 2560⟩] ∧
        t.cursor.currentScreenId = 1 ∧ t.cursor.globalY = 720) ∧
      Run.outputs CursorTracking.react (.start 2560 1440) steps =
        [none, none, some (.enter 1 20 720)] ∧
      ¬ Run.Along (fun t step => (CursorTracking.react t step).1) CursorTracking.InsideScreen
        (.start 2560 1440) steps := by
  have hadd : ((CoordinateSystem.new 2560 1440).addScreen 1 "laptop" 1280 720).Proper :=
    (CoordinateSystem.proper_new (by decide) (by decide)).addScreen (by decide) "laptop"
      (by decide) (by decide) (by decide)
  let t : CursorTracking := ⟨⟨1280, 720, 0, 3840, 1440⟩,
    ⟨[⟨0, "server", 2560, 1440, 0⟩, ⟨1, "laptop", 1280, 720, 2560⟩]⟩, false⟩
  have hfind : t.coord.screenAtX (clampTo (t.cursor.globalX + 1300) t.cursor.totalWidth) =
      some ⟨1, "laptop", 1280, 720, 2560⟩ := by decide +kernel
  have hx : clampTo (t.cursor.globalX + 1300) t.cursor.totalWidth - (2560 : UInt32).toNat = 20 := by
    decide +kernel
  have hy : clampTo (t.cursor.globalY + 0) t.cursor.maxHeight = 720 := by decide +kernel
  have hevent : (t.react (.delta 1300 0)).2 = some (.enter 1 20 720) := by
    rw [CursorTracking.react, applyDelta_eq (by decide) 1300 0 (by decide) hfind]
    simp only [hx, hy]
    rfl
  have houtputs : Run.outputs CursorTracking.react (.start 2560 1440)
      [.change (.addScreen 1 "laptop" 1280 720), .updateBounds, .delta 1300 0] =
        [none, none, (t.react (.delta 1300 0)).2] := rfl
  refine ⟨⟨hadd, trivial, rfl, trivial⟩, by decide +kernel, by rw [houtputs, hevent], ?_⟩
  intro hinside
  obtain ⟨s, hs, hid, -, hrow⟩ := hinside.2.2.1.2 1 20 720 hevent
  have hfirst : t.coord.screens.find? (fun screen => screen.id == s.id) = some s :=
    find?_id (by decide) hs
  rw [hid] at hfirst
  obtain rfl : ⟨1, "laptop", 1280, 720, 2560⟩ = s := Option.some.inj hfirst
  exact absurd hrow (by decide +kernel)

end SuperShare
