import Mathlib.Data.List.Find
import Mathlib.Data.List.Induction
import Mathlib.Data.List.Infix
import Mathlib.Data.Rat.Floor
import SuperShare.Lib.Run
import SuperShare.Lib.Tiling

/-!
# The screens side by side

The coordinate system of the screens: the server's screen and those of the clients stand in
one row from left to right. Widths and offsets are `u32`, with the wrapping addition of a
release build; positions are exact numbers.
-/

namespace SuperShare

/-- Describes a screen in the global coordinate system. -/
structure ScreenInfo where
  /-- Unique screen ID (0 = server, 1+ = clients). -/
  id : UInt8
  name : String
  width : UInt32
  height : UInt32
  /-- X offset in the global coordinate system. -/
  offsetX : UInt32
  deriving DecidableEq

/-- The sum by which every function below finds where a screen ends. -/
def ScreenInfo.rightEdge (s : ScreenInfo) : UInt32 := s.offsetX + s.width

/-- All screens ordered left to right. -/
structure CoordinateSystem where
  screens : List ScreenInfo

/-- A coordinate that is a float becomes a `u32`: truncated, and saturated at both ends. -/
def toU32 (x : ℚ) : UInt32 := UInt32.ofNat (min ⌊x⌋.toNat (2 ^ 32 - 1))

/-- The offsets after a removal: a running sum of the widths. -/
def recalculate (offset : UInt32) : List ScreenInfo → List ScreenInfo
  | [] => []
  | screen :: screens =>
      { screen with offsetX := offset } :: recalculate (offset + screen.width) screens

namespace CoordinateSystem

/-- A new coordinate system with the server's screen as screen 0. -/
def new (serverWidth serverHeight : UInt32) : CoordinateSystem :=
  ⟨[⟨0, "server", serverWidth, serverHeight, 0⟩]⟩

/-- Add a client screen to the right of all existing screens. -/
def addScreen (c : CoordinateSystem) (id : UInt8) (name : String) (width height : UInt32) :
    CoordinateSystem :=
  let offsetX := (c.screens.map ScreenInfo.rightEdge).max?.getD 0
  ⟨c.screens ++ [⟨id, name, width, height, offsetX⟩]⟩

/-- Remove a screen by ID. -/
def removeScreen (c : CoordinateSystem) (id : UInt8) : CoordinateSystem :=
  ⟨recalculate 0 (c.screens.filter fun s => s.id != id)⟩

/-- Find which screen contains the given global x coordinate. -/
def screenAtX (c : CoordinateSystem) (globalX : ℚ) : Option ScreenInfo :=
  let x := toU32 globalX
  c.screens.find? fun s => x ≥ s.offsetX && x < s.rightEdge

/-- Convert local screen coordinates to global coordinates. -/
def localToGlobal (c : CoordinateSystem) (screenId : UInt8) (localX localY : ℚ) : ℚ × ℚ :=
  match c.screens.find? fun s => s.id == screenId with
  | some screen => (screen.offsetX.toNat + localX, localY)
  | none => (localX, localY)

/-- Convert global coordinates to local screen coordinates. -/
def globalToLocal (c : CoordinateSystem) (globalX globalY : ℚ) : Option (UInt8 × ℚ × ℚ) := do
  let screen ← c.screenAtX globalX
  let localX := globalX - screen.offsetX.toNat
  return (screen.id, localX, globalY)

/-- The total width of all screens. -/
def totalWidth (c : CoordinateSystem) : UInt32 :=
  (c.screens.map ScreenInfo.rightEdge).max?.getD 0

end CoordinateSystem

/-- A change of the layout. -/
inductive LayoutChange where
  | addScreen (id : UInt8) (name : String) (width height : UInt32)
  | removeScreen (id : UInt8)
  deriving DecidableEq

/-- The coordinate system after a change. -/
def CoordinateSystem.apply (c : CoordinateSystem) : LayoutChange → CoordinateSystem
  | .addScreen id name width height => c.addScreen id name width height
  | .removeScreen id => c.removeScreen id

/-- The screen that a change is about. -/
def LayoutChange.screenId : LayoutChange → UInt8
  | addScreen id _ _ _ => id
  | removeScreen id => id

/-- The call that adds a screen, wherever it stands in the row. -/
def ScreenInfo.added (s : ScreenInfo) : LayoutChange := .addScreen s.id s.name s.width s.height

/-- The calls that added a screen and were not followed by a removal of its ID. -/
def standing : List LayoutChange → List LayoutChange
  | [] => []
  | .addScreen id name width height :: later =>
      if .removeScreen id ∈ later then standing later
      else .addScreen id name width height :: standing later
  | .removeScreen _ :: later => standing later

/-! ## The layout -/

/-- The maximum of two `u32` is their least upper bound. -/
instance lawfulOrderMaxUInt32 : Std.LawfulOrderMax UInt32 :=
  .of_max_le_iff
    (by intro a b c; simp only [Max.max, UInt32.le_iff_toNat_le]; grind)
    (by intro a b; simp only [Max.max]; grind)

/-- The exact sum of the widths. -/
def CoordinateSystem.widthSum (c : CoordinateSystem) : ℕ :=
  Tiling.total (fun s => s.width.toNat) c.screens

/-- The screen covers the pixel column `x`. -/
def ScreenInfo.Covers (s : ScreenInfo) (x : ℕ) : Prop :=
  Tiling.Covers (fun s => s.offsetX.toNat) (fun s => s.width.toNat) s x

/-- Screens that tile the pixel columns from `lo` on. -/
def Laid (lo : ℕ) (screens : List ScreenInfo) : Prop :=
  Tiling.Tiles (fun s : ScreenInfo => s.offsetX.toNat) (fun s => s.width.toNat) lo screens

/-- The right edge of a screen without overflow. The functions of a coordinate system add
nothing but offsets and widths of screens: those it has, or, where a removal sums up the
widths again, those that it then has. -/
def ScreenInfo.EdgeExact (s : ScreenInfo) : Prop :=
  s.offsetX.toNat + s.width.toNat < 2 ^ 32

/-- An exact right edge. -/
theorem ScreenInfo.EdgeExact.rightEdge {s : ScreenInfo} (h : s.EdgeExact) :
    s.rightEdge.toNat = s.offsetX.toNat + s.width.toNat := by
  rw [ScreenInfo.rightEdge, UInt32.toNat_add, Nat.mod_eq_of_lt h]

/-- In a layout whose end is a `u32`, no right edge overflows. -/
theorem Laid.edgeExact {screens : List ScreenInfo} (h : Laid 0 screens)
    (hsum : Tiling.total (fun s => s.width.toNat) screens < 2 ^ 32) :
    ∀ s ∈ screens, s.EdgeExact := by
  intro s hs
  have hend := (h.bounds hs).2
  simp only [Nat.zero_add] at hend
  exact Nat.lt_of_le_of_lt hend hsum

/-- The maximum of the right edges of a layout is the sum of the widths. -/
theorem Laid.max_rightEdge {screens : List ScreenInfo} (h : Laid 0 screens)
    (hsum : Tiling.total (fun s => s.width.toNat) screens < 2 ^ 32) :
    ((screens.map ScreenInfo.rightEdge).max?.getD 0).toNat =
      Tiling.total (fun s => s.width.toNat) screens := by
  by_cases hnil : screens = []
  · simp [hnil]
  · have hedge : ∀ s ∈ screens, s.rightEdge.toNat = s.offsetX.toNat + s.width.toNat :=
      fun s hs => (h.edgeExact hsum s hs).rightEdge
    obtain ⟨last, hlast, hend⟩ := h.exists_end hnil
    have hmax : (screens.map ScreenInfo.rightEdge).max? = some last.rightEdge := by
      refine List.max?_eq_some_iff.mpr ⟨List.mem_map_of_mem hlast, ?_⟩
      intro edge hmem
      obtain ⟨s, hs, rfl⟩ := List.mem_map.mp hmem
      rw [UInt32.le_iff_toNat_le, hedge s hs, hedge last hlast, hend]
      exact (h.bounds hs).2
    rw [hmax, Option.getD_some, hedge last hlast, hend, Nat.zero_add]

/-- A running sum of widths that does not overflow lays the screens out. -/
theorem laid_recalculate {offset : UInt32} {screens : List ScreenInfo}
    (h : offset.toNat + Tiling.total (fun s => s.width.toNat) screens < 2 ^ 32) :
    Laid offset.toNat (recalculate offset screens) := by
  induction screens generalizing offset with
  | nil => trivial
  | cons s screens ih =>
    simp only [Tiling.total_cons] at h
    have hadd : (offset + s.width).toNat = offset.toNat + s.width.toNat := by
      rw [UInt32.toNat_add, Nat.mod_eq_of_lt (by omega)]
    refine ⟨rfl, ?_⟩
    rw [← hadd]
    exact ih (by omega)

/-- Recalculating offsets keeps what a function of the other fields sees. -/
theorem map_recalculate {β : Type} {f : ScreenInfo → β}
    (hf : ∀ s : ScreenInfo, ∀ offset, f { s with offsetX := offset } = f s) (offset : UInt32)
    (screens : List ScreenInfo) : (recalculate offset screens).map f = screens.map f := by
  induction screens generalizing offset with
  | nil => rfl
  | cons s screens ih => simp [recalculate, hf, ih]

/-- A screen whose offset has been recalculated was there before, at some offset. -/
theorem exists_of_mem_recalculate {offset : UInt32} {screens : List ScreenInfo} {s : ScreenInfo}
    (hs : s ∈ recalculate offset screens) :
    ∃ old ∈ screens, s = { old with offsetX := s.offsetX } := by
  induction screens generalizing offset with
  | nil => simp [recalculate] at hs
  | cons screen screens ih =>
    rcases List.mem_cons.mp hs with rfl | hrest
    · exact ⟨screen, List.mem_cons_self, rfl⟩
    · obtain ⟨old, hold, hsame⟩ := ih hrest
      exact ⟨old, List.mem_cons_of_mem _ hold, hsame⟩

/-- Recalculating offsets keeps the sum of the widths. -/
theorem total_recalculate (offset : UInt32) (screens : List ScreenInfo) :
    Tiling.total (fun s => s.width.toNat) (recalculate offset screens) =
      Tiling.total (fun s => s.width.toNat) screens :=
  congrArg List.sum (map_recalculate (fun _ _ => rfl) offset screens)

namespace CoordinateSystem

/-- A new screen adds its width. -/
theorem widthSum_addScreen (c : CoordinateSystem) (id : UInt8) (name : String)
    (width height : UInt32) :
    (c.addScreen id name width height).widthSum = c.widthSum + width.toNat := by
  simp [widthSum, addScreen]

/-- A removal keeps the widths of the other screens. -/
theorem widthSum_removeScreen (c : CoordinateSystem) (id : UInt8) :
    (c.removeScreen id).widthSum =
      Tiling.total (fun s => s.width.toNat) (c.screens.filter fun s => s.id != id) :=
  total_recalculate 0 _

/-- Layout step: as long as the widths fit, screens that are laid out stay so. A removal lays
the screens out anew, whatever they were before. -/
theorem laid_apply {c : CoordinateSystem} (h : c.widthSum < 2 ^ 32 → Laid 0 c.screens)
    (change : LayoutChange) (hsum : (c.apply change).widthSum < 2 ^ 32) :
    Laid 0 (c.apply change).screens := by
  cases change with
  | addScreen id name width height =>
    rw [apply, widthSum_addScreen] at hsum
    have hold : c.widthSum < 2 ^ 32 := by omega
    have hlaid : Laid 0 c.screens := h hold
    refine Tiling.tiles_append.mpr ⟨hlaid, ?_, trivial⟩
    rw [Nat.zero_add]
    exact hlaid.max_rightEdge hold
  | removeScreen id =>
    rw [apply, widthSum_removeScreen] at hsum
    have hfits : (0 : UInt32).toNat +
        Tiling.total (fun s => s.width.toNat) (c.screens.filter fun s => s.id != id) < 2 ^ 32 := by
      simpa using hsum
    exact laid_recalculate hfits

/-- Layout run: whenever the widths fit, the screens are laid out. -/
theorem laid_run (serverWidth serverHeight : UInt32) (changes : List LayoutChange) :
    (changes.foldl apply (new serverWidth serverHeight)).widthSum < 2 ^ 32 →
      Laid 0 (changes.foldl apply (new serverWidth serverHeight)).screens := by
  induction changes using List.reverseRecOn with
  | nil => exact fun _ => ⟨rfl, trivial⟩
  | append_singleton changes change ih =>
    rw [List.foldl_append]
    exact laid_apply ih change

end CoordinateSystem

/-! ## The screens that the calls leave -/

/-- A screen that is added last stands. -/
theorem standing_append_addScreen (changes : List LayoutChange) (id : UInt8) (name : String)
    (width height : UInt32) :
    standing (changes ++ [.addScreen id name width height]) =
      standing changes ++ [.addScreen id name width height] := by
  induction changes with
  | nil => rfl
  | cons change changes ih =>
    cases change with
    | addScreen id' name' width' height' =>
      have hlater : .removeScreen id' ∈ changes ++ [.addScreen id name width height] ↔
          .removeScreen id' ∈ changes := by simp
      simp only [List.cons_append, standing, hlater, ih]
      split <;> rfl
    | removeScreen id' => exact ih

/-- After a last removal the screens with other IDs stand. -/
theorem standing_append_removeScreen (changes : List LayoutChange) (id : UInt8) :
    standing (changes ++ [.removeScreen id]) =
      (standing changes).filter fun change => change.screenId != id := by
  induction changes with
  | nil => rfl
  | cons change changes ih =>
    cases change with
    | addScreen id' name width height =>
      have hlater : .removeScreen id' ∈ changes ++ [.removeScreen id] ↔
          .removeScreen id' ∈ changes ∨ id' = id := by simp
      simp only [List.cons_append, standing, hlater, ih]
      by_cases hremoved : .removeScreen id' ∈ changes
      · rw [if_pos (.inl hremoved), if_pos hremoved]
      · by_cases hid : id' = id
        · rw [if_pos (.inr hid), if_neg hremoved, List.filter_cons_of_neg]
          simp [LayoutChange.screenId, hid]
        · rw [if_neg (by simp [hremoved, hid]), if_neg hremoved, List.filter_cons_of_pos]
          simpa [LayoutChange.screenId] using hid
    | removeScreen id' => exact ih

/-- The screens are those whose calls stand, in the order of the calls, the server's first. -/
theorem screens_standing (serverWidth serverHeight : UInt32) (changes : List LayoutChange) :
    (changes.foldl CoordinateSystem.apply (.new serverWidth serverHeight)).screens.map
        ScreenInfo.added =
      standing (.addScreen 0 "server" serverWidth serverHeight :: changes) := by
  induction changes using List.reverseRecOn with
  | nil => rfl
  | append_singleton changes change ih =>
    rw [List.foldl_append, ← List.cons_append]
    cases change with
    | addScreen id name width height =>
      rw [standing_append_addScreen, ← ih]
      exact List.map_append
    | removeScreen id =>
      rw [standing_append_removeScreen, ← ih, List.filter_map]
      exact map_recalculate (fun _ _ => rfl) 0 _

/-! ## Screens found by their position -/

/-- The conversion to `u32` as a number. -/
theorem toNat_toU32 (x : ℚ) : (toU32 x).toNat = min ⌊x⌋.toNat (2 ^ 32 - 1) :=
  UInt32.toNat_ofNat_of_lt' (by simp only [UInt32.size]; omega)

/-- In a layout that fits, the lookup compares with exact edges. -/
theorem screenAtX_eq {c : CoordinateSystem} (h : Laid 0 c.screens) (hsum : c.widthSum < 2 ^ 32)
    (x : ℚ) :
    c.screenAtX x = c.screens.find? fun s =>
      decide (Tiling.Covers (fun s : ScreenInfo => s.offsetX.toNat) (fun s => s.width.toNat) s
        (toU32 x).toNat) := by
  refine List.find?_congr fun s hs => ?_
  have hedge := (h.edgeExact hsum s hs).rightEdge
  simp only [UInt32.le_iff_toNat_le, UInt32.lt_iff_toNat_lt, hedge, ge_iff_le]
  exact (Bool.decide_and _ _).symm

/-- The lookup finds exactly the screen that covers the truncated coordinate. -/
theorem screenAtX_eq_some {c : CoordinateSystem} (h : Laid 0 c.screens)
    (hsum : c.widthSum < 2 ^ 32) {x : ℚ} {s : ScreenInfo} :
    c.screenAtX x = some s ↔ s ∈ c.screens ∧ s.Covers (toU32 x).toNat := by
  rw [screenAtX_eq h hsum]
  exact h.find?_eq_some

/-- Beyond the last screen the lookup finds none. -/
theorem screenAtX_eq_none {c : CoordinateSystem} (h : Laid 0 c.screens)
    (hsum : c.widthSum < 2 ^ 32) {x : ℚ} (hx : c.widthSum ≤ (toU32 x).toNat) :
    c.screenAtX x = none := by
  rw [screenAtX_eq h hsum]
  refine List.find?_eq_none.mpr fun s hs => ?_
  have hend : 0 + c.widthSum ≤ (toU32 x).toNat := by rwa [Nat.zero_add]
  simpa using h.not_covers_of_le hend s hs

/-- **Layout of the screens.** As long as the widths sum up to a `u32`, the screens are those added
and not removed since, each is at the sum of the widths before it, the total width is the sum of
all widths, no addition overflows, and the lookup at a pixel column finds the one screen that
covers it. -/
theorem screens_tile (serverWidth serverHeight : UInt32) (changes : List LayoutChange)
    (hwidths : ∀ first, first <+: changes →
      (first.foldl CoordinateSystem.apply (.new serverWidth serverHeight)).widthSum < 2 ^ 32) :
    ∀ first, first <+: changes →
      let c := first.foldl CoordinateSystem.apply (.new serverWidth serverHeight)
      c.screens.map ScreenInfo.added =
        standing (.addScreen 0 "server" serverWidth serverHeight :: first) ∧
      (∀ before s after, c.screens = before ++ s :: after →
        s.offsetX.toNat = (before.map fun b => b.width.toNat).sum) ∧
      c.totalWidth.toNat = (c.screens.map fun s => s.width.toNat).sum ∧
      (∀ s ∈ c.screens, s.EdgeExact) ∧
      (∀ x : ℕ, x < c.totalWidth.toNat →
        ∃ before s after, c.screens = before ++ s :: after ∧ c.screenAtX x = some s ∧
          s.Covers x ∧ ∀ other ∈ before ++ after, ¬ other.Covers x) ∧
      ∀ x : ℕ, c.totalWidth.toNat ≤ x → c.screenAtX x = none := by
  intro first hfirst c
  have hsum : c.widthSum < 2 ^ 32 := hwidths first hfirst
  have hlaid : Laid 0 c.screens := CoordinateSystem.laid_run serverWidth serverHeight first hsum
  have htotal : c.totalWidth.toNat = c.widthSum := hlaid.max_rightEdge hsum
  refine ⟨screens_standing serverWidth serverHeight first, ?_, htotal, hlaid.edgeExact hsum, ?_, ?_⟩
  · intro before s after hscreens
    have hstart := Tiling.Tiles.start_eq (hscreens ▸ hlaid)
    rwa [Nat.zero_add] at hstart
  · intro x hx
    have hcast : (toU32 x).toNat = x := by
      rw [toNat_toU32]
      simp
      omega
    have hend : x < 0 + c.widthSum := by omega
    obtain ⟨before, s, after, hscreens, hcovers, hothers⟩ :=
      hlaid.exists_covers (Nat.zero_le x) hend
    refine ⟨before, s, after, hscreens, ?_, hcovers, hothers⟩
    refine (screenAtX_eq_some hlaid hsum).mpr ⟨by simp [hscreens], ?_⟩
    rw [hcast]
    exact hcovers
  · intro x hx
    refine screenAtX_eq_none hlaid hsum ?_
    rw [toNat_toU32]
    simp
    omega

/-- A laptop and a phone to the right of the server's screen, and the laptop leaves: the phone
moves up to the server's screen. -/
theorem screens_tile_laptop :
    let c := [.addScreen 1 "laptop" 50 40, .addScreen 2 "phone" 30 60, .removeScreen 1].foldl
      CoordinateSystem.apply (.new 100 80)
    c.screens.map ScreenInfo.added = [.addScreen 0 "server" 100 80, .addScreen 2 "phone" 30 60] ∧
      c.totalWidth.toNat = (c.screens.map fun s => s.width.toNat).sum ∧
      ∀ x : ℕ, c.totalWidth.toNat ≤ x → c.screenAtX x = none := by
  let changes : List LayoutChange :=
    [.addScreen 1 "laptop" 50 40, .addScreen 2 "phone" 30 60, .removeScreen 1]
  have hwidths : ∀ first ∈ changes.inits,
      (first.foldl CoordinateSystem.apply (.new 100 80)).widthSum < 2 ^ 32 := by decide
  obtain ⟨hstanding, -, htotal, -, -, hbeyond⟩ := screens_tile 100 80 changes
    (fun first hfirst => hwidths first ((List.mem_inits _ _).mpr hfirst))
    changes (List.prefix_refl _)
  exact ⟨hstanding, htotal, hbeyond⟩

/-! ## Local and global coordinates -/

/-- The screen has the exact coordinate `x` on it. -/
def ScreenInfo.Contains (s : ScreenInfo) (x : ℚ) : Prop :=
  (s.offsetX.toNat : ℚ) ≤ x ∧ x < s.offsetX.toNat + s.width.toNat

/-- A coordinate that is not negative is on the screen that covers its pixel column. -/
theorem ScreenInfo.EdgeExact.covers_toU32 {s : ScreenInfo} (h : s.EdgeExact) {x : ℚ}
    (hx : 0 ≤ x) : s.Covers (toU32 x).toNat ↔ s.Contains x := by
  have hfloor : ⌊x⌋.toNat = ⌊x⌋₊ := rfl
  have hstart : s.offsetX.toNat ≤ ⌊x⌋₊ ↔ (s.offsetX.toNat : ℚ) ≤ x := Nat.le_floor_iff hx
  have hend : ⌊x⌋₊ < s.offsetX.toNat + s.width.toNat ↔
      x < s.offsetX.toNat + s.width.toNat := by
    rw [Nat.floor_lt hx, Nat.cast_add]
  rw [ScreenInfo.Contains, ← hstart, ← hend, ScreenInfo.Covers, Tiling.Covers, toNat_toU32, hfloor]
  rw [ScreenInfo.EdgeExact] at h
  omega

/-- Negative coordinates saturate to the first pixel column. -/
theorem toU32_of_neg {x : ℚ} (hx : x < 0) : toU32 x = 0 := by
  have hfloor : ⌊x⌋ < 0 := Int.floor_lt.mpr (by exact_mod_cast hx)
  have hzero : ⌊x⌋.toNat = 0 := by omega
  simp [toU32, hzero]

/-- Among screens with different ids, a screen is the one found by its id. -/
theorem find?_id {screens : List ScreenInfo} (hids : (screens.map ScreenInfo.id).Nodup)
    {s : ScreenInfo} (hs : s ∈ screens) : (screens.find? fun t => t.id == s.id) = some s := by
  obtain ⟨before, after, rfl⟩ := List.append_of_mem hs
  refine List.find?_eq_some_iff_append.mpr ⟨by simp, before, after, rfl, fun t ht => ?_⟩
  have hne : t.id ≠ s.id := by
    rw [List.map_append, List.nodup_append] at hids
    exact hids.2.2 t.id (List.mem_map_of_mem ht) s.id (by simp)
  simpa using hne

/-- The position of a point of a screen on the row of screens. -/
theorem localToGlobal_of_mem {c : CoordinateSystem} (hids : (c.screens.map ScreenInfo.id).Nodup)
    {s : ScreenInfo} (hs : s ∈ c.screens) (lx ly : ℚ) :
    c.localToGlobal s.id lx ly = (s.offsetX.toNat + lx, ly) := by
  rw [CoordinateSystem.localToGlobal, find?_id hids hs]

/-- What a global coordinate becomes: the offset of the screen found is taken away. -/
theorem globalToLocal_eq_some {c : CoordinateSystem} {gx gy lx ly : ℚ} {id : UInt8} :
    c.globalToLocal gx gy = some (id, lx, ly) ↔
      ∃ s, c.screenAtX gx = some s ∧ s.id = id ∧ gx - s.offsetX.toNat = lx ∧ gy = ly := by
  simp [CoordinateSystem.globalToLocal, Option.bind_eq_some_iff]

/-- A point of a screen is found again from its position on the row of screens. -/
theorem globalToLocal_localToGlobal {c : CoordinateSystem} (h : Laid 0 c.screens)
    (hsum : c.widthSum < 2 ^ 32) (hids : (c.screens.map ScreenInfo.id).Nodup) {s : ScreenInfo}
    (hs : s ∈ c.screens) {lx : ℚ} (y : ℚ) (hlow : 0 ≤ lx) (hhigh : lx < s.width.toNat) :
    c.globalToLocal (c.localToGlobal s.id lx y).1 (c.localToGlobal s.id lx y).2 =
      some (s.id, lx, y) := by
  rw [localToGlobal_of_mem hids hs]
  have hoffset : (0 : ℚ) ≤ s.offsetX.toNat := Nat.cast_nonneg _
  have hcontains : s.Contains (s.offsetX.toNat + lx) := ⟨by linarith, by linarith⟩
  have hcovers : s.Covers (toU32 (s.offsetX.toNat + lx)).toNat :=
    ((h.edgeExact hsum s hs).covers_toU32 (by linarith)).mpr hcontains
  refine globalToLocal_eq_some.mpr ⟨s, (screenAtX_eq_some h hsum).mpr ⟨hs, hcovers⟩, rfl, ?_, rfl⟩
  ring

/-- A local coordinate that a position is converted to is on its screen, and leads back. -/
def GoodConversion (c : CoordinateSystem) (gx gy : ℚ) : Prop :=
  ∀ id lx ly, c.globalToLocal gx gy = some (id, lx, ly) →
    ∃ s ∈ c.screens, s.id = id ∧ 0 ≤ lx ∧ lx < s.width.toNat ∧ c.localToGlobal id lx ly = (gx, gy)

/-- A position that is not negative is converted to a point of a screen. -/
theorem goodConversion_of_nonneg {c : CoordinateSystem} (h : Laid 0 c.screens)
    (hsum : c.widthSum < 2 ^ 32) (hids : (c.screens.map ScreenInfo.id).Nodup) {gx : ℚ} (gy : ℚ)
    (hx : 0 ≤ gx) : GoodConversion c gx gy := by
  intro id lx ly hconvert
  obtain ⟨s, hfind, rfl, rfl, rfl⟩ := globalToLocal_eq_some.mp hconvert
  obtain ⟨hs, hcovers⟩ := (screenAtX_eq_some h hsum).mp hfind
  obtain ⟨hlow, hhigh⟩ := ((h.edgeExact hsum s hs).covers_toU32 hx).mp hcovers
  refine ⟨s, hs, rfl, by linarith, by linarith, ?_⟩
  rw [localToGlobal_of_mem hids hs, add_sub_cancel]

/-- A negative position is taken for one on the first screen that has a width. -/
theorem not_goodConversion_of_neg {c : CoordinateSystem} (h : Laid 0 c.screens)
    (hsum : c.widthSum < 2 ^ 32) {gx : ℚ} (gy : ℚ) (hx : gx < 0) (hwidth : c.widthSum ≠ 0) :
    ¬ GoodConversion c gx gy := by
  intro hgood
  have hend : 0 < 0 + c.widthSum := by omega
  obtain ⟨before, s, after, hscreens, hcovers, -⟩ := h.exists_covers (Nat.le_refl 0) hend
  have hfind : c.screenAtX gx = some s :=
    (screenAtX_eq_some h hsum).mpr ⟨by simp [hscreens], by rw [toU32_of_neg hx]; exact hcovers⟩
  obtain ⟨-, -, -, hlow, -⟩ :=
    hgood s.id _ gy (globalToLocal_eq_some.mpr ⟨s, hfind, rfl, rfl, rfl⟩)
  have hoffset : (0 : ℚ) ≤ s.offsetX.toNat := Nat.cast_nonneg _
  linarith

/-- **Local and global coordinates.** In a layout with distinct ids whose widths sum up to a
`u32`, the points of the screens survive a conversion to the row of screens and back; and a
position `gx` is converted only to a point of a screen that leads back to it exactly when it is
not negative, unless all screens have width zero. -/
theorem conversions_iff (serverWidth serverHeight : UInt32) (changes : List LayoutChange)
    (hids : ((changes.foldl CoordinateSystem.apply (.new serverWidth serverHeight)).screens.map
      ScreenInfo.id).Nodup)
    (hsum : (changes.foldl CoordinateSystem.apply (.new serverWidth serverHeight)).widthSum <
      2 ^ 32) (gx gy : ℚ) :
    let c := changes.foldl CoordinateSystem.apply (.new serverWidth serverHeight)
    ((∀ s ∈ c.screens, ∀ lx y : ℚ, 0 ≤ lx → lx < s.width.toNat →
        c.globalToLocal (c.localToGlobal s.id lx y).1 (c.localToGlobal s.id lx y).2 =
          some (s.id, lx, y)) ∧
      (∀ id lx ly, c.globalToLocal gx gy = some (id, lx, ly) →
        ∃ s ∈ c.screens, s.id = id ∧ 0 ≤ lx ∧ lx < s.width.toNat ∧
          c.localToGlobal id lx ly = (gx, gy))) ↔
      0 ≤ gx ∨ c.widthSum = 0 := by
  intro c
  have hlaid : Laid 0 c.screens := CoordinateSystem.laid_run serverWidth serverHeight changes hsum
  constructor
  · rintro ⟨-, hgood⟩
    by_contra hcond
    obtain ⟨hx, hwidth⟩ := not_or.mp hcond
    exact not_goodConversion_of_neg hlaid hsum gy (not_le.mp hx) hwidth hgood
  · intro hcond
    refine ⟨fun s hs lx y => globalToLocal_localToGlobal hlaid hsum hids hs y, ?_⟩
    rcases hcond with hx | hwidth
    · exact goodConversion_of_nonneg hlaid hsum hids gy hx
    · -- without any width no position is on a screen
      intro id lx ly hconvert
      obtain ⟨s, hfind, -⟩ := globalToLocal_eq_some.mp hconvert
      rw [screenAtX_eq_none hlaid hsum (by omega)] at hfind
      cases hfind

/-- The conversion of the positions of a server's own screen. -/
theorem conversions_server_screen :
    let c := CoordinateSystem.new 100 80
    ((∀ s ∈ c.screens, ∀ lx y : ℚ, 0 ≤ lx → lx < s.width.toNat →
        c.globalToLocal (c.localToGlobal s.id lx y).1 (c.localToGlobal s.id lx y).2 =
          some (s.id, lx, y)) ∧
      (∀ id lx ly, c.globalToLocal 7 3 = some (id, lx, ly) →
        ∃ s ∈ c.screens, s.id = id ∧ 0 ≤ lx ∧ lx < s.width.toNat ∧
          c.localToGlobal id lx ly = (7, 3))) ↔
      0 ≤ (7 : ℚ) ∨ c.widthSum = 0 :=
  conversions_iff 100 80 [] (by decide) (by decide) 7 3

/-- A position left of all screens is converted to a negative coordinate of the server's screen. -/
theorem globalToLocal_negative :
    let c := ([] : List LayoutChange).foldl CoordinateSystem.apply (.new 100 80)
    (c.screens.map ScreenInfo.id).Nodup ∧ c.widthSum < 2 ^ 32 ∧
      c.globalToLocal (-5) 3 = some (0, -5, 3) ∧ ¬ (0 : ℚ) ≤ -5 := by
  refine ⟨by decide, by decide, ?_, by norm_num⟩
  exact globalToLocal_eq_some.mpr ⟨⟨0, "server", 100, 80, 0⟩, by
    rw [CoordinateSystem.screenAtX, toU32_of_neg (by norm_num)]; rfl, rfl, by norm_num, rfl⟩

end SuperShare
