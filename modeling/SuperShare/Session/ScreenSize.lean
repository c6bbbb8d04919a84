import SuperShare.Lib.Text

/-!
# The screen size from xrandr

`detect_screen_size` looks in the output of `xrandr --query` for a line of a connected primary
screen, or of a connected screen at the origin, and then for a size at the origin on this line. If
there is none, it takes the first size on a line of a current mode. This file says what that comes
to for any output. In particular it never matters which screen is the primary one.
-/

namespace SuperShare

open Text

/-- The line has a text. -/
def contains (line : List Char) (text : String) : Bool := decide (text.toList <:+: line)

/-- Parse a size, as in `1920x1080`. -/
def parseSize (text : List Char) : Option (ℕ × ℕ) :=
  match text.splitOn 'x' with
  | [width, height] => do
      let w ← parseUnsigned 32 width
      let h ← parseUnsigned 32 height
      return (w, h)
  | _ => none

/-- Parse a size at the origin, as in `1920x1080+0+0`. -/
def sizeAtOrigin (part : List Char) : Option (ℕ × ℕ) :=
  (stripSuffix "+0+0".toList part).bind parseSize

/-- The size on a line of a connected screen. -/
def connectedSize (line : List Char) : Option (ℕ × ℕ) :=
  if contains line "connected primary" || (contains line "connected" && contains line "+0+0") then
    (words line).findSome? sizeAtOrigin
  else none

/-- The size on a line of a current mode. -/
def currentSize (line : List Char) : Option (ℕ × ℕ) :=
  if line.contains '*' then (words line).findSome? parseSize else none

/-- Detect the primary screen resolution from the output of xrandr, if it ran. -/
def detectScreenSize (stdout : Option String) : ℕ × ℕ :=
  match stdout with
  | some stdout =>
      match (lines stdout.toList).findSome? connectedSize with
      | some size => size
      | none => ((lines stdout.toList).findSome? currentSize).getD (1920, 1080)
  | none => (1920, 1080)

/-- A line has a text that is in a part of it. -/
theorem contains_of_infix {line part : List Char} {text : String} (hpart : part <:+: line)
    (htext : text.toList <:+: part) : contains line text = true :=
  decide_eq_true (htext.trans hpart)

/-- A line with a size at the origin has this position. -/
theorem contains_of_sizeAtOrigin {line part : List Char} (hpart : part ∈ words line)
    (hsize : sizeAtOrigin part ≠ none) : contains line "+0+0" = true := by
  have hsuffix : "+0+0".toList <:+ part := by
    by_contra hnot
    exact hsize (by simp only [sizeAtOrigin, stripSuffix, if_neg hnot, Option.bind_none])
  exact contains_of_infix (infix_of_mem_words hpart) hsuffix.isInfix

/-- The tests for a primary screen and for the position are of no effect. -/
theorem connectedSize_eq (line : List Char) :
    connectedSize line =
      if contains line "connected" then (words line).findSome? sizeAtOrigin else none := by
  have hprimary : contains line "connected primary" = true → contains line "connected" = true :=
    fun h => contains_of_infix (of_decide_eq_true h) (by decide)
  by_cases hsize : (words line).findSome? sizeAtOrigin = none
  · simp [connectedSize, hsize]
  · obtain ⟨part, hpart, hsome⟩ : ∃ part ∈ words line, sizeAtOrigin part ≠ none := by
      simpa [List.findSome?_eq_none_iff] using hsize
    have horigin := contains_of_sizeAtOrigin hpart hsome
    cases hconnected : contains line "connected" with
    | true => simp [connectedSize, hconnected, horigin]
    | false =>
      have hnot : contains line "connected primary" = false :=
        Bool.eq_false_iff.mpr fun h => absurd (hprimary h) (by simp [hconnected])
      simp [connectedSize, hconnected, hnot]

/-- The mark of the primary screen is one more word. -/
theorem words_primary (before after : List Char) :
    words (before ++ "connected primary ".toList ++ after) =
        words (before ++ "connected".toList) ++ "primary".toList :: words after ∧
      words (before ++ "connected ".toList ++ after) =
        words (before ++ "connected".toList) ++ words after := by
  have hspace : isWhitespace ' ' = true := by decide
  have hprimary : words "primary".toList = ["primary".toList] :=
    words_of_any (by decide) (by decide)
  have hsplit : before ++ "connected primary ".toList ++ after =
      before ++ "connected".toList ++ ' ' :: ("primary".toList ++ ' ' :: after) := by simp
  have hsplit' : before ++ "connected ".toList ++ after =
      before ++ "connected".toList ++ ' ' :: after := by simp
  rw [hsplit, hsplit', words_append hspace, words_append hspace, words_append hspace, hprimary]
  exact ⟨rfl, rfl⟩

/-- A function that finds nothing in the mark finds the same in the words of both lines. -/
theorem findSome?_primary {f : List Char → Option (ℕ × ℕ)} (hf : f "primary".toList = none)
    (before after : List Char) :
    (words (before ++ "connected primary ".toList ++ after)).findSome? f =
      (words (before ++ "connected ".toList ++ after)).findSome? f := by
  obtain ⟨hprimary, hconnected⟩ := words_primary before after
  rw [hprimary, hconnected, List.findSome?_append, List.findSome?_append, List.findSome?_cons, hf]

/-- On a line of a connected screen, the mark of the primary one is of no effect. -/
theorem connectedSize_primary (before after : List Char) :
    connectedSize (before ++ "connected primary ".toList ++ after) =
      connectedSize (before ++ "connected ".toList ++ after) := by
  have hmiddle : ∀ piece : String, "connected".toList <:+: piece.toList →
      contains (before ++ piece.toList ++ after) "connected" = true := fun piece =>
    contains_of_infix ⟨before, after, rfl⟩
  rw [connectedSize_eq, connectedSize_eq, hmiddle "connected primary " (by decide),
    hmiddle "connected " (by decide), findSome?_primary (by decide)]

/-- The mark of the primary screen is not a size. -/
theorem currentSize_primary (before after : List Char) :
    currentSize (before ++ "connected primary ".toList ++ after) =
      currentSize (before ++ "connected ".toList ++ after) := by
  have hstar : (before ++ "connected primary ".toList ++ after).contains '*' =
      (before ++ "connected ".toList ++ after).contains '*' := by simp
  rw [currentSize, currentSize, hstar, findSome?_primary (by decide)]

/-- **The primary screen does not matter.** Whatever xrandr prints, the detected size is the same
when a connected screen is not marked as the primary one. -/
theorem detectScreenSize_primary (before after : String) :
    detectScreenSize (some (before ++ "connected primary " ++ after)) =
      detectScreenSize (some (before ++ "connected " ++ after)) := by
  obtain ⟨firsts, x, y, rests, hlines⟩ := lines_around before.toList after.toList
  have hprimary := hlines "connected primary ".toList (by decide) (by decide) (by decide)
  have hconnected := hlines "connected ".toList (by decide) (by decide) (by decide)
  have hsame : ∀ {f : List Char → Option (ℕ × ℕ)},
      f (x ++ "connected primary ".toList ++ y) = f (x ++ "connected ".toList ++ y) →
        (firsts ++ (x ++ "connected primary ".toList ++ y) :: rests).findSome? f =
          (firsts ++ (x ++ "connected ".toList ++ y) :: rests).findSome? f := by
    intro f hline
    rw [List.findSome?_append, List.findSome?_append, List.findSome?_cons, List.findSome?_cons,
      hline]
  simp only [detectScreenSize, String.toList_append, hprimary, hconnected,
    hsame (connectedSize_primary x y), hsame (currentSize_primary x y)]

/-- The primary screen is to the right of another one, whose size is detected. -/
example : detectScreenSize (some ("eDP-1 connected 1366x768+0+0 (normal left)\n" ++
    "HDMI-1 connected primary 2560x1440+1366+0 (normal left)\n")) = (1366, 768) := by
  decide +kernel

end SuperShare
