import Mathlib.Algebra.BigOperators.Group.List.Basic
import Mathlib.Tactic.Linarith

/-!
# Tilings of a line

A list of pieces, each with a start and a length, tiles the line from a point on when each
piece starts where the pieces before it end. Pieces of length zero are allowed: they take no
place. Every point of a tiled stretch lies in exactly one piece.
-/

namespace Tiling

variable {α : Type} {start length : α → ℕ}

/-- The pieces tile the line from `lo` on, from left to right. -/
def Tiles (start length : α → ℕ) : ℕ → List α → Prop
  | _, [] => True
  | lo, a :: l => start a = lo ∧ Tiles start length (lo + length a) l

/-- The length of all pieces together. -/
def total (length : α → ℕ) (l : List α) : ℕ := (l.map length).sum

/-- The piece covers the point. -/
def Covers (start length : α → ℕ) (a : α) (x : ℕ) : Prop :=
  start a ≤ x ∧ x < start a + length a

/-- Whether a piece covers a point can be computed. -/
instance (start length : α → ℕ) (a : α) (x : ℕ) : Decidable (Covers start length a x) :=
  inferInstanceAs (Decidable (_ ∧ _))

/-- The length of a first piece and the others. -/
@[simp]
theorem total_cons (a : α) (l : List α) : total length (a :: l) = length a + total length l := by
  simp [total]

/-- No pieces have no length. -/
@[simp]
theorem total_nil : total length ([] : List α) = 0 := rfl

/-- The length of two stretches. -/
@[simp]
theorem total_append (l₁ l₂ : List α) :
    total length (l₁ ++ l₂) = total length l₁ + total length l₂ := by
  simp [total]

/-- Two stretches tile the line together when the second starts where the first ends. -/
theorem tiles_append {lo : ℕ} {l₁ l₂ : List α} :
    Tiles start length lo (l₁ ++ l₂) ↔
      Tiles start length lo l₁ ∧ Tiles start length (lo + total length l₁) l₂ := by
  induction l₁ generalizing lo with
  | nil => simp [Tiles]
  | cons a l₁ ih => simp [Tiles, ih, and_assoc, Nat.add_assoc]

/-- In a tiling, a piece starts at the length of the pieces before it. -/
theorem Tiles.start_eq {lo : ℕ} {before after : List α} {a : α}
    (h : Tiles start length lo (before ++ a :: after)) :
    start a = lo + total length before := (tiles_append.mp h).2.1

/-- The pieces of a tiling lie between its ends. -/
theorem Tiles.bounds {lo : ℕ} {l : List α} (h : Tiles start length lo l) {a : α} (ha : a ∈ l) :
    lo ≤ start a ∧ start a + length a ≤ lo + total length l := by
  obtain ⟨before, after, rfl⟩ := List.append_of_mem ha
  have hstart : start a = lo + total length before := h.start_eq
  simp only [total_append, total_cons]
  omega

/-- The last piece of a tiling, if there is one, ends where the tiling does. -/
theorem Tiles.exists_end {lo : ℕ} {l : List α} (h : Tiles start length lo l) (hl : l ≠ []) :
    ∃ a ∈ l, start a + length a = lo + total length l := by
  obtain ⟨before, a, rfl⟩ := (List.eq_nil_or_concat' l).resolve_left hl
  have hstart : start a = lo + total length before := h.start_eq
  refine ⟨a, by simp, ?_⟩
  simp only [total_append, total_cons, total_nil]
  omega

/-- A point that one piece of a tiling covers is covered by no other. -/
theorem Tiles.not_covers {lo x : ℕ} {before after : List α} {a : α}
    (h : Tiles start length lo (before ++ a :: after)) (ha : Covers start length a x) :
    ∀ b ∈ before ++ after, ¬ Covers start length b x := by
  obtain ⟨hbefore, hstart, hafter⟩ := tiles_append.mp h
  obtain ⟨hlow, hhigh⟩ := ha
  intro b hb
  rcases List.mem_append.mp hb with hb | hb
  · have hend : start b + length b ≤ lo + total length before := (hbefore.bounds hb).2
    rintro ⟨-, hcovers⟩
    omega
  · have hbegin : lo + total length before + length a ≤ start b := (hafter.bounds hb).1
    rintro ⟨hcovers, -⟩
    omega

/-- **Tilings.** Every point of a tiled stretch is covered by one piece and by no other. -/
theorem Tiles.exists_covers {lo x : ℕ} {l : List α} (h : Tiles start length lo l) (hlow : lo ≤ x)
    (hhigh : x < lo + total length l) :
    ∃ before a after, l = before ++ a :: after ∧ Covers start length a x ∧
      ∀ b ∈ before ++ after, ¬ Covers start length b x := by
  have hsome : ∃ a ∈ l, Covers start length a x := by
    induction l generalizing lo with
    | nil => simp at hhigh; omega
    | cons a l ih =>
      obtain ⟨hstart, hrest⟩ := h
      by_cases hx : x < lo + length a
      · exact ⟨a, by simp, by omega, by omega⟩
      · obtain ⟨b, hb, hcovers⟩ := ih hrest (by omega) (by simp at hhigh; omega)
        exact ⟨b, List.mem_cons_of_mem _ hb, hcovers⟩
  obtain ⟨a, ha, hcovers⟩ := hsome
  obtain ⟨before, after, rfl⟩ := List.append_of_mem ha
  exact ⟨before, a, after, rfl, hcovers, h.not_covers hcovers⟩

/-- No piece of a tiling covers a point beyond its end. -/
theorem Tiles.not_covers_of_le {lo x : ℕ} {l : List α} (h : Tiles start length lo l)
    (hx : lo + total length l ≤ x) : ∀ a ∈ l, ¬ Covers start length a x := by
  rintro a ha ⟨-, hcovers⟩
  have hend : start a + length a ≤ lo + total length l := (h.bounds ha).2
  omega

/-- The first piece that covers a point is the piece of a tiling that covers it. -/
theorem Tiles.find?_eq_some {lo x : ℕ} {l : List α} (h : Tiles start length lo l) {a : α} :
    l.find? (fun b => decide (Covers start length b x)) = some a ↔
      a ∈ l ∧ Covers start length a x := by
  constructor
  · intro hfind
    exact ⟨List.mem_of_find?_eq_some hfind, by simpa using List.find?_some hfind⟩
  · rintro ⟨ha, hcovers⟩
    obtain ⟨before, after, rfl⟩ := List.append_of_mem ha
    refine List.find?_eq_some_iff_append.mpr ⟨by simpa using hcovers, before, after, rfl, ?_⟩
    intro b hb
    have hnot := h.not_covers hcovers b (List.mem_append_left _ hb)
    simpa using hnot

end Tiling
