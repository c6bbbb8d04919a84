import Mathlib.Data.List.Destutter

/-!
# Change detection by a key

A detector goes through a list and reports an element when its key differs from the key that it
has reported last. It reports the list without repetitions of adjacent elements exactly when
adjacent elements with the same key are the same.
-/

namespace Changes

variable {α κ : Type} [DecidableEq κ] {key : α → κ}

/-- The elements that are reported, from the key reported last on. -/
def detect (key : α → κ) : Option κ → List α → List α
  | _, [] => []
  | last, a :: l =>
      if last = some (key a) then detect key last l else a :: detect key (some (key a)) l

/-- After an element the detector goes on with its key. -/
theorem cons_detect (a : α) (l : List α) :
    a :: detect key (some (key a)) l = l.destutter' (fun b c => key b ≠ key c) a := by
  induction l generalizing a with
  | nil => rfl
  | cons b l ih =>
    rw [detect, List.destutter'_cons]
    by_cases h : key a = key b
    · rw [if_pos (congrArg some h), if_neg (not_not.mpr h), ih]
    · rw [if_neg (fun hsome => h (Option.some.inj hsome)), if_pos h, ih]

/-- The detector leaves out the elements with the key of those before them. -/
theorem detect_none (l : List α) :
    detect key none l = l.destutter (fun b c => key b ≠ key c) := by
  cases l with
  | nil => rfl
  | cons a l => exact cons_detect a l

variable [DecidableEq α]

/-- The adjacent elements with the same key are the same. -/
def Separates (key : α → κ) (l : List α) : Prop :=
  l.IsChain fun b c => key b = key c → b = c

instance (key : α → κ) (l : List α) : Decidable (Separates key l) :=
  inferInstanceAs (Decidable (l.IsChain _))

/-- Where the key separates adjacent elements, it tells the same repetitions. -/
theorem destutter'_of_separates {a : α} {l : List α} (h : Separates key (a :: l)) :
    l.destutter' (fun b c => key b ≠ key c) a = l.destutter' (· ≠ ·) a := by
  induction l generalizing a with
  | nil => rfl
  | cons b l ih =>
    obtain ⟨hab, hrest⟩ := List.isChain_cons_cons.mp h
    rw [List.destutter'_cons, List.destutter'_cons]
    by_cases hkey : key a = key b
    · obtain rfl := hab hkey
      rw [if_neg (not_not.mpr rfl), if_neg (not_not.mpr rfl), ih hrest]
    · rw [if_pos hkey, if_pos (fun heq => hkey (congrArg key heq)), ih hrest]

/-- A detector by a key reports no more elements than there are without repetitions, and as many
only where the key separates adjacent elements. It may have reported another element with the
same key last. -/
theorem length_destutter'_le {a a' : α} (ha : key a' = key a) (l : List α) :
    (l.destutter' (fun b c => key b ≠ key c) a').length ≤ (l.destutter' (· ≠ ·) a).length ∧
      ((l.destutter' (fun b c => key b ≠ key c) a').length = (l.destutter' (· ≠ ·) a).length →
        Separates key (a :: l)) := by
  induction l generalizing a a' with
  | nil => exact ⟨Nat.le_refl 1, fun _ => List.isChain_singleton a⟩
  | cons b l ih =>
    rw [List.destutter'_cons, List.destutter'_cons, ha]
    by_cases hkey : key a = key b
    · rw [if_neg (not_not.mpr hkey)]
      obtain ⟨hle, hchain⟩ := ih (ha.trans hkey)
      by_cases hab : a = b
      · subst hab
        rw [if_neg (not_not.mpr rfl)]
        exact ⟨hle, fun h => List.isChain_cons_cons.mpr ⟨fun _ => rfl, hchain h⟩⟩
      · -- the change from `a` to `b` is not reported
        rw [if_pos hab, List.length_cons]
        exact ⟨Nat.le_succ_of_le hle, fun h => by omega⟩
    · obtain ⟨hle, hchain⟩ := ih (rfl : key b = key b)
      rw [if_pos hkey, if_pos (fun heq => hkey (congrArg key heq)), List.length_cons,
        List.length_cons]
      refine ⟨Nat.succ_le_succ hle, fun h => List.isChain_cons_cons.mpr ⟨?_, ?_⟩⟩
      · exact fun hsame => absurd hsame hkey
      · exact hchain (Nat.succ.inj h)

/-- **Change detection.** A detector by a key reports a list without adjacent repetitions exactly
when the key separates its adjacent elements. -/
theorem detect_eq_destutter_iff (l : List α) :
    detect key none l = l.destutter (· ≠ ·) ↔ Separates key l := by
  rw [detect_none]
  cases l with
  | nil => exact ⟨fun _ => List.isChain_nil, fun _ => rfl⟩
  | cons a l =>
    constructor
    · exact fun h => (length_destutter'_le rfl l).2 (congrArg List.length h)
    · exact fun h => destutter'_of_separates h

end Changes
