import Mathlib.Data.List.Sort
import Mathlib.Data.Nat.Notation
import Mathlib.Tactic.Ring

/-!
# Cutting a list into numbered pieces

A list is cut into pieces of one size, the last of which may be shorter. Pieces that carry
their number can arrive in any order: a stable sort by the number puts them back, and their
concatenation is the list. The stable sort of a list is the one list in order in which the
elements of each key are those of the list, as they came.
-/

namespace Chunks

variable {α κ : Type}

/-- How many pieces of a size a length takes. -/
def count (size length : ℕ) : ℕ := (length + size - 1) / size

/-- The pieces of a list, in order. -/
def chunks (size : ℕ) (l : List α) : List (List α) :=
  (List.range (count size l.length)).map fun k => (l.drop (k * size)).take size

/-- The stable sort by a key. -/
def sortByKey [LE κ] [DecidableLE κ] (key : α → κ) (l : List α) : List α :=
  l.insertionSort fun a b => key a ≤ key b

/-- The first pieces are an initial part of the list. -/
theorem flatten_map_range (size : ℕ) (l : List α) (n : ℕ) :
    ((List.range n).map fun k => (l.drop (k * size)).take size).flatten = l.take (n * size) := by
  induction n with
  | zero => simp
  | succ n ih =>
    have hlength : (n + 1) * size = n * size + size := by ring
    rw [List.range_succ, List.map_append, List.flatten_append, ih, hlength, List.take_add]
    simp

/-- As many pieces as are counted cover the length. -/
theorem length_le_count_mul {size : ℕ} (hsize : 0 < size) (length : ℕ) :
    length ≤ count size length * size := by
  have hmod := Nat.mod_add_div (length + size - 1) size
  have hlt := Nat.mod_lt (length + size - 1) hsize
  rw [count, Nat.mul_comm]
  omega

/-- One piece fewer does not cover it. -/
theorem count_le {size length bound : ℕ} (hsize : 0 < size) (h : length ≤ bound * size) :
    count size length ≤ bound := by
  rw [count, Nat.div_le_iff_le_mul_add_pred hsize, Nat.mul_comm]
  omega

/-- The pieces of a list make it up. -/
@[simp] theorem flatten_chunks {size : ℕ} (hsize : 0 < size) (l : List α) :
    (chunks size l).flatten = l := by
  rw [chunks, flatten_map_range]
  exact List.take_of_length_le (length_le_count_mul hsize l.length)

/-- There are as many pieces as are counted. -/
@[simp] theorem length_chunks (size : ℕ) (l : List α) :
    (chunks size l).length = count size l.length := by
  simp [chunks]

/-- No piece is longer than the size. -/
theorem length_le_of_mem_chunks {size : ℕ} {l piece : List α} (h : piece ∈ chunks size l) :
    piece.length ≤ size := by
  obtain ⟨k, -, rfl⟩ := List.mem_map.mp h
  rw [List.length_take]
  exact Nat.min_le_left ..

/-- Elements with increasing keys are put in order, however they come. -/
theorem sortByKey_of_perm [LinearOrder κ] {key : α → κ} {l arrived : List α}
    (hperm : arrived.Perm l) (hkeys : l.Pairwise fun a b => key a < key b) :
    sortByKey key arrived = l := by
  have : Std.Total fun a b : α => key a ≤ key b := ⟨fun a b => le_total (key a) (key b)⟩
  have : IsTrans α fun a b => key a ≤ key b := ⟨fun _ _ _ => le_trans⟩
  have hsorted : (sortByKey key arrived).Pairwise fun a b => key a ≤ key b :=
    List.pairwise_insertionSort _ arrived
  have hl : l.Pairwise fun a b => key a ≤ key b := hkeys.imp fun h => le_of_lt h
  have hsame : (sortByKey key arrived).Perm l := (List.perm_insertionSort _ arrived).trans hperm
  have hnodup : (l.map key).Nodup := List.pairwise_map.mpr (hkeys.imp fun h => ne_of_lt h)
  refine hsame.eq_of_pairwise ?_ hsorted hl
  intro a b ha hb hab hba
  exact List.inj_on_of_nodup_map hnodup (hsame.mem_iff.mp ha) hb (le_antisymm hab hba)

section Stable

variable [LinearOrder κ] {key : α → κ} {l sorted : List α}

/-- A list is in the order of a key, and has with each key the elements of another list, as they
come there. -/
structure IsStableSort (key : α → κ) (l sorted : List α) : Prop where
  ordered : sorted.Pairwise fun a b => key a ≤ key b
  stable : ∀ k, sorted.filter (fun a => key a = k) = l.filter fun a => key a = k

/-- Sorting by insertion is stable. -/
theorem isStableSort_sortByKey (key : α → κ) (l : List α) :
    IsStableSort key l (sortByKey key l) := by
  have : Std.Total fun a b : α => key a ≤ key b := ⟨fun a b => le_total (key a) (key b)⟩
  have : IsTrans α fun a b => key a ≤ key b := ⟨fun _ _ _ => le_trans⟩
  refine ⟨List.pairwise_insertionSort _ l, fun k => ?_⟩
  -- The elements of one key are in order already, so they stay a sublist.
  have hkeys : (l.filter fun a => key a = k).Pairwise fun a b => key a ≤ key b := by
    refine List.pairwise_of_forall_mem_list fun a ha b hb => ?_
    have hka := of_decide_eq_true (List.mem_filter.mp ha).2
    have hkb := of_decide_eq_true (List.mem_filter.mp hb).2
    exact (hka.trans hkb.symm).le
  have hsublist : (l.filter fun a => key a = k).Sublist (sortByKey key l) :=
    List.sublist_insertionSort hkeys List.filter_sublist
  have hfilter := hsublist.filter fun a => decide (key a = k)
  rw [List.filter_filter] at hfilter
  have hperm := (List.perm_insertionSort (fun a b => key a ≤ key b) l).filter
    fun a => decide (key a = k)
  simp only [Bool.and_self] at hfilter
  exact (hfilter.eq_of_length hperm.length_eq.symm).symm

/-- Lists with the same elements of each key have the same elements. -/
theorem mem_iff_of_filter_eq {s t : List α}
    (h : ∀ k, s.filter (fun a => key a = k) = t.filter fun a => key a = k) (a : α) :
    a ∈ s ↔ a ∈ t := by
  have hkey := congrArg (a ∈ ·) (h (key a))
  simpa using hkey

/-- Ordered lists with the same elements of each key, in the same order, are the same. -/
theorem eq_of_filter_eq {s t : List α} (hs : s.Pairwise fun a b => key a ≤ key b)
    (ht : t.Pairwise fun a b => key a ≤ key b)
    (h : ∀ k, s.filter (fun a => key a = k) = t.filter fun a => key a = k) : s = t := by
  induction s generalizing t with
  | nil =>
    refine (List.eq_nil_iff_forall_not_mem.mpr fun a ha => ?_).symm
    exact List.not_mem_nil ((mem_iff_of_filter_eq h a).mpr ha)
  | cons a s ih =>
    have hmem := mem_iff_of_filter_eq h
    cases t with
    | nil => simpa using (hmem a).mp List.mem_cons_self
    | cons b t =>
      obtain ⟨hmin, hsrest⟩ := List.pairwise_cons.mp hs
      obtain ⟨hmin', htrest⟩ := List.pairwise_cons.mp ht
      -- Both heads have the least key, and are the first with it.
      have hle : key a ≤ key b := by
        rcases List.mem_cons.mp ((hmem b).mpr List.mem_cons_self) with rfl | hb
        · exact le_rfl
        · exact hmin b hb
      have hge : key b ≤ key a := by
        rcases List.mem_cons.mp ((hmem a).mp List.mem_cons_self) with rfl | ha
        · exact le_rfl
        · exact hmin' a ha
      have hkey : key b = key a := le_antisymm hge hle
      have hfirst := h (key a)
      simp only [List.filter_cons, hkey, decide_true, if_true, List.cons.injEq] at hfirst
      obtain ⟨rfl, -⟩ := hfirst
      have htail : ∀ k, s.filter (fun c => key c = k) = t.filter fun c => key c = k := by
        intro k
        have hk := h k
        simp only [List.filter_cons] at hk
        split at hk
        · exact (List.cons.inj hk).2
        · exact hk
      rw [ih hsrest htrest htail]

/-- The stable sort of a list is the one that sorting by insertion gives. -/
theorem isStableSort_iff : IsStableSort key l sorted ↔ sorted = sortByKey key l := by
  have hinsertion := isStableSort_sortByKey key l
  constructor
  · intro h
    exact eq_of_filter_eq h.ordered hinsertion.ordered fun k =>
      (h.stable k).trans (hinsertion.stable k).symm
  · rintro rfl
    exact hinsertion

end Stable

end Chunks
