import Mathlib.Data.Set.Defs
import Mathlib.Logic.Pairwise
import Mathlib.Logic.Function.Basic

/-!
# Writing the files of a directory

A directory gives the contents of files by their names. A program writes whole files, one after
the other, and one that is killed has done an initial part of its writes. Several owners may
write in one directory, each the files of its own footprint. When the footprints are disjoint,
every owner reads back what it has written last.
-/

namespace Directory

variable {ω ν π : Type} [DecidableEq ν]

/-- Write files, one after the other. -/
def writeAll (files : ν → Option π) (writes : List (ν × π)) : ν → Option π :=
  writes.foldl (fun files w => Function.update files w.1 (some w.2)) files

@[simp] theorem writeAll_nil (files : ν → Option π) : writeAll files [] = files := rfl

@[simp] theorem writeAll_cons (files : ν → Option π) (w : ν × π) (writes : List (ν × π)) :
    writeAll files (w :: writes) = writeAll (Function.update files w.1 (some w.2)) writes := rfl

/-- A file that is not written keeps its contents. -/
theorem writeAll_of_notMem {files : ν → Option π} {writes : List (ν × π)} {name : ν}
    (h : name ∉ writes.map Prod.fst) : writeAll files writes name = files name := by
  induction writes generalizing files with
  | nil => rfl
  | cons w writes ih =>
    obtain ⟨hne, hrest⟩ := not_or.mp (mt List.mem_cons.mpr h)
    rw [writeAll_cons, ih hrest, Function.update_of_ne hne]

/-- A file that is written has contents that do not depend on those before. -/
theorem writeAll_congr {files others : ν → Option π} {writes : List (ν × π)} {name : ν}
    (h : name ∈ writes.map Prod.fst) :
    writeAll files writes name = writeAll others writes name := by
  induction writes generalizing files others with
  | nil => cases h
  | cons w writes ih =>
    rw [writeAll_cons, writeAll_cons]
    by_cases hrest : name ∈ writes.map Prod.fst
    · exact ih hrest
    · obtain rfl : name = w.1 := (List.mem_cons.mp h).resolve_right hrest
      rw [writeAll_of_notMem hrest, writeAll_of_notMem hrest, Function.update_self,
        Function.update_self]

/-- A file that is written exists. -/
theorem exists_writeAll {writes : List (ν × π)} {name : ν} (h : name ∈ writes.map Prod.fst)
    (files : ν → Option π) : ∃ contents, writeAll files writes name = some contents := by
  induction writes generalizing files with
  | nil => cases h
  | cons w writes ih =>
    by_cases hrest : name ∈ writes.map Prod.fst
    · exact ih hrest _
    · obtain rfl : name = w.1 := (List.mem_cons.mp h).resolve_right hrest
      exact ⟨w.2, by rw [writeAll_cons, writeAll_of_notMem hrest, Function.update_self]⟩

/-- A file is written or keeps its contents: what it holds afterwards is one of the two. -/
theorem writeAll_ne_none {files : ν → Option π} {writes : List (ν × π)} {name : ν}
    (h : writeAll files writes name ≠ none) :
    name ∈ writes.map Prod.fst ∨ files name ≠ none := by
  by_cases hmem : name ∈ writes.map Prod.fst
  · exact .inl hmem
  · rw [writeAll_of_notMem hmem] at h
    exact .inr h

/-- A directory in which several owners write, and what each has written last in each file. -/
structure Shared (ω ν π : Type) where
  files : ν → Option π
  written : ω → ν → Option π

namespace Shared

/-- A directory before its owners write. -/
def start (files : ν → Option π) : Shared ω ν π := ⟨files, fun _ _ => none⟩

/-- Each owner has written in its footprint, and what it has written last is there. -/
structure Intact (footprint : ω → Set ν) (s : Shared ω ν π) : Prop where
  within : ∀ owner name, s.written owner name ≠ none → name ∈ footprint owner
  readsBack : ∀ owner name contents, s.written owner name = some contents →
    s.files name = some contents

omit [DecidableEq ν] in
/-- Nothing is written at the start. -/
theorem intact_start (footprint : ω → Set ν) (files : ν → Option π) :
    (start files : Shared ω ν π).Intact footprint :=
  ⟨fun _ _ h => absurd rfl h, fun _ _ _ h => nomatch h⟩

variable [DecidableEq ω]

/-- An owner writes files. -/
def write (s : Shared ω ν π) (owner : ω) (writes : List (ν × π)) : Shared ω ν π where
  files := writeAll s.files writes
  written := Function.update s.written owner (writeAll (s.written owner) writes)

/-- With disjoint footprints, a write in the footprint of its owner leaves the others alone. -/
theorem Intact.write {footprint : ω → Set ν} {s : Shared ω ν π} (h : s.Intact footprint)
    (hdisjoint : Pairwise fun o o' => ∀ name ∈ footprint o, name ∉ footprint o') {owner : ω}
    {writes : List (ν × π)} (hwrites : ∀ name ∈ writes.map Prod.fst, name ∈ footprint owner) :
    (s.write owner writes).Intact footprint := by
  constructor
  · intro o name hwritten
    by_cases ho : o = owner
    · subst ho
      simp only [Shared.write, Function.update_self] at hwritten
      exact (writeAll_ne_none hwritten).elim (hwrites name) (h.within o name)
    · simp only [Shared.write, Function.update_of_ne ho] at hwritten
      exact h.within o name hwritten
  · intro o name contents hwritten
    by_cases ho : o = owner
    · subst ho
      simp only [Shared.write, Function.update_self] at hwritten ⊢
      by_cases hmem : name ∈ writes.map Prod.fst
      · rw [writeAll_congr hmem, hwritten]
      · rw [writeAll_of_notMem hmem] at hwritten ⊢
        exact h.readsBack o name contents hwritten
    · -- The file belongs to another owner and is not written.
      simp only [Shared.write, Function.update_of_ne ho] at hwritten ⊢
      have hown : name ∈ footprint o := h.within o name (by simp [hwritten])
      have hmem : name ∉ writes.map Prod.fst := fun hmem =>
        hdisjoint ho name hown (hwrites name hmem)
      rw [writeAll_of_notMem hmem]
      exact h.readsBack o name contents hwritten

end Shared

end Directory
