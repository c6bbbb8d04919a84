import Mathlib.Data.List.Find
import Mathlib.Data.List.Nodup
import Mathlib.Logic.Function.Basic

/-!
# Lists of records as finite maps

A list of records with a key is read as a map from keys to records: a lookup finds the first
record with the key. Inserting replaces the first record with the key or appends a new one,
and removing deletes every record with the key, so that both are updates of the map at that
key, whether or not the list has a key twice.
-/

namespace KeyedList

variable {α κ : Type} [DecidableEq κ] {key : α → κ}

/-- The first record with a key. -/
def lookup (key : α → κ) (l : List α) (k : κ) : Option α :=
  l.find? fun a => key a = k

/-- Replace the first record that has the key of the new one, or append the new one. -/
def upsert (key : α → κ) (new : α) : List α → List α
  | [] => [new]
  | old :: rest => if key old = key new then new :: rest else old :: upsert key new rest

/-- Delete the records with a key. -/
def remove (key : α → κ) (k : κ) (l : List α) : List α :=
  l.filter fun a => key a ≠ k

/-- The first record decides whether the lookup goes on. -/
theorem lookup_cons (a : α) (l : List α) (k : κ) :
    lookup key (a :: l) k = if key a = k then some a else lookup key l k := by
  by_cases h : key a = k
  · simp [lookup, h]
  · simp [lookup, h]

/-- A lookup fails when no record has the key. -/
theorem lookup_eq_none {l : List α} {k : κ} : lookup key l k = none ↔ ∀ a ∈ l, key a ≠ k := by
  simp [lookup]

/-- Inserting is an update of the map at the key of the record. -/
theorem lookup_upsert (new : α) (l : List α) :
    lookup key (upsert key new l) = Function.update (lookup key l) (key new) (some new) := by
  funext k
  induction l with
  | nil =>
    by_cases hk : k = key new
    · subst hk
      simp [upsert, lookup]
    · simp [upsert, lookup, Function.update_of_ne hk, Ne.symm hk]
  | cons old rest ih =>
    rw [upsert]
    by_cases hold : key old = key new
    · rw [if_pos hold, lookup_cons]
      by_cases hk : k = key new
      · subst hk
        rw [if_pos rfl, Function.update_self]
      · rw [if_neg (Ne.symm hk), Function.update_of_ne hk, lookup_cons,
          if_neg (hold ▸ Ne.symm hk)]
    · rw [if_neg hold, lookup_cons, ih]
      by_cases hk : k = key new
      · subst hk
        rw [if_neg hold, Function.update_self, Function.update_self]
      · rw [Function.update_of_ne hk, Function.update_of_ne hk, lookup_cons]

/-- The inserted record is in the list. -/
theorem mem_upsert (new : α) (l : List α) : new ∈ upsert key new l := by
  induction l with
  | nil => exact List.mem_singleton_self new
  | cons old rest ih =>
    rw [upsert]
    split
    · exact List.mem_cons_self
    · exact List.mem_cons_of_mem old ih

/-- Inserting keeps the records with other keys. -/
theorem mem_upsert_of_ne {new a : α} {l : List α} (ha : a ∈ l) (hkey : key a ≠ key new) :
    a ∈ upsert key new l := by
  induction l with
  | nil => exact absurd ha List.not_mem_nil
  | cons old rest ih =>
    rw [upsert]
    split
    · rename_i hsame
      rcases List.mem_cons.mp ha with rfl | ha
      · exact absurd hsame hkey
      · exact List.mem_cons_of_mem new ha
    · rcases List.mem_cons.mp ha with rfl | ha
      · exact List.mem_cons_self
      · exact List.mem_cons_of_mem old (ih ha)

/-- Removing is an update of the map at the key. -/
theorem lookup_remove (k : κ) (l : List α) :
    lookup key (remove key k l) = Function.update (lookup key l) k none := by
  funext k'
  by_cases hk : k' = k
  · subst hk
    rw [Function.update_self, lookup_eq_none]
    intro a ha
    simpa using (List.mem_filter.mp ha).2
  · rw [Function.update_of_ne hk, lookup, lookup, remove, List.find?_filter]
    refine List.find?_congr fun a _ => ?_
    by_cases ha : key a = k'
    · simp [ha, hk]
    · simp [ha]

/-- A removal shortens the list exactly when there is a record with the key. -/
theorem length_remove_ne {k : κ} {l : List α} :
    (remove key k l).length ≠ l.length ↔ (lookup key l k).isSome = true := by
  rw [Ne, remove, List.length_filter_eq_length_iff, Option.isSome_iff_ne_none, Ne, lookup_eq_none]
  simp

/-- The keys after an insertion: those before it, and that of the record. -/
theorem mem_keys_upsert {new : α} {l : List α} {k : κ} (h : k ∈ (upsert key new l).map key) :
    k = key new ∨ k ∈ l.map key := by
  induction l with
  | nil => simpa [upsert] using h
  | cons old rest ih =>
    rw [upsert] at h
    split at h
    · rcases List.mem_cons.mp h with hk | hk
      · exact .inl hk
      · exact .inr (List.mem_cons_of_mem _ hk)
    · rcases List.mem_cons.mp h with hk | hk
      · exact .inr (hk ▸ List.mem_cons_self)
      · exact (ih hk).imp_right (List.mem_cons_of_mem _)

/-- Inserting makes no key appear twice. -/
theorem nodup_upsert {new : α} {l : List α} (h : (l.map key).Nodup) :
    ((upsert key new l).map key).Nodup := by
  induction l with
  | nil => simp [upsert]
  | cons old rest ih =>
    obtain ⟨hnotin, hrest⟩ := List.nodup_cons.mp h
    rw [upsert]
    split
    · next heq => exact List.nodup_cons.mpr ⟨heq ▸ hnotin, hrest⟩
    · next hne =>
      refine List.nodup_cons.mpr ⟨fun hmem => ?_, ih hrest⟩
      exact (mem_keys_upsert hmem).elim hne hnotin

/-- Removing makes no key appear twice. -/
theorem nodup_remove {k : κ} {l : List α} (h : (l.map key).Nodup) :
    ((remove key k l).map key).Nodup :=
  h.sublist (List.filter_sublist.map key)

end KeyedList
