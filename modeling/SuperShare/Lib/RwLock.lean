import Mathlib.Data.List.Nodup
import Mathlib.Logic.Function.Basic

/-!
# A fair read-write lock

Any number of readers hold the lock, or one writer. Tasks that ask for it wait in a queue, and
only the one at the head is let in, so that a waiting writer holds up the readers behind it.
`Serves` ties a lock to a system of tasks: who waits and who holds is then a function of what the
tasks do.
-/

/-- What a task asks a lock for. -/
inductive Access where
  | read | write
  deriving DecidableEq, Repr

/-- A read-write lock with its holders and the queue of those who wait. -/
structure RwLock (τ : Type) where
  readers : List τ
  writer : Option τ
  waiting : List (τ × Access)
  exclusive : writer = none ∨ readers = []

namespace RwLock

variable {τ : Type}

/-- The lock before anybody asks. -/
def free : RwLock τ := ⟨[], none, [], .inl rfl⟩

/-- A task asks for the lock. -/
def request (l : RwLock τ) (t : τ) (a : Access) : RwLock τ :=
  { l with waiting := l.waiting ++ [(t, a)] }

/-- The task at the head of the queue, if it can be let in, with the lock that it then holds. -/
def grant (l : RwLock τ) : Option ((τ × Access) × RwLock τ) :=
  match l.writer, l.waiting with
  | none, (t, .read) :: waiting => some ((t, .read), ⟨t :: l.readers, none, waiting, .inl rfl⟩)
  | none, (t, .write) :: waiting =>
      if l.readers = [] then some ((t, .write), ⟨[], some t, waiting, .inr rfl⟩) else none
  | _, _ => none

/-- A task gives the lock up. -/
def release [DecidableEq τ] (l : RwLock τ) (t : τ) : RwLock τ where
  readers := l.readers.filter (· ≠ t)
  writer := l.writer.filter (· ≠ t)
  waiting := l.waiting
  exclusive := by
    rcases l.exclusive with hwriter | hreaders
    · left
      rw [hwriter]
      rfl
    · right
      rw [hreaders]
      rfl

/-- A grant takes the head of the queue, when no writer holds the lock. It lets a reader in beside
other readers, and a writer alone. -/
theorem grant_cases {l l' : RwLock τ} {t : τ} {a : Access} (h : l.grant = some ((t, a), l')) :
    l.waiting = (t, a) :: l'.waiting ∧ l.writer = none ∧
      ((a = .read ∧ l'.readers = t :: l.readers ∧ l'.writer = none) ∨
        (a = .write ∧ l.readers = [] ∧ l'.readers = [] ∧ l'.writer = some t)) := by
  unfold grant at h
  split at h
  · rename_i u waiting hwriter hwaiting
    obtain ⟨hhead, rfl⟩ := Prod.mk.inj (Option.some.inj h)
    obtain ⟨rfl, rfl⟩ := Prod.mk.inj hhead
    exact ⟨hwaiting, hwriter, .inl ⟨rfl, rfl, rfl⟩⟩
  · rename_i u waiting hwriter hwaiting
    split at h
    · rename_i hreaders
      obtain ⟨hhead, rfl⟩ := Prod.mk.inj (Option.some.inj h)
      obtain ⟨rfl, rfl⟩ := Prod.mk.inj hhead
      exact ⟨hwaiting, hwriter, .inr ⟨rfl, hreaders, rfl, rfl⟩⟩
    · exact absurd h (by simp)
  · exact absurd h (by simp)

/-- A lock that nobody holds lets the next task in. -/
theorem grant_ne_none {l : RwLock τ} (hreaders : l.readers = []) (hwriter : l.writer = none)
    (hwaiting : l.waiting ≠ []) : l.grant ≠ none := by
  unfold grant
  rw [hwriter]
  cases hqueue : l.waiting with
  | nil => exact absurd hqueue hwaiting
  | cons head waiting =>
    obtain ⟨t, a⟩ := head
    cases a with
    | read => exact Option.some_ne_none _
    | write =>
      simp only [hreaders, if_true]
      exact Option.some_ne_none _

/-- The queue holds each task that waits, once, with what it asks for, and the holders are the
tasks that hold the lock. -/
structure Serves (l : RwLock τ) (wants holds : τ → Option Access) : Prop where
  waiting_iff : ∀ t a, (t, a) ∈ l.waiting ↔ wants t = some a
  nodup : (l.waiting.map Prod.fst).Nodup
  readers_iff : ∀ t, t ∈ l.readers ↔ holds t = some .read
  writer_iff : ∀ t, l.writer = some t ↔ holds t = some .write

variable {l : RwLock τ} {wants holds : τ → Option Access}

/-- A lock that is free serves tasks that do not use it. -/
theorem serves_free {wants holds : τ → Option Access} (hwants : ∀ t, wants t = none)
    (hholds : ∀ t, holds t = none) : (free : RwLock τ).Serves wants holds := by
  constructor
  · intro t a
    simp [free, hwants t]
  · exact List.nodup_nil
  · intro t
    simp [free, hholds t]
  · intro t
    simp [free, hholds t]

/-- A task that holds the lock for writing holds it alone. -/
theorem Serves.exclusive (h : l.Serves wants holds) {t u : τ} (ht : holds t = some .write)
    (hu : holds u ≠ none) : u = t := by
  have hwriter := (h.writer_iff t).mpr ht
  have hreaders : l.readers = [] := by
    rcases l.exclusive with hnone | hnil
    · exact absurd (hwriter.symm.trans hnone) (by simp)
    · exact hnil
  cases hheld : holds u with
  | none => exact absurd hheld hu
  | some a =>
    cases a with
    | read =>
      have hmem := (h.readers_iff u).mpr hheld
      rw [hreaders] at hmem
      exact absurd hmem List.not_mem_nil
    | write => exact Option.some.inj (((h.writer_iff u).mpr hheld).symm.trans hwriter)

/-- While a task is let in, no other one holds the lock for writing. -/
theorem Serves.not_writing (h : l.Serves wants holds) {l' : RwLock τ} {t : τ} {a : Access}
    (hgrant : l.grant = some ((t, a), l')) (u : τ) : holds u ≠ some .write := by
  intro hu
  have hwriter := (h.writer_iff u).mpr hu
  exact absurd (hwriter.symm.trans (grant_cases hgrant).2.1) (by simp)

/-- Where nobody holds the lock and nobody can be let in, nobody waits. -/
theorem Serves.wants_eq_none (h : l.Serves wants holds) (hholds : ∀ t, holds t = none)
    (hgrant : l.grant = none) (t : τ) : wants t = none := by
  have hreaders : l.readers = [] := by
    apply List.eq_nil_iff_forall_not_mem.mpr
    intro u hu
    exact absurd ((hholds u).symm.trans ((h.readers_iff u).mp hu)) (by simp)
  have hwriter : l.writer = none := by
    cases hw : l.writer with
    | none => rfl
    | some u => exact absurd ((hholds u).symm.trans ((h.writer_iff u).mp hw)) (by simp)
  have hwaiting : l.waiting = [] := by
    by_contra hsome
    exact grant_ne_none hreaders hwriter hsome hgrant
  cases hwant : wants t with
  | none => rfl
  | some a =>
    have hmem := (h.waiting_iff t a).mpr hwant
    rw [hwaiting] at hmem
    exact absurd hmem List.not_mem_nil

variable [DecidableEq τ]

/-- A task that did not wait asks for the lock. -/
theorem Serves.request (h : l.Serves wants holds) {t : τ} {a : Access} (hnone : wants t = none) :
    (l.request t a).Serves (Function.update wants t (some a)) holds := by
  have hfresh : ∀ b, (t, b) ∉ l.waiting := by
    intro b hmem
    exact absurd (hnone.symm.trans ((h.waiting_iff t b).mp hmem)) (by simp)
  constructor
  · intro u b
    simp only [RwLock.request, List.mem_append, List.mem_singleton]
    by_cases hu : u = t
    · subst hu
      rw [Function.update_self]
      constructor
      · rintro (hmem | heq)
        · exact absurd hmem (hfresh b)
        · rw [(Prod.mk.inj heq).2]
      · intro heq
        right
        rw [Option.some.inj heq]
    · rw [Function.update_of_ne hu, ← h.waiting_iff u b]
      constructor
      · rintro (hmem | heq)
        · exact hmem
        · exact absurd (Prod.mk.inj heq).1 hu
      · exact Or.inl
  · simp only [RwLock.request, List.map_append, List.map_cons, List.map_nil]
    refine List.nodup_append.mpr ⟨h.nodup, List.nodup_singleton t, ?_⟩
    intro u hu v hv
    obtain rfl := List.mem_singleton.mp hv
    obtain ⟨⟨w, b⟩, hmem, rfl⟩ := List.mem_map.mp hu
    rintro rfl
    exact hfresh b hmem
  · exact h.readers_iff
  · exact h.writer_iff

/-- The task that is let in waited for what it now holds. -/
theorem Serves.grant (h : l.Serves wants holds) {l' : RwLock τ} {t : τ} {a : Access}
    (hgrant : l.grant = some ((t, a), l')) :
    wants t = some a ∧
      l'.Serves (Function.update wants t none) (Function.update holds t (some a)) := by
  obtain ⟨hwaiting, hfree, hholders⟩ := grant_cases hgrant
  have hnodup := h.nodup
  rw [hwaiting, List.map_cons, List.nodup_cons] at hnodup
  refine ⟨(h.waiting_iff t a).mp (by rw [hwaiting]; exact List.mem_cons_self), ?_⟩
  constructor
  · intro u b
    by_cases hu : u = t
    · subst hu
      rw [Function.update_self]
      constructor
      · intro hmem
        exact absurd (List.mem_map_of_mem hmem) hnodup.1
      · intro hsome
        exact absurd hsome (by simp)
    · rw [Function.update_of_ne hu, ← h.waiting_iff u b, hwaiting, List.mem_cons]
      constructor
      · exact Or.inr
      · rintro (heq | hmem)
        · exact absurd (Prod.mk.inj heq).1 hu
        · exact hmem
  · exact hnodup.2
  · intro u
    by_cases hu : u = t
    · subst hu
      rw [Function.update_self]
      rcases hholders with ⟨rfl, hreaders, -⟩ | ⟨rfl, -, hreaders, -⟩ <;> simp [hreaders]
    · rw [Function.update_of_ne hu, ← h.readers_iff u]
      rcases hholders with ⟨-, hreaders, -⟩ | ⟨-, hnone, hreaders, -⟩
      · simp [hreaders, hu]
      · rw [hreaders, hnone]
  · intro u
    by_cases hu : u = t
    · subst hu
      rw [Function.update_self]
      rcases hholders with ⟨rfl, -, hwriter⟩ | ⟨rfl, -, -, hwriter⟩ <;> simp [hwriter]
    · rw [Function.update_of_ne hu, ← h.writer_iff u, hfree]
      rcases hholders with ⟨-, -, hwriter⟩ | ⟨-, -, -, hwriter⟩
      · rw [hwriter]
      · have hne : t ≠ u := fun heq => hu heq.symm
        simp [hwriter, hne]

/-- A task that gives the lock up holds it no more. -/
theorem Serves.release (h : l.Serves wants holds) (t : τ) :
    (l.release t).Serves wants (Function.update holds t none) := by
  constructor
  · exact h.waiting_iff
  · exact h.nodup
  · intro u
    by_cases hu : u = t
    · simp [RwLock.release, hu]
    · simp [RwLock.release, hu, h.readers_iff u]
  · intro u
    by_cases hu : u = t
    · simp [RwLock.release, hu]
    · simp [RwLock.release, hu, h.writer_iff u]

/-- A task that is let in and gives the lock up at once leaves no trace but its place in the
queue. -/
theorem Serves.pass (h : l.Serves wants holds) {l' : RwLock τ} {t : τ} {a : Access}
    (hgrant : l.grant = some ((t, a), l')) (hholds : holds t = none) :
    wants t = some a ∧ (l'.release t).Serves (Function.update wants t none) holds := by
  obtain ⟨hwant, hserves⟩ := h.grant hgrant
  have hsame : Function.update holds t none = holds := by rw [← hholds, Function.update_eq_self]
  have hpassed := hserves.release t
  rw [Function.update_idem, hsame] at hpassed
  exact ⟨hwant, hpassed⟩

/-- A task that waits for what it waited for before. -/
theorem Serves.same_wants (h : l.Serves wants holds) {t : τ} {a : Option Access}
    (ha : wants t = a) : l.Serves (Function.update wants t a) holds := by
  rwa [← ha, Function.update_eq_self]

/-- A task that holds what it held before. -/
theorem Serves.same_holds (h : l.Serves wants holds) {t : τ} {a : Option Access}
    (ha : holds t = a) : l.Serves wants (Function.update holds t a) := by
  rwa [← ha, Function.update_eq_self]

end RwLock
