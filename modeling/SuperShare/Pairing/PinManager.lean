import Mathlib.Data.Nat.Notation

/-!
# The PIN manager

The pairing PIN with its expiry, its rotation and the lockout after repeated failures. Each
operation holds the manager's lock throughout and reads the clock once. The numbers that
`generate_pin` draws are arguments.
-/

namespace SuperShare

/-- A fresh PIN: the number drawn, as six digits. -/
def generatePin (n : Fin 1000000) : String :=
  let digits := toString n.val
  "".pushn '0' (6 - digits.length) ++ digits

/-- `PinManager` with its `PinState`. Times are readings of a monotone clock. -/
structure PinManager where
  pin : String
  /-- The number of PINs generated before this one. No operation reads it. -/
  generation : ℕ
  generatedAt : ℕ
  failures : UInt32
  lockedUntil : Option ℕ
  ttl : ℕ
  maxFailures : UInt32
  lockout : ℕ
  /-- Without a lockout the counter is below its limit. -/
  unlocked : lockedUntil = none → failures < maxFailures ∨ failures = 0

namespace PinManager

/-- A manager with a fresh PIN. -/
def withParams (ttl : ℕ) (maxFailures : UInt32) (lockout now : ℕ) (fresh : Fin 1000000) :
    PinManager where
  pin := generatePin fresh
  generation := 0
  generatedAt := now
  failures := 0
  lockedUntil := none
  ttl := ttl
  maxFailures := maxFailures
  lockout := lockout
  unlocked _ := .inr rfl

/-- A manager with the default parameters, in seconds. -/
def new (now : ℕ) (fresh : Fin 1000000) : PinManager := withParams 180 5 60 now fresh

/-- Replace the PIN. -/
def rotate (m : PinManager) (now : ℕ) (fresh : Fin 1000000) : PinManager :=
  { m with pin := generatePin fresh, generation := m.generation + 1, generatedAt := now }

/-- The PIN has reached its time-to-live. -/
def Expired (m : PinManager) (now : ℕ) : Prop := m.ttl ≤ now - m.generatedAt

instance (m : PinManager) (now : ℕ) : Decidable (m.Expired now) := Nat.decLe _ _

/-- `current_pin`: the PIN returned is that of the resulting manager. -/
def currentPin (m : PinManager) (now : ℕ) (fresh : Fin 1000000) : PinManager :=
  if m.Expired now then m.rotate now fresh else m

/-- Whether pairing is locked, and the manager after an expired lockout has been reset. -/
def isLocked (m : PinManager) (now : ℕ) : Bool × PinManager :=
  match m.lockedUntil with
  | some t =>
      if now < t then (true, m)
      else (false, { m with lockedUntil := none, failures := 0, unlocked := fun _ => .inr rfl })
  | none => (false, m)

/-- Record a successful pairing: rotate the PIN and clear failures. -/
def recordSuccess (m : PinManager) (now : ℕ) (fresh : Fin 1000000) : PinManager :=
  { m.rotate now fresh with failures := 0, lockedUntil := none, unlocked := fun _ => .inr rfl }

/-- Record a failed attempt, locking out after too many. -/
def recordFailure (m : PinManager) (now : ℕ) : PinManager :=
  if h : m.failures + 1 ≥ m.maxFailures then
    { m with
      failures := m.failures + 1
      lockedUntil := some (now + m.lockout)
      unlocked := nofun }
  else
    { m with failures := m.failures + 1, unlocked := fun _ => .inl (UInt32.not_le.mp h) }

variable (m : PinManager) (now : ℕ) (fresh : Fin 1000000)

@[simp] theorem rotate_generation : (m.rotate now fresh).generation = m.generation + 1 := rfl

@[simp] theorem rotate_generatedAt : (m.rotate now fresh).generatedAt = now := rfl

@[simp] theorem rotate_ttl : (m.rotate now fresh).ttl = m.ttl := by
  simp only [rotate]

@[simp] theorem currentPin_failures : (m.currentPin now fresh).failures = m.failures := by
  unfold currentPin
  split <;> simp only [rotate]

@[simp] theorem currentPin_lockedUntil :
    (m.currentPin now fresh).lockedUntil = m.lockedUntil := by
  unfold currentPin
  split <;> simp only [rotate]

@[simp] theorem currentPin_maxFailures :
    (m.currentPin now fresh).maxFailures = m.maxFailures := by
  unfold currentPin
  split <;> simp only [rotate]

@[simp] theorem currentPin_ttl : (m.currentPin now fresh).ttl = m.ttl := by
  unfold currentPin
  split <;> simp only [rotate]

@[simp] theorem recordFailure_failures :
    (m.recordFailure now).failures = m.failures + 1 := by
  unfold recordFailure
  split <;> rfl

@[simp] theorem recordFailure_pin : (m.recordFailure now).pin = m.pin := by
  unfold recordFailure
  split <;> rfl

@[simp] theorem recordFailure_generation :
    (m.recordFailure now).generation = m.generation := by
  unfold recordFailure
  split <;> rfl

@[simp] theorem recordFailure_generatedAt :
    (m.recordFailure now).generatedAt = m.generatedAt := by
  unfold recordFailure
  split <;> rfl

@[simp] theorem recordFailure_ttl : (m.recordFailure now).ttl = m.ttl := by
  unfold recordFailure
  split <;> rfl

@[simp] theorem recordFailure_maxFailures :
    (m.recordFailure now).maxFailures = m.maxFailures := by
  unfold recordFailure
  split <;> rfl

@[simp] theorem isLocked_maxFailures : (m.isLocked now).2.maxFailures = m.maxFailures := by
  unfold isLocked
  split
  · split <;> rfl
  · rfl

@[simp] theorem isLocked_ttl : (m.isLocked now).2.ttl = m.ttl := by
  unfold isLocked
  split
  · split <;> rfl
  · rfl

@[simp] theorem isLocked_generation : (m.isLocked now).2.generation = m.generation := by
  unfold isLocked
  split
  · split <;> rfl
  · rfl

@[simp] theorem isLocked_generatedAt : (m.isLocked now).2.generatedAt = m.generatedAt := by
  unfold isLocked
  split
  · split <;> rfl
  · rfl

/-- Counting a failure does not lift a lockout. -/
theorem lockedUntil_of_recordFailure (h : (m.recordFailure now).lockedUntil = none) :
    m.lockedUntil = none := by
  unfold recordFailure at h
  split at h
  · exact absurd h (by simp)
  · exact h

/-- An unlocked manager has no lockout set once it has been asked. -/
theorem lockedUntil_of_isLocked (h : (m.isLocked now).1 = false) :
    (m.isLocked now).2.lockedUntil = none := by
  unfold isLocked at h ⊢
  split at h
  · split at h
    · exact absurd h (by simp)
    · rename_i ht
      rw [if_neg ht]
  · assumption

/-- Asking whether pairing is locked leaves a locked manager alone. -/
theorem isLocked_of_locked (h : (m.isLocked now).1 = true) : (m.isLocked now).2 = m := by
  unfold isLocked at h ⊢
  split at h
  · split at h
    · rename_i ht
      rw [if_pos ht]
    · exact absurd h (by simp)
  · rfl

/-- Without a lockout the counter can be increased: it does not overflow. -/
theorem failures_succ (h : m.lockedUntil = none) :
    (m.failures + 1).toNat = m.failures.toNat + 1 := by
  have hone : (1 : UInt32).toNat = 1 := rfl
  have hlt : m.failures.toNat + 1 < 2 ^ 32 := by
    rcases m.unlocked h with hlt | hzero
    · rw [UInt32.lt_iff_toNat_lt] at hlt
      have := m.maxFailures.toNat_lt
      omega
    · rw [hzero]
      decide
  rw [UInt32.toNat_add, hone, Nat.mod_eq_of_lt hlt]

end PinManager

end SuperShare
