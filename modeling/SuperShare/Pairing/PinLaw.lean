import Mathlib.Algebra.Group.Nat.Defs
import Mathlib.Data.List.Basic
import SuperShare.Pairing.PinManager

/-!
# The law of the PIN manager

What the manager answers, in terms of the history of its operations. Of the failures, the log
keeps the times since the last reset: a success, or a question that found an expired lockout.
The counter and the timestamp of the manager are a view of this log.
-/

namespace SuperShare

/-- An operation of the PIN manager, with the number that is drawn for a fresh PIN. -/
inductive PinOp where
  | currentPin (fresh : Fin 1000000)
  | isLocked
  | recordSuccess (fresh : Fin 1000000)
  | recordFailure

/-- An operation and the time at which it is done. -/
structure TimedOp where
  now : ℕ
  op : PinOp

/-- The manager after an operation. -/
def PinManager.apply (m : PinManager) (e : TimedOp) : PinManager :=
  match e.op with
  | .currentPin fresh => m.currentPin e.now fresh
  | .isLocked => (m.isLocked e.now).2
  | .recordSuccess fresh => m.recordSuccess e.now fresh
  | .recordFailure => m.recordFailure e.now

/-- The operation counts a failure. -/
def TimedOp.isFailure (e : TimedOp) : Bool :=
  match e.op with
  | .recordFailure => true
  | _ => false

/-- The end of the lockout that the last of the failures starts, the newest being the first. -/
def lockoutEnd (lockout : ℕ) (failures : List ℕ) : ℕ := failures.headD 0 + lockout

/-- There are enough failures for a lockout, and the time is before its end. -/
def LockedAt (maxFailures lockout : ℕ) (failures : List ℕ) (now : ℕ) : Prop :=
  maxFailures ≤ failures.length ∧ now < lockoutEnd lockout failures

/-- There are enough failures for a lockout, and its end has come. -/
def ExpiredAt (maxFailures lockout : ℕ) (failures : List ℕ) (now : ℕ) : Prop :=
  maxFailures ≤ failures.length ∧ lockoutEnd lockout failures ≤ now

instance (maxFailures lockout : ℕ) (failures : List ℕ) (now : ℕ) :
    Decidable (ExpiredAt maxFailures lockout failures now) :=
  inferInstanceAs (Decidable (_ ∧ _))

/-- The times of the failures since the last reset, after one more operation. -/
def TimedOp.log (maxFailures lockout : ℕ) (failures : List ℕ) (e : TimedOp) : List ℕ :=
  match e.op with
  | .currentPin _ => failures
  | .isLocked => if ExpiredAt maxFailures lockout failures e.now then [] else failures
  | .recordSuccess _ => []
  | .recordFailure => e.now :: failures

/-- The operation makes the new PIN drawn: a success, or a request for a PIN that has expired. -/
def PinManager.Regenerates (m : PinManager) (e : TimedOp) (fresh : Fin 1000000) : Prop :=
  e.op = .recordSuccess fresh ∨ (e.op = .currentPin fresh ∧ m.generatedAt + m.ttl ≤ e.now)

namespace PinManager

/-- The manager's counter and timestamp show the log of failures. -/
structure Shows (m : PinManager) (failures : List ℕ) : Prop where
  counter : m.failures.toNat = failures.length
  lockedUntil : m.lockedUntil =
    if m.maxFailures.toNat ≤ failures.length then some (lockoutEnd m.lockout failures) else none

/-! ## One operation -/

/-- No operation changes the parameters. -/
theorem apply_params (m : PinManager) (e : TimedOp) :
    (m.apply e).ttl = m.ttl ∧ (m.apply e).maxFailures = m.maxFailures ∧
      (m.apply e).lockout = m.lockout := by
  cases hop : e.op with
  | currentPin fresh =>
    simp only [apply, hop, currentPin]
    split <;> simp only [rotate, and_self]
  | isLocked =>
    simp only [apply, hop, isLocked]
    split
    · split <;> exact ⟨rfl, rfl, rfl⟩
    · exact ⟨rfl, rfl, rfl⟩
  | recordSuccess fresh => simp only [apply, hop, recordSuccess, rotate, and_self]
  | recordFailure =>
    simp only [apply, hop, recordFailure]
    split <;> exact ⟨rfl, rfl, rfl⟩

/-- A manager without failures shows an empty log. -/
theorem shows_nil {m : PinManager} (hmax : 1 ≤ m.maxFailures.toNat) (hfailures : m.failures = 0)
    (hlocked : m.lockedUntil = none) : m.Shows [] where
  counter := by
    rw [hfailures]
    rfl
  lockedUntil := by
    rw [hlocked, if_neg]
    exact Nat.not_le.mpr hmax

/-- A question is answered by the log. -/
theorem Shows.isLocked_iff {m : PinManager} {failures : List ℕ} (h : m.Shows failures) (now : ℕ) :
    (m.isLocked now).1 = true ↔ LockedAt m.maxFailures.toNat m.lockout failures now := by
  rw [isLocked, h.lockedUntil, LockedAt]
  by_cases henough : m.maxFailures.toNat ≤ failures.length
  · by_cases hnow : now < lockoutEnd m.lockout failures
    · simp [henough, hnow]
    · simp [henough, hnow]
  · simp [henough]

/-- Lock step: an operation keeps the view of the log, while the counter does not overflow. -/
theorem Shows.apply {m : PinManager} {failures : List ℕ} (h : m.Shows failures)
    (hmax : 1 ≤ m.maxFailures.toNat) (e : TimedOp)
    (hcount : failures.length + (if e.isFailure then 1 else 0) < 2 ^ 32) :
    (m.apply e).Shows (e.log m.maxFailures.toNat m.lockout failures) := by
  cases hop : e.op with
  | currentPin fresh =>
    have hlockout : (m.currentPin e.now fresh).lockout = m.lockout := by
      rw [currentPin]
      split <;> simp only [rotate]
    simp only [PinManager.apply, TimedOp.log, hop]
    constructor
    · rw [currentPin_failures]
      exact h.counter
    · rw [currentPin_lockedUntil, currentPin_maxFailures, hlockout]
      exact h.lockedUntil
  | isLocked =>
    simp only [PinManager.apply, TimedOp.log, hop]
    by_cases hexpired : ExpiredAt m.maxFailures.toNat m.lockout failures e.now
    · have hlocked := h.lockedUntil
      rw [if_pos hexpired.1] at hlocked
      rw [if_pos hexpired]
      simp only [isLocked, hlocked, if_neg (Nat.not_lt.mpr hexpired.2)]
      exact shows_nil hmax rfl rfl
    · rw [if_neg hexpired]
      have hsame : (m.isLocked e.now).2 = m := by
        by_cases henough : m.maxFailures.toNat ≤ failures.length
        · have hnow : e.now < lockoutEnd m.lockout failures := by
            by_contra hnot
            exact hexpired ⟨henough, Nat.not_lt.mp hnot⟩
          exact m.isLocked_of_locked e.now ((h.isLocked_iff e.now).mpr ⟨henough, hnow⟩)
        · have hlocked := h.lockedUntil
          rw [if_neg henough] at hlocked
          simp only [isLocked, hlocked]
      rwa [hsame]
  | recordSuccess fresh =>
    simp only [PinManager.apply, TimedOp.log, hop, recordSuccess, rotate]
    exact shows_nil hmax rfl rfl
  | recordFailure =>
    simp only [PinManager.apply, TimedOp.log, hop]
    have hfailure : e.isFailure = true := by simp [TimedOp.isFailure, hop]
    rw [if_pos hfailure] at hcount
    have hone : (1 : UInt32).toNat = 1 := rfl
    have hcounter : (m.failures + 1).toNat = failures.length + 1 := by
      rw [UInt32.toNat_add, hone, h.counter, Nat.mod_eq_of_lt hcount]
    refine ⟨by rw [recordFailure_failures, hcounter, List.length_cons], ?_⟩
    rw [recordFailure_maxFailures, List.length_cons]
    by_cases henough : m.maxFailures.toNat ≤ failures.length + 1
    · have hge : m.failures + 1 ≥ m.maxFailures :=
        UInt32.le_iff_toNat_le.mpr (by rw [hcounter]; exact henough)
      rw [if_pos henough, recordFailure, dif_pos hge]
      rfl
    · have hlt : ¬ m.failures + 1 ≥ m.maxFailures := fun hge =>
        henough (hcounter ▸ UInt32.le_iff_toNat_le.mp hge)
      rw [if_neg henough, recordFailure, dif_neg hlt]
      have hlocked := h.lockedUntil
      rwa [if_neg (by omega)] at hlocked

/-- PIN step: a PIN and the time of its generation stay together, and they change only where a
new PIN is made, which is then generated at that time. -/
theorem apply_pin {m : PinManager} (httl : 0 < m.ttl) (e : TimedOp) :
    ((m.apply e).pin = m.pin ∧ (m.apply e).generatedAt = m.generatedAt) ∨
      ∃ fresh, m.Regenerates e fresh ∧
        (m.apply e).pin = generatePin fresh ∧ (m.apply e).generatedAt = e.now := by
  cases hop : e.op with
  | currentPin fresh =>
    simp only [apply, hop, currentPin]
    split
    · next hexpired =>
      have htime : m.generatedAt + m.ttl ≤ e.now := by
        rw [Expired] at hexpired
        omega
      exact .inr ⟨fresh, .inr ⟨hop, htime⟩, rfl, rfl⟩
    · exact .inl ⟨rfl, rfl⟩
  | isLocked =>
    simp only [apply, hop, isLocked]
    split
    · split <;> exact .inl ⟨rfl, rfl⟩
    · exact .inl ⟨rfl, rfl⟩
  | recordSuccess fresh =>
    simp only [apply, hop]
    exact .inr ⟨fresh, .inl hop, rfl, rfl⟩
  | recordFailure =>
    simp only [apply, hop]
    exact .inl ⟨recordFailure_pin m e.now, recordFailure_generatedAt m e.now⟩

/-- A PIN that is returned has not reached its time-to-live. -/
theorem currentPin_fresh {m : PinManager} (httl : 0 < m.ttl) (now : ℕ) (fresh : Fin 1000000) :
    now < (m.currentPin now fresh).generatedAt + m.ttl := by
  rw [currentPin]
  split
  · rw [rotate_generatedAt]
    omega
  · next hexpired =>
    rw [Expired] at hexpired
    omega

/-! ## Runs -/

/-- No run changes the parameters. -/
theorem run_params (m : PinManager) (ops : List TimedOp) :
    (ops.foldl apply m).ttl = m.ttl ∧ (ops.foldl apply m).maxFailures = m.maxFailures ∧
      (ops.foldl apply m).lockout = m.lockout := by
  induction ops generalizing m with
  | nil => exact ⟨rfl, rfl, rfl⟩
  | cons e ops ih =>
    obtain ⟨httl, hmax, hlockout⟩ := ih (m.apply e)
    obtain ⟨httl', hmax', hlockout'⟩ := m.apply_params e
    exact ⟨httl.trans httl', hmax.trans hmax', hlockout.trans hlockout'⟩

/-- The log grows only with failures. -/
theorem length_log_le (maxFailures lockout : ℕ) (failures : List ℕ) (e : TimedOp) :
    (e.log maxFailures lockout failures).length ≤
      failures.length + if e.isFailure then 1 else 0 := by
  rw [TimedOp.log, TimedOp.isFailure]
  cases e.op with
  | currentPin fresh => simp
  | isLocked =>
    simp only
    split <;> simp
  | recordSuccess fresh => simp
  | recordFailure => simp

/-- Lock run: the manager shows the log of the operations done. -/
theorem Shows.run {m : PinManager} {failures : List ℕ} (h : m.Shows failures)
    (hmax : 1 ≤ m.maxFailures.toNat) {ops : List TimedOp}
    (hcount : failures.length + ops.countP TimedOp.isFailure < 2 ^ 32) :
    (ops.foldl PinManager.apply m).Shows
      (ops.foldl (TimedOp.log m.maxFailures.toNat m.lockout) failures) := by
  induction ops generalizing m failures with
  | nil => exact h
  | cons e ops ih =>
    rw [List.countP_cons] at hcount
    have hlength := length_log_le m.maxFailures.toNat m.lockout failures e
    have hnext := h.apply hmax e (by omega)
    obtain ⟨-, hmax', hlockout'⟩ := m.apply_params e
    have hrun := ih hnext (by rwa [hmax']) (by omega)
    rwa [hmax', hlockout'] at hrun

/-- A PIN is not generated after the last operation. -/
theorem generatedAt_run_le {m : PinManager} (httl : 0 < m.ttl) {ops : List TimedOp} {t : ℕ}
    (hstart : m.generatedAt ≤ t) (hops : ∀ e ∈ ops, e.now ≤ t) :
    (ops.foldl apply m).generatedAt ≤ t := by
  induction ops generalizing m with
  | nil => exact hstart
  | cons e ops ih =>
    obtain ⟨hnow, hrest⟩ := List.forall_mem_cons.mp hops
    have httl' : 0 < (m.apply e).ttl := by rwa [(m.apply_params e).1]
    refine ih httl' ?_ hrest
    rcases apply_pin httl e with ⟨-, hsame⟩ | ⟨_, -, -, hnew⟩
    · rwa [hsame]
    · rwa [hnew]

end PinManager

/-- **PIN manager.** At every operation of a run, with `m` the manager before it and `failures` the
times of the failures since the last reset: a question is answered by the lock that these
failures make, a request returns a PIN that has not reached its time-to-live, and the PIN
changes only at a success or at a request once it has. -/
theorem pinManager_law {ttl lockout start : ℕ} {maxFailures : UInt32} (fresh₀ : Fin 1000000)
    (httl : 0 < ttl) (hmax : 1 ≤ maxFailures.toNat) {ops : List TimedOp}
    (htimes : (start :: ops.map TimedOp.now).Pairwise (· ≤ ·))
    (hfailures : ops.countP TimedOp.isFailure < 2 ^ 32) {before after : List TimedOp} {e : TimedOp}
    (hops : ops = before ++ e :: after) :
    let m := before.foldl PinManager.apply (.withParams ttl maxFailures lockout start fresh₀)
    let failures := before.foldl (TimedOp.log maxFailures.toNat lockout) []
    (e.op = .isLocked →
      ((m.isLocked e.now).1 = true ↔ LockedAt maxFailures.toNat lockout failures e.now)) ∧
    (∀ fresh, e.op = .currentPin fresh →
      (m.currentPin e.now fresh).generatedAt ≤ e.now ∧
        e.now < (m.currentPin e.now fresh).generatedAt + ttl) ∧
    (((m.apply e).pin = m.pin ∧ (m.apply e).generatedAt = m.generatedAt) ∨
      ∃ fresh, m.Regenerates e fresh ∧
        (m.apply e).pin = generatePin fresh ∧ (m.apply e).generatedAt = e.now) := by
  intro m failures
  subst hops
  obtain ⟨hm, hm', hm''⟩ : m.ttl = ttl ∧ m.maxFailures = maxFailures ∧ m.lockout = lockout :=
    PinManager.run_params _ before
  rw [List.countP_append] at hfailures
  have hshows : m.Shows failures :=
    (PinManager.shows_nil hmax rfl rfl).run hmax (by simp; omega)
  have hpos : 0 < m.ttl := by rwa [hm]
  refine ⟨fun _ => ?_, fun fresh hop => ⟨?_, ?_⟩, PinManager.apply_pin hpos e⟩
  · rw [hshows.isLocked_iff, hm', hm'']
  · have hstart : start ≤ e.now := List.rel_of_pairwise_cons htimes (by simp)
    have hbefore : ∀ d ∈ before, d.now ≤ e.now := by
      intro d hd
      have hpair := (List.pairwise_cons.mp htimes).2
      rw [List.map_append, List.pairwise_append] at hpair
      exact hpair.2.2 d.now (List.mem_map_of_mem hd) e.now (by simp)
    have hprior : m.generatedAt ≤ e.now := PinManager.generatedAt_run_le httl hstart hbefore
    have hnext : ([e].foldl PinManager.apply m).generatedAt ≤ e.now :=
      PinManager.generatedAt_run_le hpos hprior (by simp)
    simpa [PinManager.apply, hop] using hnext
  · have hlive := PinManager.currentPin_fresh hpos e.now fresh
    rwa [hm] at hlive

/-- Two failures at a limit of two, and a question in the middle of the lockout. -/
theorem pinManager_law_locked :
    let m := [⟨1, .recordFailure⟩, ⟨4, .recordFailure⟩].foldl PinManager.apply
      (.withParams 60 2 10 0 7)
    (m.isLocked 9).1 = true := by
  obtain ⟨hquestion, -⟩ := @pinManager_law 60 10 0 2 7 (by decide) (by decide)
    [⟨1, .recordFailure⟩, ⟨4, .recordFailure⟩, ⟨9, .isLocked⟩] (by decide) (by decide)
    [⟨1, .recordFailure⟩, ⟨4, .recordFailure⟩] [] ⟨9, .isLocked⟩ rfl
  exact (hquestion rfl).mpr ⟨by decide, by decide⟩

end SuperShare
