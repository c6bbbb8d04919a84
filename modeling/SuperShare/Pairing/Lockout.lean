import SuperShare.Pairing.Attempts
import SuperShare.Pairing.Dialogue
import Mathlib.Data.Finset.Card

/-!
# The lockout against guessing the PIN

A guess is a `PairConfirm` that is decrypted although the peer's SPAKE2 message was made with
another PIN than the one the attempt took. The lock is checked when an attempt starts and the
failure is counted many waits later, so attempts that are under way together each get a guess.
While the failures counted and the wrong guesses not yet counted stay below `max_failures`, no
more than `max_failures` fall between two resets of the counter.
-/

namespace SuperShare

variable {ι : Type} {lib : PairingLib}

/-- `record_success` and an `is_locked` that finds an expired lockout reset the counter. -/
def PairingObs.isReset : PairingObs → Bool
  | lockExpired | successCounted => true
  | _ => false

/-- A `PairConfirm` was decrypted under a key derived from a wrong PIN: the peer's message was
made with another one. -/
def PairingObs.wrongGuess (pinOf : List UInt8 → String) : PairingObs → Bool
  | opened clientSpake pin _ => pinOf clientSpake ≠ pin
  | _ => false

/-- The session of an attempt that decrypts a `PairConfirm` next. -/
def PairingPhase.opening : PairingPhase lib → Option PairingSession
  | openConfirm x _ _ _ => some x
  | _ => none

/-- The payload that is decrypted next was not made for a key that its sender does not have: when
the sender's SPAKE2 message was made with another PIN than the server's, it does not open. -/
def PairingPhase.Unforged (pinOf : List UInt8 → String) : PairingPhase lib → Prop
  | openConfirm x key nonce ciphertext =>
      pinOf x.clientSpake ≠ x.pin → lib.decrypt key nonce ciphertext = none
  | _ => True

/-- With ideal cryptography a peer forges nothing that seals its payload under the key which its
own exchange and the server's message give it. -/
theorem unforged_of_sealed (hideal : IdealCrypto lib) {pinOf : List UInt8 → String}
    {x : PairingSession} {seed peerSeed : lib.Seed} {key own : lib.Key}
    (hspake : x.clientSpake = (lib.start (pinOf x.clientSpake) peerSeed).2)
    (hkey : lib.finish (lib.start x.pin seed).1 x.clientSpake = .ok key)
    (hown : lib.finish (lib.start (pinOf x.clientSpake) peerSeed).1 (lib.start x.pin seed).2 =
      .ok own)
    {plaintext nonce ciphertext : List UInt8} (hsealed : Sealed own plaintext nonce ciphertext)
    (hlength : plaintext.length ≤ maxPayloadSize.toNat) :
    (PairingPhase.openConfirm x key nonce ciphertext).Unforged pinOf := by
  intro hguess
  obtain ⟨key', own', hkey', hown', hsame⟩ :=
    hideal.agree x.pin (pinOf x.clientSpake) seed peerSeed
  rw [← hspake, hkey] at hkey'
  obtain rfl : key = key' := Except.ok.inj hkey'
  obtain rfl : own = own' := Except.ok.inj (hown.symm.trans hown')
  have hother : key ≠ own := fun heq => hguess (hsame.mp heq).symm
  obtain ⟨opened, hencrypt, -, hnone⟩ := hideal.seals own nonce plaintext hlength
  obtain rfl : ciphertext = opened := Except.ok.inj (hsealed.encrypted.symm.trans hencrypt)
  exact hnone key hother

namespace PairingServer

section Conditions

variable [DecidableEq ι]

/-- The attempts with a wrong guess that is not yet counted. -/
def inFlight (pinOf : List UInt8 → String) : List (Option ι × PairingObs) → Finset ι
  | [] => ∅
  | (none, _) :: history => inFlight pinOf history
  | (some i, o) :: history =>
      if o.wrongGuess pinOf then insert i (inFlight pinOf history)
      else if o = .failureCounted then (inFlight pinOf history).erase i
      else inFlight pinOf history

/-- The peers send no forged payloads. -/
def Unforged (pinOf : List UInt8 → String) (s : PairingServer ι lib) :
    PairingEvent ι lib → Prop
  | .attempt i _ => (s.phase i).Unforged pinOf
  | .advance _ => True
  | .showPin _ => True

/-- A guess is made while no lockout is set, and while the failures counted and the wrong guesses
in flight are fewer than the limit. -/
def WithinLimit (pinOf : List UInt8 → String) (s : PairingServer ι lib) :
    PairingEvent ι lib → Prop
  | .attempt i _ => ∀ x ∈ (s.phase i).opening, pinOf x.clientSpake ≠ x.pin →
      s.manager.lockedUntil = none ∧
        s.manager.failures.toNat + (inFlight pinOf s.history).card < s.manager.maxFailures.toNat
  | .advance _ => True
  | .showPin _ => True

instance (pinOf : List UInt8 → String) : ∀ phase : PairingPhase lib,
    Decidable (phase.Unforged pinOf)
  | .openConfirm x key nonce ciphertext =>
      decidable_of_iff (pinOf x.clientSpake ≠ x.pin →
        (lib.decrypt key nonce ciphertext).isNone = true) (by simp [PairingPhase.Unforged])
  | .checkLock | .readRequest | .readSpake _ | .takePin _ _ | .writeSpake _ _ _
  | .readConfirm _ _ | .countFailure _ | .sign _ _ _ | .writeResult _ _ _ _ | .countSuccess _ _
  | .sendPaired _ _ | .done | .failed _ | .closed => isTrue trivial

instance (pinOf : List UInt8 → String) (s : PairingServer ι lib) :
    ∀ event, Decidable (Unforged pinOf s event)
  | .attempt i _ => inferInstanceAs (Decidable ((s.phase i).Unforged pinOf))
  | .advance _ | .showPin _ => isTrue trivial

instance (pinOf : List UInt8 → String) (s : PairingServer ι lib) :
    ∀ event, Decidable (WithinLimit pinOf s event)
  | .attempt _ _ => inferInstanceAs (Decidable (∀ _ ∈ _, _))
  | .advance _ | .showPin _ => isTrue trivial

/-- A guess of one attempt at a time, made outside a lockout, is within the limit. -/
theorem withinLimit_of_alone {pinOf : List UInt8 → String} {s : PairingServer ι lib}
    (hlimit : 1 ≤ s.manager.maxFailures) (hnone : s.manager.lockedUntil = none)
    (halone : inFlight pinOf s.history = ∅) (event : PairingEvent ι lib) :
    WithinLimit pinOf s event := by
  cases event with
  | advance duration => trivial
  | showPin fresh => trivial
  | attempt i input =>
    intro x _ _
    refine ⟨hnone, ?_⟩
    rw [halone, Finset.card_empty, Nat.add_zero, ← UInt32.lt_iff_toNat_lt]
    rcases s.manager.unlocked hnone with hlt | hzero
    · exact hlt
    · rw [hzero, UInt32.lt_iff_toNat_lt]
      exact UInt32.le_iff_toNat_le.mp hlimit

end Conditions

/-- Guesses since the last reset. -/
def guesses (pinOf : List UInt8 → String) (history : List (Option ι × PairingObs)) : ℕ :=
  Run.sinceReset (fun e => e.2.isReset) (fun e => e.2.wrongGuess pinOf) history

variable [DecidableEq ι]

/-- The guesses since the last reset are counted or in flight, and were at no time more than the
limit. -/
structure Limited (pinOf : List UInt8 → String) (limit : UInt32) (s : PairingServer ι lib) :
    Prop where
  maxFailures : s.manager.maxFailures = limit
  bounded : Run.Bounded (fun e => e.2.isReset) (fun e => e.2.wrongGuess pinOf) limit.toNat
    s.history
  waiting : ∀ i ∈ inFlight pinOf s.history, (s.phase i).failing = true
  counted : s.manager.lockedUntil = none →
    guesses pinOf s.history ≤ s.manager.failures.toNat + (inFlight pinOf s.history).card

variable {pinOf : List UInt8 → String} {limit : UInt32} {s : PairingServer ι lib}

/-- A fresh manager has counted all guesses. -/
theorem limited_start (pinOf : List UInt8 → String) (ttl : ℕ) (limit : UInt32)
    (lockout now : ℕ) (fresh : Fin 1000000) :
    Limited pinOf limit (start ttl limit lockout now fresh : PairingServer ι lib) where
  maxFailures := rfl
  bounded := trivial
  waiting i hi := absurd hi (Finset.notMem_empty i)
  counted _ := Nat.zero_le _

/-- Sections that neither guess wrongly nor count a failure leave the guesses in flight. -/
theorem inFlight_append {i : ι} {new : List PairingObs}
    (hnew : ∀ o ∈ new, o.wrongGuess pinOf = false ∧ o ≠ .failureCounted)
    (history : List (Option ι × PairingObs)) :
    inFlight pinOf ((new.map fun o => (some i, o)) ++ history) = inFlight pinOf history := by
  induction new with
  | nil => rfl
  | cons o new ih =>
    obtain ⟨⟨hwrong, hcounted⟩, hrest⟩ := List.forall_mem_cons.mp hnew
    rw [List.map_cons, List.cons_append, inFlight, if_neg (by simp [hwrong]), if_neg hcounted,
      ih hrest]

/-- The guesses in flight still wait when an attempt without one moves on. -/
theorem waiting_update {i : ι} {phase : PairingPhase lib} {flight : Finset ι}
    (h : ∀ j ∈ flight, (s.phase j).failing = true) (hi : (s.phase i).failing = false) :
    ∀ j ∈ flight, (Function.update s.phase i phase j).failing = true := by
  intro j hj
  have hne : j ≠ i := by
    rintro rfl
    exact absurd (hi.symm.trans (h j hj)) (by simp)
  rw [Function.update_of_ne hne]
  exact h j hj

/-- A section that touches neither the counter nor its lock, and has no guess in it. -/
theorem Limited.unrelated (h : Limited pinOf limit s) {i : ι} {result : PairingResult lib}
    (hmax : result.manager.maxFailures = s.manager.maxFailures)
    (hfailures : result.manager.failures = s.manager.failures)
    (hlocked : result.manager.lockedUntil = s.manager.lockedUntil)
    (hfailing : (s.phase i).failing = false)
    (hobserved : ∀ o ∈ result.observed,
      o.isReset = false ∧ o.wrongGuess pinOf = false ∧ o ≠ .failureCounted) :
    Limited pinOf limit (s.attempted i result) := by
  have hnew : ∀ (q : PairingObs → Bool), (∀ o ∈ result.observed, q o = false) →
      ∀ e ∈ result.observed.reverse.map (fun o => (some i, o)), q e.2 = false := by
    intro q hq e he
    obtain ⟨o, ho, rfl⟩ := List.mem_map.mp he
    exact hq o (List.mem_reverse.mp ho)
  have hreset : ∀ o ∈ result.observed, o.isReset = false := fun o ho => (hobserved o ho).1
  have hwrong : ∀ o ∈ result.observed, o.wrongGuess pinOf = false :=
    fun o ho => (hobserved o ho).2.1
  have hcount : guesses pinOf (s.attempted i result).history = guesses pinOf s.history :=
    Run.sinceReset_append (hnew _ hreset) (hnew _ hwrong) _
  have hflight : inFlight pinOf (s.attempted i result).history = inFlight pinOf s.history :=
    inFlight_append (fun o ho => (hobserved o (List.mem_reverse.mp ho)).2) _
  refine ⟨hmax.trans h.maxFailures, h.bounded.append (hnew _ hreset) (hnew _ hwrong), ?_, ?_⟩
  · rw [hflight]
    exact waiting_update h.waiting hfailing
  · intro hnone
    rw [hcount, hflight]
    change result.manager.lockedUntil = none at hnone
    change _ ≤ result.manager.failures.toNat + _
    rw [hlocked] at hnone
    rw [hfailures]
    exact h.counted hnone

/-- A reset starts the count anew. -/
theorem Limited.reset (h : Limited pinOf limit s) {i : ι} {result : PairingResult lib}
    (hmax : result.manager.maxFailures = s.manager.maxFailures)
    (hfailing : (s.phase i).failing = false)
    (hflight : inFlight pinOf (s.attempted i result).history = inFlight pinOf s.history)
    (hcount : guesses pinOf (s.attempted i result).history = 0)
    (hbounded : Run.Bounded (fun e => e.2.isReset) (fun e => e.2.wrongGuess pinOf) limit.toNat
      (s.attempted i result).history) :
    Limited pinOf limit (s.attempted i result) := by
  refine ⟨hmax.trans h.maxFailures, hbounded, ?_, fun _ => ?_⟩
  · rw [hflight]
    exact waiting_update h.waiting hfailing
  · rw [hcount]
    exact Nat.zero_le _

/-- A `PairConfirm` that does not open waits to be counted. When it was a guess, there was room
for it below the limit. -/
theorem Limited.notOpened (h : Limited pinOf limit s) {i : ι} {x : PairingSession} {e : OpenError}
    (hfailing : (s.phase i).failing = false)
    (hlimit : pinOf x.clientSpake ≠ x.pin → s.manager.lockedUntil = none ∧
      s.manager.failures.toNat + (inFlight pinOf s.history).card < s.manager.maxFailures.toNat) :
    Limited pinOf limit
      (s.attempted i ⟨s.manager, .countFailure e, [.opened x.clientSpake x.pin false]⟩) := by
  by_cases hguess : pinOf x.clientSpake = x.pin
  · exact h.unrelated rfl rfl rfl hfailing
      (by simp [PairingObs.isReset, PairingObs.wrongGuess, hguess])
  · have hcount : guesses pinOf ((some i, .opened x.clientSpake x.pin false) :: s.history) =
        guesses pinOf s.history + 1 := by
      simp [guesses, Run.sinceReset, PairingObs.isReset, PairingObs.wrongGuess, hguess]
    have hflight : inFlight pinOf ((some i, .opened x.clientSpake x.pin false) :: s.history) =
        insert i (inFlight pinOf s.history) := by
      simp [inFlight, PairingObs.wrongGuess, hguess]
    have hnew : i ∉ inFlight pinOf s.history := by
      intro hi
      exact absurd (hfailing.symm.trans (h.waiting i hi)) (by simp)
    have hcard := Finset.card_insert_of_notMem hnew
    obtain ⟨hnone, hroom⟩ := hlimit hguess
    have hcounted := h.counted hnone
    rw [h.maxFailures] at hroom
    refine ⟨h.maxFailures, ⟨Nat.le_trans (Nat.le_of_eq hcount) (by omega), h.bounded⟩, ?_, ?_⟩
    · intro j hj
      change j ∈ inFlight pinOf ((some i, _) :: s.history) at hj
      change (Function.update s.phase i (.countFailure e) j).failing = true
      by_cases hji : j = i
      · rw [hji, Function.update_self]
        rfl
      · rw [hflight] at hj
        rw [Function.update_of_ne hji]
        exact h.waiting j (Finset.mem_of_mem_insert_of_ne hj hji)
    · intro _
      change guesses pinOf ((some i, _) :: s.history) ≤ s.manager.failures.toNat +
        (inFlight pinOf ((some i, _) :: s.history)).card
      rw [hcount, hflight, hcard]
      omega

/-- A failure that is counted is no longer in flight. -/
theorem Limited.countFailure (h : Limited pinOf limit s) {i : ι} {e : OpenError} :
    Limited pinOf limit (s.attempted i
      ⟨s.manager.recordFailure s.clock, .failed (.pinVerification e), [.failureCounted]⟩) := by
  have hcount : guesses pinOf ((some i, .failureCounted) :: s.history) =
      guesses pinOf s.history := by
    simp [guesses, Run.sinceReset, PairingObs.isReset, PairingObs.wrongGuess]
  have hflight : inFlight pinOf ((some i, .failureCounted) :: s.history) =
      (inFlight pinOf s.history).erase i := by
    simp [inFlight, PairingObs.wrongGuess]
  refine ⟨?_, ⟨Nat.le_trans (Nat.le_of_eq hcount) h.bounded.sinceReset_le, h.bounded⟩, ?_, ?_⟩
  · exact (s.manager.recordFailure_maxFailures s.clock).trans h.maxFailures
  · intro j hj
    change j ∈ inFlight pinOf ((some i, .failureCounted) :: s.history) at hj
    rw [hflight] at hj
    obtain ⟨hji, hj⟩ := Finset.mem_erase.mp hj
    change (Function.update s.phase i _ j).failing = true
    rw [Function.update_of_ne hji]
    exact h.waiting j hj
  · intro hnone
    have hbefore := s.manager.lockedUntil_of_recordFailure s.clock hnone
    have hfailures : (s.manager.recordFailure s.clock).failures.toNat =
        s.manager.failures.toNat + 1 := by
      rw [PinManager.recordFailure_failures, s.manager.failures_succ hbefore]
    have hcounted := h.counted hbefore
    have herase := Finset.pred_card_le_card_erase (s := inFlight pinOf s.history) (a := i)
    change guesses pinOf ((some i, .failureCounted) :: s.history) ≤
      (s.manager.recordFailure s.clock).failures.toNat +
        (inFlight pinOf ((some i, .failureCounted) :: s.history)).card
    rw [hcount, hflight, hfailures]
    omega

/-- A section that keeps within the limit. -/
theorem Limited.moves (h : Limited pinOf limit s) {i : ι} {phase : PairingPhase lib}
    {config : PairingServerConfig} {result : PairingResult lib} (hphase : s.phase i = phase)
    (hmove : PairingMoves config s.clock s.manager phase result) (hunforged : phase.Unforged pinOf)
    (hlimit : ∀ x ∈ phase.opening, pinOf x.clientSpake ≠ x.pin →
      s.manager.lockedUntil = none ∧
        s.manager.failures.toNat + (inFlight pinOf s.history).card <
          s.manager.maxFailures.toNat) : Limited pinOf limit (s.attempted i result) := by
  cases hmove with
  | quiet hneutral hfailing =>
    refine h.unrelated rfl rfl rfl (by rw [hphase]; exact hfailing) ?_
    intro o ho
    have := hneutral o ho
    cases o <;> simp_all [PairingObs.neutral, PairingObs.isReset, PairingObs.wrongGuess]
  | @lockExpired m' _ hcheck =>
    have hmax : m'.maxFailures = s.manager.maxFailures := by
      rw [← s.manager.isLocked_maxFailures s.clock, hcheck]
    exact h.reset hmax (by rw [hphase]; rfl) rfl rfl ⟨Nat.zero_le _, h.bounded⟩
  | takePin hstart =>
    refine h.unrelated (by simp) (by simp) (by simp) (by rw [hphase]; rfl) ?_
    intro o ho
    rcases List.mem_append.mp ho with ho | ho
    · split at ho
      · rw [List.mem_singleton.mp ho]
        simp [PairingObs.isReset, PairingObs.wrongGuess]
      · exact absurd ho List.not_mem_nil
    · rw [List.mem_singleton.mp ho]
      simp [PairingObs.isReset, PairingObs.wrongGuess]
  | @opened x key nonce ciphertext plaintext hopen =>
    have hright : pinOf x.clientSpake = x.pin := by
      by_contra hguess
      have hnone : lib.decrypt key nonce ciphertext = none := hunforged hguess
      rw [PairingLib.openPayload, hnone] at hopen
      split at hopen <;> exact absurd hopen (by simp)
    exact h.unrelated rfl rfl rfl (by rw [hphase]; rfl)
      (by simp [PairingObs.isReset, PairingObs.wrongGuess, hright])
  | notOpened hopen => exact h.notOpened (by rw [hphase]; rfl) (hlimit _ rfl)
  | countFailure => exact h.countFailure
  | signed =>
    exact h.unrelated rfl rfl rfl (by rw [hphase]; rfl)
      (by simp [PairingObs.isReset, PairingObs.wrongGuess])
  | @countSuccess _ _ fresh =>
    have hmax : (s.manager.recordSuccess s.clock fresh).maxFailures = s.manager.maxFailures := by
      simp only [PinManager.recordSuccess, PinManager.rotate]
    exact h.reset hmax (by rw [hphase]; rfl) rfl rfl ⟨Nat.zero_le _, Nat.zero_le _, h.bounded⟩

/-- A display of the PIN does not touch the counter. -/
theorem Limited.showPin (h : Limited pinOf limit s) (config : PairingServerConfig)
    (fresh : Fin 1000000) : Limited pinOf limit (s.step config (.showPin fresh)) := by
  simp only [step]
  by_cases hexpired : s.manager.Expired s.clock
  · rw [if_pos hexpired]
    refine ⟨by simpa using h.maxFailures, ⟨h.bounded.sinceReset_le, h.bounded⟩, h.waiting, ?_⟩
    simpa [guesses, inFlight, Run.sinceReset, PairingObs.isReset, PairingObs.wrongGuess] using
      h.counted
  · rw [if_neg hexpired]
    exact ⟨by simpa using h.maxFailures, h.bounded, h.waiting, by simpa using h.counted⟩

/-- A step that keeps within the limit. -/
theorem Limited.step (h : Limited pinOf limit s) (config : PairingServerConfig)
    {event : PairingEvent ι lib} (hunforged : Unforged pinOf s event)
    (hlimit : WithinLimit pinOf s event) : Limited pinOf limit (s.step config event) := by
  cases event with
  | advance duration => exact ⟨h.maxFailures, h.bounded, h.waiting, h.counted⟩
  | showPin fresh => exact h.showPin config fresh
  | attempt i input =>
    exact h.moves rfl (moves_handlePairing config s.clock input s.manager _) hunforged hlimit

end PairingServer

/-- **The lockout.** In every run in which each guess is made while no lockout is set and while
the failures counted and the wrong guesses in flight are fewer than `max_failures`, at most
`max_failures` wrong PINs are tried between two resets of the failure counter, whatever the
number of connections. -/
theorem guesses_limited [DecidableEq ι] (config : PairingServerConfig)
    {pinOf : List UInt8 → String} {maxFailures : UInt32} {ttl lockout now : ℕ}
    {fresh : Fin 1000000} {events : List (PairingEvent ι lib)}
    (hunforged : Run.Along (PairingServer.step config) (PairingServer.Unforged pinOf)
      (.start ttl maxFailures lockout now fresh) events)
    (hlimit : Run.Along (PairingServer.step config) (PairingServer.WithinLimit pinOf)
      (.start ttl maxFailures lockout now fresh) events)
    {window : List (Option ι × PairingObs)}
    (hwindow : window <:+: (events.foldl (PairingServer.step config)
      (.start ttl maxFailures lockout now fresh)).history)
    (hreset : ∀ e ∈ window, e.2.isReset = false) :
    window.countP (fun e => e.2.wrongGuess pinOf) ≤ maxFailures.toNat := by
  have h := (hunforged.and hlimit).invariant (PairingServer.Limited pinOf maxFailures)
    (fun s event hok h => h.step config hok.1 hok.2)
    (PairingServer.limited_start pinOf ttl maxFailures lockout now fresh)
  exact h.bounded.countP_le hwindow hreset

/-- Two guesses at once when the limit is two. -/
theorem guesses_limited_two :
    let events : List (PairingEvent (Fin 3) .symbolic) :=
      (symbolicAttempt 0 "000000" ++ symbolicAttempt 1 "111111") ++
        [.attempt 0 (symbolicInput .heartbeat), .attempt 1 (symbolicInput .heartbeat),
          .attempt 0 (symbolicInput .heartbeat), .attempt 1 (symbolicInput .heartbeat)] ++
        symbolicAttempt 2 "222222"
    (events.foldl (PairingServer.step ⟨"ca", "key"⟩) (.start 180 2 60 0 123456)).history.countP
      (fun e => e.2.wrongGuess symbolicPin) ≤ 2 :=
  guesses_limited ⟨"ca", "key"⟩ (by decide +kernel) (by decide +kernel) (List.infix_refl _)
    (by decide +kernel)

/-- Two connections that pass the lock check before either failure is counted each get a guess,
although the limit is one: no reset comes between them. -/
theorem guesses_exceed_limit :
    let events : List (PairingEvent (Fin 2) .symbolic) :=
      (symbolicAttempt 0 "000000" ++ symbolicAttempt 1 "111111") ++
        [.attempt 0 (symbolicInput .heartbeat), .attempt 1 (symbolicInput .heartbeat)]
    let s := events.foldl (PairingServer.step ⟨"ca", "key"⟩) (.start 180 1 60 0 123456)
    (∀ e ∈ s.history, e.2.isReset = false) ∧
      s.history.countP (fun e => e.2.wrongGuess symbolicPin) = 2 ∧
      s.manager.maxFailures = 1 := by
  decide +kernel

end SuperShare
