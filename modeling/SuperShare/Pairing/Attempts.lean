import SuperShare.Pairing.Handshake
import SuperShare.Lib.Run
import Mathlib.Logic.Function.Basic

/-!
# Concurrent pairing attempts

The pairing listener runs one `handle_pairing` for each connection, and all share the PIN
manager and the clock. Their sections come in any order, with the clock and the displays of
the PIN in between. The moves say what one section can do as far as the manager and the PIN
are concerned.
-/

namespace SuperShare

variable {ι : Type} {lib : PairingLib}

/-- The pairing listener with its connections, named by `ι`. -/
structure PairingServer (ι : Type) (lib : PairingLib) where
  manager : PinManager
  clock : ℕ
  phase : ι → PairingPhase lib
  /-- What the connections did, the newest first. A rotation by a display of the PIN belongs
  to none. No step reads it. -/
  history : List (Option ι × PairingObs)

/-- What happens next. -/
inductive PairingEvent (ι : Type) (lib : PairingLib) where
  /-- Time passes. -/
  | advance (duration : ℕ)
  /-- The PIN is displayed, which may rotate it. -/
  | showPin (fresh : Fin 1000000)
  /-- An attempt runs its next section. -/
  | attempt (i : ι) (input : PairingInput lib)

namespace PairingServer

/-- A listener with a fresh manager. -/
def start (ttl : ℕ) (maxFailures : UInt32) (lockout now : ℕ) (fresh : Fin 1000000) :
    PairingServer ι lib :=
  ⟨.withParams ttl maxFailures lockout now fresh, now, fun _ => .checkLock, []⟩

variable [DecidableEq ι]

/-- An attempt has run a section. -/
def attempted (s : PairingServer ι lib) (i : ι) (result : PairingResult lib) :
    PairingServer ι lib where
  manager := result.manager
  clock := s.clock
  phase := Function.update s.phase i result.phase
  history := (result.observed.reverse.map fun o => (some i, o)) ++ s.history

/-- One step. -/
def step (config : PairingServerConfig) (s : PairingServer ι lib) :
    PairingEvent ι lib → PairingServer ι lib
  | .advance duration => { s with clock := s.clock + duration }
  | .showPin fresh =>
      let current := s.manager.currentPin s.clock fresh
      { s with
        manager := current
        history :=
          if s.manager.Expired s.clock then (none, .rotated current.generation) :: s.history
          else s.history }
  | .attempt i input => s.attempted i (handlePairing config s.clock input s.manager (s.phase i))

end PairingServer

/-- The session of an attempt between taking the PIN and signing. -/
def PairingPhase.session : PairingPhase lib → Option PairingSession
  | writeSpake x _ _ => some x
  | readConfirm x _ => some x
  | openConfirm x _ _ _ => some x
  | sign x _ _ => some x
  | _ => none

/-- The session of an attempt that signs a certificate next: the request is well formed, and the
signature is made. -/
def PairingPhase.signing (config : PairingServerConfig) : PairingPhase lib → Option PairingSession
  | sign x _ plaintext =>
      match ProvisionRequest.decode plaintext with
      | .error _ => none
      | .ok provision =>
          match lib.signClientCert config.caCertPem config.caKeyPem provision.csrPem with
          | .error _ => none
          | .ok _ => some x
  | _ => none

/-- An attempt that signs has its session. -/
theorem PairingPhase.session_of_signing {config : PairingServerConfig} {phase : PairingPhase lib}
    {x : PairingSession} (h : phase.signing config = some x) : phase.session = some x := by
  cases phase with
  | sign y key plaintext =>
    simp only [signing] at h
    split at h
    · exact absurd h (by simp)
    · split at h
      · exact absurd h (by simp)
      · exact h
  | _ => exact absurd h (by simp [signing])

/-- Observations that concern neither the PIN nor the failure counter. -/
def PairingObs.neutral : PairingObs → Bool
  | received _ | wrote _ | pairedSent _ => true
  | _ => false

/-- What a section can do, one case for each kind of change to the manager or to what the
attempt has under the PIN. -/
inductive PairingMoves (config : PairingServerConfig) (now : ℕ) (m : PinManager) :
    PairingPhase lib → PairingResult lib → Prop
  /-- The manager is left alone, and the session is kept or given up. -/
  | quiet {phase phase' : PairingPhase lib} {observed : List PairingObs}
      (hneutral : ∀ o ∈ observed, o.neutral = true)
      (hfailing : phase.failing = false) (hfailing' : phase'.failing = false)
      (hsession : phase'.session = none ∨ phase'.session = phase.session) :
      PairingMoves config now m phase ⟨m, phase', observed⟩
  | lockExpired {m' : PinManager} (hlocked : m.lockedUntil ≠ none)
      (hcheck : m.isLocked now = (false, m')) :
      PairingMoves config now m .checkLock ⟨m', .readRequest, [.lockExpired]⟩
  | takePin {clientName : String} {clientSpake ourSpake : List UInt8} {exchange : lib.Exchange}
      {fresh : Fin 1000000}
      (hstart : ∃ seed, lib.start (m.currentPin now fresh).pin seed = (exchange, ourSpake)) :
      PairingMoves config now m (.takePin clientName clientSpake)
        ⟨m.currentPin now fresh,
          .writeSpake ⟨clientName, clientSpake, (m.currentPin now fresh).pin,
            (m.currentPin now fresh).generation, (m.currentPin now fresh).generatedAt, now⟩
            exchange ourSpake,
          (if m.Expired now then [.rotated (m.currentPin now fresh).generation] else []) ++
            [.tookPin (m.currentPin now fresh).pin (m.currentPin now fresh).generation]⟩
  | opened {x : PairingSession} {key : lib.Key} {nonce ciphertext plaintext : List UInt8}
      (hopen : lib.openPayload key nonce ciphertext = .ok plaintext) :
      PairingMoves config now m (.openConfirm x key nonce ciphertext)
        ⟨m, .sign x key plaintext, [.opened x.clientSpake x.pin true]⟩
  | notOpened {x : PairingSession} {key : lib.Key} {nonce ciphertext : List UInt8} {e : OpenError}
      (hopen : lib.openPayload key nonce ciphertext = .error e) :
      PairingMoves config now m (.openConfirm x key nonce ciphertext)
        ⟨m, .countFailure e, [.opened x.clientSpake x.pin false]⟩
  | countFailure {e : OpenError} :
      PairingMoves config now m (.countFailure e)
        ⟨m.recordFailure now, .failed (.pinVerification e), [.failureCounted]⟩
  | signed {x : PairingSession} {key : lib.Key} {plaintext : List UInt8}
      {phase' : PairingPhase lib} {certPem : String}
      (hsigning : (PairingPhase.sign x key plaintext).signing config = some x)
      (hfailing' : phase'.failing = false) (hsession' : phase'.session = none) :
      PairingMoves config now m (.sign x key plaintext) ⟨m, phase', [.signed x.generation certPem]⟩
  | countSuccess {name fingerprint : String} {fresh : Fin 1000000} :
      PairingMoves config now m (.countSuccess name fingerprint)
        ⟨m.recordSuccess now fresh, .sendPaired name fingerprint,
          [.successCounted, .rotated (m.generation + 1)]⟩

/-- A section that leaves the manager alone and the attempt without a session. -/
theorem PairingMoves.giveUp {config : PairingServerConfig} {now : ℕ} {m : PinManager}
    {phase phase' : PairingPhase lib} {observed : List PairingObs}
    (hneutral : ∀ o ∈ observed, o.neutral = true) (hfailing : phase.failing = false)
    (hidle : phase'.failing = false ∧ phase'.session = none) :
    PairingMoves config now m phase ⟨m, phase', observed⟩ :=
  .quiet hneutral hfailing hidle.1 (.inl hidle.2)

/-- Every section is one of the moves. -/
theorem moves_handlePairing (config : PairingServerConfig) (now : ℕ) (input : PairingInput lib)
    (m : PinManager) (phase : PairingPhase lib) :
    PairingMoves config now m phase (handlePairing config now input m phase) := by
  cases phase with
  | checkLock =>
    simp only [handlePairing]
    cases hlocked : (m.isLocked now).1 with
    | true =>
      rw [if_pos rfl, m.isLocked_of_locked now hlocked]
      exact .giveUp (by simp) rfl ⟨rfl, rfl⟩
    | false =>
      rw [if_neg (by simp)]
      by_cases hnone : m.lockedUntil = none
      · have hsame : (m.isLocked now).2 = m := by
          rw [PinManager.isLocked, hnone]
        rw [if_pos hnone, hsame]
        exact .giveUp (by simp) rfl ⟨rfl, rfl⟩
      · rw [if_neg hnone]
        exact .lockExpired hnone (Prod.ext hlocked rfl)
  | readRequest =>
    simp only [handlePairing]
    split
    · exact .giveUp (by simp) rfl ⟨rfl, rfl⟩
    · split
      · split <;> exact .giveUp (by simp [PairingObs.neutral]) rfl ⟨rfl, rfl⟩
      · exact .giveUp (by simp [PairingObs.neutral]) rfl ⟨rfl, rfl⟩
  | readSpake clientName =>
    simp only [handlePairing]
    split
    · exact .giveUp (by simp) rfl ⟨rfl, rfl⟩
    · split <;> exact .giveUp (by simp [PairingObs.neutral]) rfl ⟨rfl, rfl⟩
  | takePin clientName clientSpake => exact .takePin ⟨input.seed, rfl⟩
  | writeSpake x exchange ourSpake =>
    simp only [handlePairing]
    split
    · split
      · exact .giveUp (by simp [PairingObs.neutral]) rfl ⟨rfl, rfl⟩
      · exact .quiet (by simp [PairingObs.neutral]) rfl rfl (.inr rfl)
    · exact .giveUp (by simp) rfl ⟨rfl, rfl⟩
  | readConfirm x key =>
    simp only [handlePairing]
    split
    · exact .giveUp (by simp) rfl ⟨rfl, rfl⟩
    · split
      · exact .quiet (by simp [PairingObs.neutral]) rfl rfl (.inr rfl)
      · exact .giveUp (by simp [PairingObs.neutral]) rfl ⟨rfl, rfl⟩
  | openConfirm x key nonce ciphertext =>
    simp only [handlePairing]
    split
    · rename_i e hopen
      exact .notOpened hopen
    · rename_i plaintext hopen
      exact .opened hopen
  | countFailure e => exact .countFailure
  | sign x key plaintext =>
    simp only [handlePairing]
    split
    · exact .giveUp (by simp) rfl ⟨rfl, rfl⟩
    · rename_i provision hdecode
      split
      · exact .giveUp (by simp) rfl ⟨rfl, rfl⟩
      · rename_i certPem hsign
        have hsigning : (PairingPhase.sign x key plaintext).signing config = some x := by
          simp [PairingPhase.signing, hdecode, hsign]
        split
        · exact .signed hsigning rfl rfl
        · split <;> exact .signed hsigning rfl rfl
  | writeResult name fingerprint nonce ciphertext =>
    simp only [handlePairing]
    split
    · exact .giveUp (by simp [PairingObs.neutral]) rfl ⟨rfl, rfl⟩
    · exact .giveUp (by simp) rfl ⟨rfl, rfl⟩
  | countSuccess name fingerprint => exact .countSuccess
  | sendPaired name fingerprint =>
    exact .giveUp (by simp [PairingObs.neutral]) rfl ⟨rfl, rfl⟩
  | done => exact .giveUp (by simp) rfl ⟨rfl, rfl⟩
  | failed e =>
    simp only [handlePairing]
    split <;> exact .giveUp (by simp [PairingObs.neutral]) rfl ⟨rfl, rfl⟩
  | closed => exact .giveUp (by simp) rfl ⟨rfl, rfl⟩

/-- The PIN that a symbolic exchange message carries. -/
def symbolicPin (msg : List UInt8) : String := String.ofList (msg.map fun b => Char.ofNat b.toNat)

/-- A symbolic instance of the third-party functions, for runs on concrete inputs: a message
carries its PIN, a key is the pair of the PIN and the peer's message, and it opens what was
sealed under the same PIN. -/
def PairingLib.symbolic : PairingLib where
  Seed := Unit
  Exchange := String
  Key := String × List UInt8
  start pin _ := (pin, pin.toList.map fun c => UInt8.ofNat c.toNat)
  finish pin msg := .ok (pin, msg)
  decrypt key _ ciphertext := if symbolicPin key.2 = key.1 then some ciphertext else none
  encrypt _ _ plaintext := .ok plaintext
  signClientCert _ _ csrPem := .ok ("signed " ++ csrPem)
  certFingerprint certPem := .ok ("fingerprint of " ++ certPem)
  frameText _ := "invalid frame"
  ioText := "connection reset"
  bincodeText _ := "invalid payload"
  debugText _ := "another message"

/-- An input whose read gives a message and whose write succeeds. -/
def symbolicInput (msg : Message) : PairingInput .symbolic :=
  ⟨.ok (some msg), true, (), 654321, Vector.replicate 12 0, 0⟩

/-- The sections of an attempt up to the decryption of its `PairConfirm`, for a peer that uses
`pin`. The confirmation asks for a certificate and names no device. -/
def symbolicAttempt (i : ι) (pin : String) : List (PairingEvent ι .symbolic) :=
  let spake := pin.toList.map fun c => UInt8.ofNat c.toNat
  let provision := Bincode.encodeString "csr" ++ [0]
  [.heartbeat, .pairRequest 1 "laptop", .pairSpake spake, .heartbeat, .heartbeat,
    .pairConfirm (List.replicate 12 0) provision].map fun msg => .attempt i (symbolicInput msg)

end SuperShare
