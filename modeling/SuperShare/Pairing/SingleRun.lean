import Mathlib.Data.List.Induction
import SuperShare.Pairing.Handshake

/-!
# One pairing run

What a single run of `handle_pairing` does to the manager and for the peer, for every manager
and every behaviour of the peer. The record of a run is read through a summary, and the facts
about each section say which summary the run has when it gets there.
-/

namespace SuperShare

variable {lib : PairingLib}

/-- What a run has done so far. -/
structure PairingSummary where
  /-- The messages read, in order. -/
  received : List (Option Message)
  /-- The PINs taken from the manager. -/
  pins : List String
  /-- For each `PairConfirm` that was decrypted, whether it opened. -/
  opens : List Bool
  /-- The certificates signed. -/
  certs : List String
  /-- A `PairResult` was written. -/
  resultWritten : Bool
  /-- The records sent on `on_paired`. -/
  clients : List PairedClient

/-- Nothing was done yet. -/
def PairingSummary.empty : PairingSummary := ⟨[], [], [], [], false, []⟩

/-- Take one observation into account. -/
def PairingSummary.add (did : PairingSummary) : PairingObs → PairingSummary
  | .received msg => { did with received := did.received ++ [msg] }
  | .tookPin pin _ => { did with pins := did.pins ++ [pin] }
  | .opened _ _ success => { did with opens := did.opens ++ [success] }
  | .signed _ certPem => { did with certs := did.certs ++ [certPem] }
  | .wrote (.pairResult _ _) => { did with resultWritten := true }
  | .pairedSent client => { did with clients := did.clients ++ [client] }
  | _ => did

/-- The summary of a run. -/
def PairingRun.did (r : PairingRun lib) : PairingSummary :=
  r.trace.foldl PairingSummary.add .empty

/-- The section that takes the PIN is the fourth of a run. It comes after the lock check and the
reads of the two greetings; `events` are those after the lock check. -/
def takingPin (events : List (ℕ × PairingInput lib)) : Option (ℕ × PairingInput lib) := events[2]?

/-- The PIN that a run takes at an event. -/
def PinManager.pinAt (checked : PinManager) (taken : ℕ × PairingInput lib) : String :=
  (checked.currentPin taken.1 taken.2.fresh).pin

/-- The peer has authenticated: it sent a `PairRequest` of this version, a `PairSpake` and a
`PairConfirm`, in this order and nothing else, the `PairConfirm` opened under the key that the
PIN taken from the manager and the `PairSpake` give, and it held the request that the
certificate was signed for. -/
def Authenticated (config : PairingServerConfig) (checked : PinManager)
    (events : List (ℕ × PairingInput lib)) (did : PairingSummary) (certPem : String) : Prop :=
  ∃ name clientSpake nonce ciphertext,
    did.received = [some (.pairRequest pairProtocolVersion name), some (.pairSpake clientSpake),
      some (.pairConfirm nonce ciphertext)] ∧
    ∃ taken ∈ takingPin events, ∃ key plaintext provision,
      did.pins = [checked.pinAt taken] ∧
      lib.finish (lib.start (checked.pinAt taken) taken.2.seed).1 clientSpake = .ok key ∧
      lib.openPayload key nonce ciphertext = .ok plaintext ∧
      ProvisionRequest.decode plaintext = .ok provision ∧
      lib.signClientCert config.caCertPem config.caKeyPem provision.csrPem = .ok certPem

/-- The PIN is the one after the lock check, or its successor if it had expired when the run took
its PIN. -/
def PinKept (events : List (ℕ × PairingInput lib)) (checked m : PinManager) : Prop :=
  (m.pin = checked.pin ∧ m.generation = checked.generation) ∨
    ∃ taken ∈ takingPin events, checked.Expired taken.1 ∧ m.pin = generatePin taken.2.fresh ∧
      m.generation = checked.generation + 1

/-- What holds of a run that started with the manager `checked` after its lock check.
`pending` says that it has yet to count a failure. -/
structure PairingOutcome (config : PairingServerConfig) (locked : Bool)
    (events : List (ℕ × PairingInput lib)) (checked m : PinManager) (did : PairingSummary)
    (pending : Bool) : Prop where
  /-- A certificate is signed at most once, and only for an authenticated peer. -/
  certs : did.certs.length ≤ 1
  signed : ∀ certPem ∈ did.certs,
    locked = false ∧ Authenticated config checked events did certPem
  /-- A `PairConfirm` that did not open is counted. -/
  counted : false ∈ did.opens → pending = false →
    m.failures.toNat = checked.failures.toNat + 1
  /-- Otherwise the counter does not grow. -/
  uncounted : false ∉ did.opens →
    m.failures = checked.failures ∨ (did.resultWritten = true ∧ m.failures = 0)
  /-- The PIN is rotated and failures and lock are cleared only after the result is written. -/
  pin : did.resultWritten = false → PinKept events checked m
  failures : did.resultWritten = false → m.failures = checked.failures ∨
    m.failures.toNat = checked.failures.toNat + 1
  lock : did.resultWritten = false →
    m.lockedUntil = checked.lockedUntil ∨ m.lockedUntil.isSome = true
  /-- At most one record is sent, with the fingerprint of the certificate that was signed. -/
  clients : did.clients.length ≤ 1
  fingerprint : ∀ client ∈ did.clients,
    ∃ certPem ∈ did.certs, lib.certFingerprint certPem = .ok client.certFingerprint

/-- The manager from which the session took its PIN. -/
def Took (events : List (ℕ × PairingInput lib)) (checked m : PinManager) (x : PairingSession) :
    Prop :=
  ∃ taken ∈ takingPin events, m = checked.currentPin taken.1 taken.2.fresh ∧
    x.pin = checked.pinAt taken

/-- The exchange comes from the PIN of the session. -/
def Started (events : List (ℕ × PairingInput lib)) (x : PairingSession) (exchange : lib.Exchange) :
    Prop :=
  ∃ taken ∈ takingPin events, exchange = (lib.start x.pin taken.2.seed).1

/-- The key comes from the PIN of the session and the peer's message. -/
def Derived (events : List (ℕ × PairingInput lib)) (x : PairingSession) (key : lib.Key) : Prop :=
  ∃ exchange, Started events x exchange ∧ lib.finish exchange x.clientSpake = .ok key

/-- The messages that a session has read when it takes the PIN. -/
def PairingSession.greetings (x : PairingSession) : List (Option Message) :=
  [some (.pairRequest pairProtocolVersion x.clientName), some (.pairSpake x.clientSpake)]

/-- What is known of a run by the section it stands at: how the manager `m` came from the
manager `checked` after the lock check, and what the run did. It has handled `k` of the events. -/
def PairingFacts (config : PairingServerConfig) (locked : Bool)
    (events : List (ℕ × PairingInput lib)) (k : ℕ) (checked m : PinManager)
    (did : PairingSummary) : PairingPhase lib → Prop
  | .checkLock => False
  | .readRequest => k = 0 ∧ locked = false ∧ m = checked ∧ did = .empty
  | .readSpake clientName => k = 1 ∧ locked = false ∧ m = checked ∧
      did = ⟨[some (.pairRequest pairProtocolVersion clientName)], [], [], [], false, []⟩
  | .takePin clientName clientSpake => k = 2 ∧ locked = false ∧ m = checked ∧
      did = ⟨[some (.pairRequest pairProtocolVersion clientName), some (.pairSpake clientSpake)],
        [], [], [], false, []⟩
  | .writeSpake x exchange _ => locked = false ∧ Took events checked m x ∧
      Started events x exchange ∧ did = ⟨x.greetings, [x.pin], [], [], false, []⟩
  | .readConfirm x key => locked = false ∧ Took events checked m x ∧ Derived events x key ∧
      did = ⟨x.greetings, [x.pin], [], [], false, []⟩
  | .openConfirm x key nonce ciphertext => locked = false ∧ Took events checked m x ∧
      Derived events x key ∧
      did = ⟨x.greetings ++ [some (.pairConfirm nonce ciphertext)], [x.pin], [], [], false, []⟩
  | .countFailure _ => locked = false ∧ ∃ x received, Took events checked m x ∧
      did = ⟨received, [x.pin], [false], [], false, []⟩
  | .sign x key plaintext => locked = false ∧ Took events checked m x ∧ Derived events x key ∧
      ∃ nonce ciphertext, lib.openPayload key nonce ciphertext = .ok plaintext ∧
        did = ⟨x.greetings ++ [some (.pairConfirm nonce ciphertext)], [x.pin], [true], [],
          false, []⟩
  | .writeResult _ fingerprint _ _ => ∃ x received certPem, Took events checked m x ∧
      locked = false ∧ lib.certFingerprint certPem = .ok fingerprint ∧
      Authenticated config checked events did certPem ∧
      did = ⟨received, [x.pin], [true], [certPem], false, []⟩
  | .countSuccess _ fingerprint => ∃ x received certPem, Took events checked m x ∧
      locked = false ∧ lib.certFingerprint certPem = .ok fingerprint ∧
      Authenticated config checked events did certPem ∧
      did = ⟨received, [x.pin], [true], [certPem], true, []⟩
  | .sendPaired _ fingerprint => ∃ pins received certPem, m.failures = 0 ∧
      locked = false ∧ lib.certFingerprint certPem = .ok fingerprint ∧
      Authenticated config checked events did certPem ∧
      did = ⟨received, pins, [true], [certPem], true, []⟩
  | .done | .failed _ | .closed =>
      PairingOutcome config locked events checked m did false

variable {config : PairingServerConfig} {locked : Bool} {checked m : PinManager}
  {events : List (ℕ × PairingInput lib)} {k : ℕ} {did : PairingSummary} {x : PairingSession}

/-- A session that has taken its PIN has replaced only an expired one, and changed nothing else. -/
theorem Took.kept (h : Took events checked m x) : PinKept events checked m ∧
    m.failures = checked.failures ∧ m.lockedUntil = checked.lockedUntil := by
  obtain ⟨taken, htaken, rfl, -⟩ := h
  refine ⟨?_, by simp, by simp⟩
  unfold PinManager.currentPin
  by_cases hexpired : checked.Expired taken.1
  · rw [if_pos hexpired]
    exact .inr ⟨taken, htaken, hexpired, rfl, rfl⟩
  · rw [if_neg hexpired]
    exact .inl ⟨rfl, rfl⟩

/-- The session's key is that of the PIN and the numbers at the one event at which it was taken. -/
theorem Took.derived {key : lib.Key} (h : Took events checked m x) (hkey : Derived events x key) :
    ∃ taken ∈ takingPin events, x.pin = checked.pinAt taken ∧
      lib.finish (lib.start (checked.pinAt taken) taken.2.seed).1 x.clientSpake = .ok key := by
  obtain ⟨taken, htaken, -, hpin⟩ := h
  obtain ⟨exchange, ⟨taken', htaken', rfl⟩, hkey⟩ := hkey
  obtain rfl : taken = taken' := Option.mem_unique htaken htaken'
  exact ⟨taken, htaken, hpin, hpin ▸ hkey⟩

/-- Whether the peer has authenticated depends on the messages read and the PIN taken. -/
theorem Authenticated.congr {did' : PairingSummary} {certPem : String}
    (h : Authenticated config checked events did certPem) (hreceived : did'.received = did.received)
    (hpins : did'.pins = did.pins) : Authenticated config checked events did' certPem := by
  rw [Authenticated, hreceived, hpins]
  exact h

/-- A run that has signed nothing and had no `PairConfirm` fail to open. -/
theorem outcome_unsigned {received : List (Option Message)} {pins : List String}
    {opens : List Bool} {pending : Bool} (hopens : false ∉ opens)
    (hkept : PinKept events checked m ∧ m.failures = checked.failures ∧
      m.lockedUntil = checked.lockedUntil) :
    PairingOutcome config locked events checked m ⟨received, pins, opens, [], false, []⟩
      pending where
  certs := Nat.zero_le 1
  signed := by simp
  counted hfalse := absurd hfalse hopens
  uncounted _ := .inl hkept.2.1
  pin _ := hkept.1
  failures _ := .inl hkept.2.1
  lock _ := .inl hkept.2.2
  clients := Nat.zero_le 1
  fingerprint := by simp

/-- A run that has signed, and not yet written the result. -/
theorem outcome_signed {received : List (Option Message)} {pins : List String} {certPem : String}
    {pending : Bool} (hunlocked : locked = false)
    (hauth : Authenticated config checked events ⟨received, pins, [true], [certPem], false, []⟩
      certPem)
    (hkept : PinKept events checked m ∧ m.failures = checked.failures ∧
      m.lockedUntil = checked.lockedUntil) :
    PairingOutcome config locked events checked m
      ⟨received, pins, [true], [certPem], false, []⟩ pending where
  certs := Nat.le_refl 1
  signed := by simpa using ⟨hunlocked, hauth⟩
  counted hfalse := absurd hfalse (by simp)
  uncounted _ := .inl hkept.2.1
  pin _ := hkept.1
  failures _ := .inl hkept.2.1
  lock _ := .inl hkept.2.2
  clients := Nat.zero_le 1
  fingerprint := by simp

/-- A run that has written the result. -/
theorem outcome_written {received : List (Option Message)} {pins : List String} {certPem : String}
    {clients : List PairedClient} {pending : Bool} (hunlocked : locked = false)
    (hauth : Authenticated config checked events ⟨received, pins, [true], [certPem], true, clients⟩
      certPem) (hfailures : m.failures = checked.failures ∨ m.failures = 0)
    (hclients : clients.length ≤ 1)
    (hfingerprint : ∀ client ∈ clients, lib.certFingerprint certPem = .ok client.certFingerprint) :
    PairingOutcome config locked events checked m
      ⟨received, pins, [true], [certPem], true, clients⟩ pending where
  certs := Nat.le_refl 1
  signed := by simpa using ⟨hunlocked, hauth⟩
  counted hfalse := absurd hfalse (by simp)
  uncounted _ := hfailures.imp_right fun h => ⟨rfl, h⟩
  pin hwritten := absurd hwritten (by simp)
  failures hwritten := absurd hwritten (by simp)
  lock hwritten := absurd hwritten (by simp)
  clients := hclients
  fingerprint client hclient := ⟨certPem, List.mem_singleton_self _, hfingerprint client hclient⟩

/-- What is known at a section gives the outcome so far. -/
theorem PairingFacts.outcome {phase : PairingPhase lib}
    (h : PairingFacts config locked events k checked m did phase) :
    PairingOutcome config locked events checked m did phase.failing := by
  cases phase with
  | checkLock => exact h.elim
  | readRequest =>
    obtain ⟨-, -, rfl, rfl⟩ := h
    exact outcome_unsigned (by simp) ⟨.inl ⟨rfl, rfl⟩, rfl, rfl⟩
  | readSpake clientName =>
    obtain ⟨-, -, rfl, rfl⟩ := h
    exact outcome_unsigned (by simp) ⟨.inl ⟨rfl, rfl⟩, rfl, rfl⟩
  | takePin clientName clientSpake =>
    obtain ⟨-, -, rfl, rfl⟩ := h
    exact outcome_unsigned (by simp) ⟨.inl ⟨rfl, rfl⟩, rfl, rfl⟩
  | writeSpake x exchange ourSpake =>
    obtain ⟨-, htook, -, rfl⟩ := h
    exact outcome_unsigned (by simp) htook.kept
  | readConfirm x key =>
    obtain ⟨-, htook, -, rfl⟩ := h
    exact outcome_unsigned (by simp) htook.kept
  | openConfirm x key nonce ciphertext =>
    obtain ⟨-, htook, -, rfl⟩ := h
    exact outcome_unsigned (by simp) htook.kept
  | countFailure e =>
    obtain ⟨-, x, received, htook, rfl⟩ := h
    obtain ⟨hpin, hfailures, hlock⟩ := htook.kept
    exact {
      certs := Nat.zero_le 1
      signed := by simp
      counted := fun _ hpending => absurd hpending (by simp [PairingPhase.failing])
      uncounted := fun hnone => absurd hnone (by simp)
      pin := fun _ => hpin
      failures := fun _ => .inl hfailures
      lock := fun _ => .inl hlock
      clients := Nat.zero_le 1
      fingerprint := by simp }
  | sign x key plaintext =>
    obtain ⟨-, htook, -, nonce, ciphertext, -, rfl⟩ := h
    exact outcome_unsigned (by simp) htook.kept
  | writeResult name fingerprint nonce ciphertext =>
    obtain ⟨x, received, certPem, htook, hunlocked, -, hauth, rfl⟩ := h
    exact outcome_signed hunlocked hauth htook.kept
  | countSuccess name fingerprint =>
    obtain ⟨x, received, certPem, htook, hunlocked, -, hauth, rfl⟩ := h
    exact outcome_written hunlocked hauth (.inl htook.kept.2.1) (Nat.zero_le 1) (by simp)
  | sendPaired name fingerprint =>
    obtain ⟨pins, received, certPem, hfailures, hunlocked, -, hauth, rfl⟩ := h
    exact outcome_written hunlocked hauth (.inr hfailures) (Nat.zero_le 1) (by simp)
  | done => exact h
  | failed e => exact h
  | closed => exact h

/-- A failure that is counted. -/
theorem outcome_counted {received : List (Option Message)} {pins : List String} {now : ℕ}
    (hchecked : checked.lockedUntil = none)
    (hkept : PinKept events checked m ∧ m.failures = checked.failures ∧
      m.lockedUntil = checked.lockedUntil) :
    PairingOutcome config locked events checked (m.recordFailure now)
      ⟨received, pins, [false], [], false, []⟩ false where
  certs := Nat.zero_le 1
  signed := by simp
  counted _ _ := by
    rw [PinManager.recordFailure_failures, hkept.2.1, checked.failures_succ hchecked]
  uncounted hnone := absurd hnone (by simp)
  pin _ := by
    rw [PinKept, PinManager.recordFailure_pin, PinManager.recordFailure_generation]
    exact hkept.1
  failures _ := .inr (by
    rw [PinManager.recordFailure_failures, hkept.2.1, checked.failures_succ hchecked])
  lock _ := by
    unfold PinManager.recordFailure
    split
    · exact .inr rfl
    · exact .inl hkept.2.2
  clients := Nat.zero_le 1
  fingerprint := by simp

/-- A manager that nobody has touched is as it was. -/
theorem kept_self (events : List (ℕ × PairingInput lib)) (m : PinManager) :
    PinKept events m m ∧ m.failures = m.failures ∧ m.lockedUntil = m.lockedUntil :=
  ⟨.inl ⟨rfl, rfl⟩, rfl, rfl⟩

/-- The next section finds what it needs and leaves what is known at the one after it. -/
theorem PairingFacts.step {phase : PairingPhase lib}
    (h : PairingFacts config locked events k checked m did phase)
    (hchecked : locked = false → checked.lockedUntil = none) {event : ℕ × PairingInput lib}
    (hevent : events[k]? = some event) :
    PairingFacts config locked events (k + 1) checked
      (handlePairing config event.1 event.2 m phase).manager
      ((handlePairing config event.1 event.2 m phase).observed.foldl PairingSummary.add did)
      (handlePairing config event.1 event.2 m phase).phase := by
  cases phase with
  | checkLock => exact h.elim
  | readRequest =>
    obtain ⟨rfl, hunlocked, rfl, rfl⟩ := h
    have hkept := kept_self events m
    simp only [handlePairing]
    split
    · exact outcome_unsigned (by simp) hkept
    · split
      · split
        · exact outcome_unsigned List.not_mem_nil hkept
        · rename_i version name _ hversion
          obtain rfl : version = pairProtocolVersion := not_not.mp hversion
          exact ⟨rfl, hunlocked, rfl, rfl⟩
      · exact outcome_unsigned List.not_mem_nil hkept
  | readSpake clientName =>
    obtain ⟨rfl, hunlocked, rfl, rfl⟩ := h
    have hkept := kept_self events m
    simp only [handlePairing]
    split
    · exact outcome_unsigned (by simp) hkept
    · split
      · exact ⟨rfl, hunlocked, rfl, rfl⟩
      · exact outcome_unsigned (by simp) hkept
  | takePin clientName clientSpake =>
    obtain ⟨rfl, hunlocked, rfl, rfl⟩ := h
    refine ⟨hunlocked, ⟨event, hevent, rfl, rfl⟩, ⟨event, hevent, rfl⟩, ?_⟩
    simp only [handlePairing]
    by_cases hexpired : m.Expired event.1
    · rw [if_pos hexpired]
      rfl
    · rw [if_neg hexpired]
      rfl
  | writeSpake x exchange ourSpake =>
    obtain ⟨hunlocked, htook, hstarted, rfl⟩ := h
    simp only [handlePairing]
    split
    · split
      · exact outcome_unsigned (by simp) htook.kept
      · rename_i key hkey
        exact ⟨hunlocked, htook, ⟨exchange, hstarted, hkey⟩, rfl⟩
    · exact outcome_unsigned (by simp) htook.kept
  | readConfirm x key =>
    obtain ⟨hunlocked, htook, hderived, rfl⟩ := h
    simp only [handlePairing]
    split
    · exact outcome_unsigned (by simp) htook.kept
    · split
      · exact ⟨hunlocked, htook, hderived, rfl⟩
      · exact outcome_unsigned (by simp) htook.kept
  | openConfirm x key nonce ciphertext =>
    obtain ⟨hunlocked, htook, hderived, rfl⟩ := h
    simp only [handlePairing]
    split
    · exact ⟨hunlocked, x, _, htook, rfl⟩
    · rename_i plaintext hopen
      exact ⟨hunlocked, htook, hderived, nonce, ciphertext, hopen, rfl⟩
  | countFailure e =>
    obtain ⟨hunlocked, x, received, htook, rfl⟩ := h
    exact outcome_counted (hchecked hunlocked) htook.kept
  | sign x key plaintext =>
    obtain ⟨hunlocked, htook, hderived, nonce, ciphertext, hopen, rfl⟩ := h
    simp only [handlePairing]
    split
    · exact outcome_unsigned (by simp) htook.kept
    · rename_i provision hdecode
      split
      · exact outcome_unsigned (by simp) htook.kept
      · rename_i certPem hsign
        obtain ⟨taken, htaken, hpin, hfinish⟩ := htook.derived hderived
        have hauth : Authenticated config checked events
            ⟨x.greetings ++ [some (.pairConfirm nonce ciphertext)], [x.pin], [true], [certPem],
              false, []⟩ certPem := by
          refine ⟨x.clientName, x.clientSpake, nonce, ciphertext, rfl, taken, htaken, key,
            plaintext, provision, ?_, hfinish, hopen, hdecode, hsign⟩
          rw [hpin]
        split
        · exact outcome_signed hunlocked hauth htook.kept
        · rename_i fingerprint hfingerprint
          split
          · exact outcome_signed hunlocked hauth htook.kept
          · exact ⟨x, _, certPem, htook, hunlocked, hfingerprint, hauth, rfl⟩
  | writeResult name fingerprint nonce ciphertext =>
    obtain ⟨x, received, certPem, htook, hunlocked, hfingerprint, hauth, rfl⟩ := h
    simp only [handlePairing]
    split
    · exact ⟨x, received, certPem, htook, hunlocked, hfingerprint, hauth.congr rfl rfl, rfl⟩
    · exact outcome_signed hunlocked hauth htook.kept
  | countSuccess name fingerprint =>
    obtain ⟨x, received, certPem, htook, hunlocked, hfingerprint, hauth, rfl⟩ := h
    exact ⟨[x.pin], received, certPem, rfl, hunlocked, hfingerprint, hauth, rfl⟩
  | sendPaired name fingerprint =>
    obtain ⟨pins, received, certPem, hfailures, hunlocked, hfingerprint, hauth, rfl⟩ := h
    refine outcome_written hunlocked (hauth.congr rfl rfl) (.inr hfailures) (Nat.le_refl 1) ?_
    simpa using hfingerprint
  | done => exact h
  | failed e =>
    simp only [handlePairing]
    split <;> exact h
  | closed => exact h

/-- A `PairConfirm` that did not open is counted once the next section has run: it is the section
that counts it, or it leaves the manager as it is. -/
theorem PairingFacts.counted_next {phase : PairingPhase lib}
    (h : PairingFacts config locked events k checked m did phase)
    (hchecked : locked = false → checked.lockedUntil = none) (now : ℕ) (input : PairingInput lib)
    (hfalse : false ∈ did.opens) :
    (handlePairing config now input m phase).manager.failures.toNat =
      checked.failures.toNat + 1 := by
  cases phase with
  | checkLock => exact h.elim
  | readRequest | readSpake clientName | takePin clientName clientSpake =>
    obtain ⟨-, -, -, rfl⟩ := h
    exact absurd hfalse List.not_mem_nil
  | writeSpake x exchange ourSpake | readConfirm x key | openConfirm x key nonce ciphertext =>
    obtain ⟨-, -, -, rfl⟩ := h
    exact absurd hfalse List.not_mem_nil
  | countFailure e =>
    obtain ⟨hunlocked, x, received, htook, rfl⟩ := h
    have hcounted : PairingOutcome config locked events checked (m.recordFailure now)
        ⟨received, [x.pin], [false], [], false, []⟩ false :=
      outcome_counted (hchecked hunlocked) htook.kept
    exact hcounted.counted hfalse rfl
  | sign x key plaintext =>
    obtain ⟨-, -, -, nonce, ciphertext, -, rfl⟩ := h
    exact absurd hfalse (by simp)
  | writeResult name fingerprint nonce ciphertext | countSuccess name fingerprint
  | sendPaired name fingerprint =>
    obtain ⟨_, _, _, -, -, -, -, rfl⟩ := h
    exact absurd hfalse (by simp)
  | done | closed => exact h.counted hfalse rfl
  | failed e =>
    simp only [handlePairing]
    exact h.counted hfalse rfl

/-- The lock check leaves what is known at the first read, or has ended the run. -/
theorem pairingFacts_start (config : PairingServerConfig) (m : PinManager)
    (first : ℕ × PairingInput lib) (events : List (ℕ × PairingInput lib)) :
    let r := (PairingRun.start m).step config first
    PairingFacts config (m.isLocked first.1).1 events 0 (m.isLocked first.1).2 r.manager r.did
      r.phase := by
  intro r
  cases hlocked : (m.isLocked first.1).1 with
  | true =>
    simp only [r, PairingRun.step, PairingRun.start, handlePairing, hlocked, if_true]
    exact outcome_unsigned List.not_mem_nil (kept_self events _)
  | false =>
    have hdid : r.did = .empty := by
      simp only [r, PairingRun.did, PairingRun.step, PairingRun.start, handlePairing, hlocked]
      by_cases hnone : m.lockedUntil = none
      · simp [hnone]
      · simp [hnone, PairingSummary.add]
    rw [hdid]
    simp only [r, PairingRun.step, PairingRun.start, handlePairing, hlocked]
    exact ⟨rfl, rfl, rfl, rfl⟩

/-- A run knows at each section what is known there. -/
theorem pairingFacts_run (config : PairingServerConfig) (m : PinManager)
    (first : ℕ × PairingInput lib) (events : List (ℕ × PairingInput lib)) :
    ∀ done, done <+: events →
      let r := (first :: done).foldl (PairingRun.step config) (.start m)
      PairingFacts config (m.isLocked first.1).1 events done.length (m.isLocked first.1).2
        r.manager r.did r.phase := by
  intro done
  induction done using List.reverseRecOn with
  | nil => exact fun _ => pairingFacts_start config m first events
  | append_singleton done event ih =>
    intro hprefix
    obtain ⟨rest, rfl⟩ := hprefix
    have hbefore := ih ⟨event :: rest, by simp⟩
    have hevent : (done ++ [event] ++ rest)[done.length]? = some event := by simp
    have hnext := hbefore.step (m.lockedUntil_of_isLocked first.1) hevent
    intro r
    have hr : r =
        ((first :: done).foldl (PairingRun.step config) (.start m)).step config event := by
      simp [r, List.foldl_append]
    rw [hr]
    simpa [PairingRun.did, PairingRun.step, List.foldl_append] using hnext

/-- **One pairing run.** For every manager and everything that the peer, the network and the
clock do in a run, the outcome is as it should be: what is signed, counted, rotated, cleared
and sent. A `PairConfirm` that did not open is counted by the next section at the latest. -/
theorem pairing_outcome (config : PairingServerConfig) (m : PinManager)
    (first : ℕ × PairingInput lib) (events : List (ℕ × PairingInput lib)) :
    let r := (first :: events).foldl (PairingRun.step config) (.start m)
    let checked := (m.isLocked first.1).2
    PairingOutcome config (m.isLocked first.1).1 events checked r.manager r.did r.phase.failing ∧
      ∀ next, false ∈ r.did.opens →
        (r.step config next).manager.failures.toNat = checked.failures.toNat + 1 := by
  intro r checked
  have hrun := pairingFacts_run config m first events events (List.prefix_refl events)
  refine ⟨hrun.outcome, fun next hfalse => ?_⟩
  exact hrun.counted_next (m.lockedUntil_of_isLocked first.1) next.1 next.2 hfalse

end SuperShare
