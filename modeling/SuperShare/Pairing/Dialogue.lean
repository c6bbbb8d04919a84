import SuperShare.Pairing.Client
import SuperShare.Pairing.SingleRun

/-!
# Two sides of a pairing

`pair_with_server` and `handle_pairing` connected by two streams of frames. Either side takes
its next section at any time, except that a read waits until a whole frame has arrived. There
are no I/O errors and no timeouts.
-/

namespace SuperShare

variable {lib : PairingLib}

/-- The two sides and the bytes on their way. -/
structure PairingDialogue (lib : PairingLib) where
  client : ClientPhase lib
  server : PairingRun lib
  toServer : List UInt8
  toClient : List UInt8

/-- One of the sides takes a section. -/
inductive DialogueEvent (lib : PairingLib) where
  | client (input : ClientInput lib)
  | server (now : ℕ) (input : PairingInput lib)

/-- The section starts with a read. -/
def ClientPhase.reads : ClientPhase lib → Bool
  | readSpake _ | readResult _ _ => true
  | _ => false

/-- The section starts with a read. -/
def PairingPhase.reads : PairingPhase lib → Bool
  | readRequest | readSpake _ | readConfirm _ _ => true
  | _ => false

/-- The result of the read, if there is one, and the bytes left: `none` while a frame is not
there. -/
def arrival (reads : Bool) (bytes : List UInt8) :
    Option (Except ReadFailure (Option Message) × List UInt8) :=
  if reads then
    (readFrame.attempt bytes).map fun (result, rest) => (result.mapError ReadFailure.frame, rest)
  else some (.ok none, bytes)

/-- The message that was written. -/
def PairingObs.written? : PairingObs → Option Message
  | wrote msg => some msg
  | _ => none

/-- What is fixed in a pairing: both configurations, the PIN that the user enters, and a request
that is generated, signed and fingerprinted without errors. -/
structure PairingCeremony (lib : PairingLib) where
  config : PairingServerConfig
  deviceName : String
  pin : String
  csrPem : String
  keyPem : String
  certPem : String
  fingerprint : String
  signed : lib.signClientCert config.caCertPem config.caKeyPem csrPem = .ok certPem
  printed : lib.certFingerprint certPem = .ok fingerprint

namespace PairingDialogue

/-- The client has connected, and the connection was accepted. -/
def start (m : PinManager) : PairingDialogue lib := ⟨.writeRequest, .start m, [], []⟩

/-- One section of one side. -/
def step (c : PairingCeremony lib) (s : PairingDialogue lib) :
    DialogueEvent lib → PairingDialogue lib
  | .client input =>
      match arrival s.client.reads s.toClient with
      | none => s
      | some (read, rest) =>
          let result := pairWithServer c.pin c.deviceName
            { input with read := read, written := true } s.client
          { s with
            client := result.phase
            toServer := s.toServer ++ writeFrames result.wrote
            toClient := rest }
  | .server now input =>
      match arrival s.server.phase.reads s.toServer with
      | none => s
      | some (read, rest) =>
          let input := { input with read := read, written := true }
          let result := handlePairing c.config now input s.server.manager s.server.phase
          { s with
            server := s.server.step c.config (now, input)
            toServer := rest
            toClient := s.toClient ++ writeFrames (result.observed.filterMap PairingObs.written?) }

/-- The request is generated as fixed, and the server's clock does not go behind its start. -/
def Honest (c : PairingCeremony lib) (now : ℕ) : DialogueEvent lib → Prop
  | .client input => input.csr = .ok (c.csrPem, c.keyPem)
  | .server later _ => now ≤ later

/-- Both sides have returned, and the server's error, if there is one, was sent. -/
def Finished (s : PairingDialogue lib) : Prop :=
  (∃ result, s.client = .returned result) ∧ (s.server.phase = .done ∨ s.server.phase = .closed)

/-- The client has its material, and the server has recorded it: one certificate was signed, one
client was sent, and failures, lock and PIN are new. -/
structure Succeeded (c : PairingCeremony lib) (taken : PinManager) (s : PairingDialogue lib) :
    Prop where
  client : s.client = .returned (.ok ⟨c.certPem, c.keyPem, c.config.caCertPem⟩)
  certs : s.server.did.certs = [c.certPem]
  clients : ∃ unixTime, s.server.did.clients = [⟨c.deviceName, c.fingerprint, unixTime⟩]
  failures : s.server.manager.failures = 0
  lockedUntil : s.server.manager.lockedUntil = none
  pin : ∃ fresh, s.server.manager.pin = generatePin fresh ∧
    s.server.manager.generation = taken.generation + 1

/-- The client has been told that the PIN was wrong. Nothing was signed, the PIN stays, and the
failure was counted. -/
structure Refused (checked taken : PinManager) (s : PairingDialogue lib) : Prop where
  client : s.client = .returned (.error .badPin)
  certs : s.server.did.certs = []
  clients : s.server.did.clients = []
  pin : s.server.manager.pin = taken.pin
  failures : s.server.manager.failures.toNat = checked.failures.toNat + 1

end PairingDialogue

/-- What SPAKE2 and the AEAD promise: the keys of the two sides are equal exactly if their PINs are,
and what is sealed under a key opens under that key only. -/
structure IdealCrypto (lib : PairingLib) : Prop where
  agree : ∀ pin pin' seed seed', ∃ key key',
    lib.finish (lib.start pin seed).1 (lib.start pin' seed').2 = .ok key ∧
    lib.finish (lib.start pin' seed').1 (lib.start pin seed).2 = .ok key' ∧
    (key = key' ↔ pin = pin')
  seals : ∀ key nonce plaintext, plaintext.length ≤ maxPayloadSize.toNat → ∃ ciphertext,
    lib.encrypt key nonce plaintext = .ok ciphertext ∧
    lib.decrypt key nonce ciphertext = some plaintext ∧
    ∀ other, other ≠ key → lib.decrypt other nonce ciphertext = none

/-- A nonce and a ciphertext as `seal` gives them. -/
structure Sealed (key : lib.Key) (plaintext nonce ciphertext : List UInt8) : Prop where
  nonceLength : nonce.length = nonceLen
  encrypted : lib.encrypt key nonce plaintext = .ok ciphertext

/-- What is sealed under a key opens under it, and under no other. -/
theorem Sealed.openPayload (hideal : IdealCrypto lib) {key : lib.Key}
    {plaintext nonce ciphertext : List UInt8} (h : Sealed key plaintext nonce ciphertext)
    (hlength : plaintext.length ≤ maxPayloadSize.toNat) :
    lib.openPayload key nonce ciphertext = .ok plaintext ∧
      ∀ other, other ≠ key → lib.openPayload other nonce ciphertext = .error .authentication := by
  obtain ⟨sealed, hencrypt, hdecrypt, hother⟩ := hideal.seals key nonce plaintext hlength
  obtain rfl : ciphertext = sealed := Except.ok.inj (h.encrypted.symm.trans hencrypt)
  have hnonce : ¬ nonce.length ≠ nonceLen := not_not_intro h.nonceLength
  constructor
  · rw [PairingLib.openPayload, if_neg hnonce, hdecrypt]
  · intro other hne
    rw [PairingLib.openPayload, if_neg hnonce, hother other hne]

/-- A payload of a size that fits is sealed. -/
theorem exists_sealed (hideal : IdealCrypto lib) (key : lib.Key) (nonce : Vector UInt8 12)
    {plaintext : List UInt8} (hlength : plaintext.length ≤ maxPayloadSize.toNat) :
    ∃ ciphertext, Sealed key plaintext nonce.toList ciphertext := by
  obtain ⟨ciphertext, hencrypt, -⟩ := hideal.seals key nonce.toList plaintext hlength
  exact ⟨ciphertext, Vector.length_toList, hencrypt⟩

namespace PairingCeremony

/-- The plaintext of the `PairConfirm`. -/
def requestBytes (c : PairingCeremony lib) : List UInt8 :=
  ProvisionRequest.encode ⟨c.csrPem, some c.deviceName⟩

/-- The plaintext of the `PairResult`. -/
def responseBytes (c : PairingCeremony lib) : List UInt8 :=
  encodeProvisionResponse c.certPem c.config.caCertPem

/-- A key that the client derives from its PIN. -/
def ClientKey (c : PairingCeremony lib) (key : lib.Key) : Prop :=
  ∃ seed spake, lib.finish (lib.start c.pin seed).1 spake = .ok key

/-- The messages of the two sides fit in frames. -/
structure FitsFrames (c : PairingCeremony lib) : Prop where
  request : (Message.pairRequest pairProtocolVersion c.deviceName).Fits
  spake : ∀ pin seed, (Message.pairSpake (lib.start pin seed).2).Fits
  requestBytes : c.requestBytes.length ≤ maxPayloadSize.toNat
  confirm : ∀ key nonce ciphertext, c.ClientKey key → Sealed key c.requestBytes nonce ciphertext →
    (Message.pairConfirm nonce ciphertext).Fits
  responseBytes : c.responseBytes.length ≤ maxPayloadSize.toNat
  result : ∀ key nonce ciphertext, c.ClientKey key → Sealed key c.responseBytes nonce ciphertext →
    (Message.pairResult nonce ciphertext).Fits

end PairingCeremony

namespace PairingDialogue

/-- The first frame is read, if it fits. -/
theorem arrival_writeFrames {msg : Message} (hfit : msg.Fits) (pending : List Message) :
    arrival true (writeFrames (msg :: pending)) =
      some (.ok (some msg), writeFrames pending) := by
  rw [writeFrames_cons]
  simp [arrival, readFrame_attempt hfit, Except.mapError]

/-- A read of an empty stream waits. -/
theorem arrival_nil : arrival true [] = none := rfl

/-- A section that does not read does not wait. -/
theorem arrival_false (bytes : List UInt8) : arrival false bytes = some (.ok none, bytes) := rfl

/-- Where the server is, and what it has done so far. -/
structure ServerAt (server : PairingRun lib) (manager : PinManager) (phase : PairingPhase lib)
    (pins certs : List String) (clients : List PairedClient) : Prop where
  manager : server.manager = manager
  phase : server.phase = phase
  pins : server.did.pins = pins
  certs : server.did.certs = certs
  clients : server.did.clients = clients

section Steps

variable {c : PairingCeremony lib} {server : PairingRun lib} {client : ClientPhase lib}
  {m : PinManager} {phase : PairingPhase lib} {pins certs : List String}
  {clients : List PairedClient} {toServer toClient : List UInt8}

/-- A section of the client. -/
theorem step_client {input : ClientInput lib} {read : Except ReadFailure (Option Message)}
    {rest : List UInt8} (harrival : arrival client.reads toClient = some (read, rest))
    {client' : ClientPhase lib} {wrote : List Message}
    (hresult : pairWithServer c.pin c.deviceName
      { input with read := read, written := true } client = ⟨client', wrote⟩) :
    step c ⟨client, server, toServer, toClient⟩ (.client input) =
      ⟨client', server, toServer ++ writeFrames wrote, rest⟩ := by
  simp only [step, harrival, hresult]

/-- The client waits. -/
theorem step_client_waits {input : ClientInput lib}
    (harrival : arrival client.reads toClient = none) :
    step c ⟨client, server, toServer, toClient⟩ (.client input) =
      ⟨client, server, toServer, toClient⟩ := by
  simp only [step, harrival]

/-- A section of the server. -/
theorem step_server (h : ServerAt server m phase pins certs clients) {now : ℕ}
    {input : PairingInput lib} {read : Except ReadFailure (Option Message)} {rest : List UInt8}
    (harrival : arrival phase.reads toServer = some (read, rest))
    {m' : PinManager} {phase' : PairingPhase lib} {observed : List PairingObs}
    (hresult : handlePairing c.config now { input with read := read, written := true } m phase =
      ⟨m', phase', observed⟩)
    {sent : List Message} (hsent : observed.filterMap PairingObs.written? = sent)
    {pins' certs' : List String} {clients' : List PairedClient}
    (hdid : ∀ did : PairingSummary, did.pins = pins → did.certs = certs → did.clients = clients →
      (observed.foldl PairingSummary.add did).pins = pins' ∧
        (observed.foldl PairingSummary.add did).certs = certs' ∧
        (observed.foldl PairingSummary.add did).clients = clients') :
    ∃ server', step c ⟨client, server, toServer, toClient⟩ (.server now input) =
        ⟨client, server', rest, toClient ++ writeFrames sent⟩ ∧
      ServerAt server' m' phase' pins' certs' clients' := by
  obtain ⟨hmanager, hphase, hpins, hcerts, hclients⟩ := h
  subst hmanager hphase hsent
  obtain ⟨hpins', hcerts', hclients'⟩ := hdid server.did hpins hcerts hclients
  refine ⟨server.step c.config (now, { input with read := read, written := true }),
    by simp only [step, harrival, hresult], ?_, ?_, ?_, ?_, ?_⟩
  · rw [PairingRun.step, hresult]
  · rw [PairingRun.step, hresult]
  · rw [PairingRun.did, PairingRun.step, hresult, List.foldl_append]
    exact hpins'
  · rw [PairingRun.did, PairingRun.step, hresult, List.foldl_append]
    exact hcerts'
  · rw [PairingRun.did, PairingRun.step, hresult, List.foldl_append]
    exact hclients'

/-- The server waits. -/
theorem step_server_waits (h : ServerAt server m phase pins certs clients) {now : ℕ}
    {input : PairingInput lib} (harrival : arrival phase.reads toServer = none) :
    step c ⟨client, server, toServer, toClient⟩ (.server now input) =
      ⟨client, server, toServer, toClient⟩ := by
  obtain ⟨-, hphase, -, -, -⟩ := h
  subst hphase
  simp only [step, harrival]

end Steps

end PairingDialogue

end SuperShare
