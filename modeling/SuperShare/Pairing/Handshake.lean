import SuperShare.Network.Framing
import SuperShare.Pairing.PinManager

/-!
# The server side of a pairing

`handle_pairing` as a machine that makes one step for each section between two waits, or
between two uses of the PIN manager. What the peer sends, whether writes succeed and the
numbers drawn are inputs of the steps, so a run covers every behaviour of the peer. SPAKE2,
the AEAD and the certificate functions are parameters.
-/

namespace SuperShare

open Bincode ByteCodec

/-- Third-party functions that a pairing uses. -/
structure PairingLib where
  /-- Randomness that a SPAKE2 exchange draws. -/
  Seed : Type
  Exchange : Type
  Key : Type
  /-- `PairingExchange::start`: the exchange of a PIN and its outbound message. -/
  start : String → Seed → Exchange × List UInt8
  /-- `PairingExchange::finish`: the session key, or the text of the error. -/
  finish : Exchange → List UInt8 → Except String Key
  /-- ChaCha20-Poly1305 decryption of a ciphertext under a key and a nonce. -/
  decrypt : Key → List UInt8 → List UInt8 → Option (List UInt8)
  encrypt : Key → List UInt8 → List UInt8 → Except String (List UInt8)
  /-- `sign_client_cert` on the CA certificate, the CA key and the request. -/
  signClientCert : String → String → String → Except String String
  certFingerprint : String → Except String String
  /-- Texts of the errors and of the debug format of a message. -/
  frameText : FrameError → String
  ioText : String
  bincodeText : ErrorKind → String
  debugText : Option Message → String

/-- Pairing protocol version. -/
def pairProtocolVersion : UInt8 := 1

/-- Length of a ChaCha20-Poly1305 nonce. -/
def nonceLen : ℕ := 12

/-- Encrypted provisioning request of the client. -/
structure ProvisionRequest where
  csrPem : String
  name : Option String
  deriving DecidableEq

/-- Read a provisioning request. -/
def ProvisionRequest.decoder : Decoder ProvisionRequest := do
  let csrPem ← decodeString
  let name ← decodeOption decodeString
  return ⟨csrPem, name⟩

/-- Deserialize the plaintext of a `PairConfirm`. -/
def ProvisionRequest.decode (plaintext : List UInt8) : Except ErrorKind ProvisionRequest :=
  ProvisionRequest.decoder.runPrefix plaintext

/-- The request as the client serializes it. -/
def ProvisionRequest.encode (request : ProvisionRequest) : List UInt8 :=
  encodeString request.csrPem ++ encodeOption encodeString request.name

/-- Every request that fits in memory is read back. -/
theorem ProvisionRequest.decode_encode {request : ProvisionRequest}
    (hfit : request.encode.length < 2 ^ 64) : decode request.encode = .ok request := by
  rw [encode, List.length_append, encodeString_length] at hfit
  have hcsr : request.csrPem.toByteArray.data.toList.length < 2 ^ 64 := by omega
  have hname : ∀ name, request.name = some name →
      name.toByteArray.data.toList.length < 2 ^ 64 := by
    intro name hsome
    rw [hsome, encodeOption, List.length_append, encodeString_length] at hfit
    omega
  have hoption : Decodes (decodeOption decodeString) (encodeOption encodeString request.name)
      request.name := decodes_option fun name hsome => decodes_string (hname name hsome)
  have hread : Decodes decoder request.encode request :=
    (decodes_string hcsr).bind (hoption.map _)
  have h := hread.runPrefix []
  rw [List.append_nil] at h
  exact h

/-- The response: the signed certificate and that of the CA. -/
def encodeProvisionResponse (clientCertPem caCertPem : String) : List UInt8 :=
  encodeString clientCertPem ++ encodeString caCertPem

/-- Why `SessionKey::open` fails. -/
inductive OpenError where
  | nonceLength (length : ℕ)
  | authentication
  deriving DecidableEq

/-- `SessionKey::open`: the nonce is checked before the decryption. -/
def PairingLib.openPayload (lib : PairingLib) (key : lib.Key) (nonce ciphertext : List UInt8) :
    Except OpenError (List UInt8) :=
  if nonce.length ≠ nonceLen then .error (.nonceLength nonce.length)
  else
    match lib.decrypt key nonce ciphertext with
    | none => .error .authentication
    | some plaintext => .ok plaintext

/-- The display of the error. -/
def OpenError.text : OpenError → String
  | nonceLength length => "invalid nonce length: " ++ toString length
  | authentication => "provisioning payload could not be authenticated"

/-- How a read under the 30 second timeout fails. -/
inductive ReadFailure where
  | timeout
  | frame (e : FrameError)
  | io
  deriving DecidableEq

/-- The errors of `handle_pairing`, one for each early return. -/
inductive PairingError where
  | locked
  | read (failure : ReadFailure)
  | unsupportedVersion (version : UInt8)
  | expectedPairRequest (other : Option Message)
  | expectedPairSpake (other : Option Message)
  | expectedPairConfirm (other : Option Message)
  | write
  | spakeFinish (text : String)
  | pinVerification (e : OpenError)
  | invalidProvision (kind : ErrorKind)
  | signFailed (text : String)
  | fingerprintFailed (text : String)
  | sealFailed (text : String)
  deriving DecidableEq

/-- The text that the peer is told in a `PairError`. -/
def PairingError.reason (lib : PairingLib) : PairingError → String
  | locked => "pairing temporarily locked due to repeated failures"
  | read .timeout => "deadline has elapsed"
  | read (.frame e) => lib.frameText e
  | read .io => lib.ioText
  | unsupportedVersion version => "unsupported pairing version: " ++ toString version
  | expectedPairRequest other => "expected PairRequest, got " ++ lib.debugText other
  | expectedPairSpake other => "expected PairSpake, got " ++ lib.debugText other
  | expectedPairConfirm other => "expected PairConfirm, got " ++ lib.debugText other
  | write => lib.ioText
  | spakeFinish text => text
  | pinVerification e => "PIN verification failed: " ++ e.text
  | invalidProvision kind => "invalid provisioning request: " ++ lib.bincodeText kind
  | signFailed text => text
  | fingerprintFailed text => text
  | sealFailed text => text

/-- The CA material of `PairingServerConfig`. -/
structure PairingServerConfig where
  caCertPem : String
  caKeyPem : String

/-- A client that has paired with this server. -/
structure PairedClient where
  name : String
  certFingerprint : String
  pairedAt : UInt64
  deriving DecidableEq, Repr

/-- What an attempt knows once it has taken the PIN. The generation of the PIN and the times
at which it was generated and taken are kept for the statements about runs. -/
structure PairingSession where
  clientName : String
  clientSpake : List UInt8
  pin : String
  generation : ℕ
  generatedAt : ℕ
  takenAt : ℕ

/-- Where a `handle_pairing` run stands: what it does next. -/
inductive PairingPhase (lib : PairingLib) where
  | checkLock
  | readRequest
  | readSpake (clientName : String)
  | takePin (clientName : String) (clientSpake : List UInt8)
  | writeSpake (x : PairingSession) (exchange : lib.Exchange) (ourSpake : List UInt8)
  | readConfirm (x : PairingSession) (key : lib.Key)
  | openConfirm (x : PairingSession) (key : lib.Key) (nonce ciphertext : List UInt8)
  | countFailure (e : OpenError)
  | sign (x : PairingSession) (key : lib.Key) (plaintext : List UInt8)
  | writeResult (name fingerprint : String) (nonce ciphertext : List UInt8)
  | countSuccess (name fingerprint : String)
  | sendPaired (name fingerprint : String)
  /-- Returned `Ok`. -/
  | done
  /-- Returned an error; the peer is told next. -/
  | failed (e : PairingError)
  | closed

/-- What the surroundings contribute to a step. A step uses what it needs. -/
structure PairingInput (lib : PairingLib) where
  /-- What the next read under its timeout gives. -/
  read : Except ReadFailure (Option Message)
  /-- Whether the next write succeeds. -/
  written : Bool
  seed : lib.Seed
  /-- The number that `generate_pin` draws. -/
  fresh : Fin 1000000
  /-- The nonce that `seal` draws. -/
  nonce : Vector UInt8 12
  /-- The Unix time in seconds. -/
  unixTime : UInt64

/-- What a step did, for the record. -/
inductive PairingObs where
  /-- `is_locked` found an expired lockout and reset the counter. -/
  | lockExpired
  | received (msg : Option Message)
  /-- `current_pin` or `record_success` generated the PIN of this generation. -/
  | rotated (generation : ℕ)
  | tookPin (pin : String) (generation : ℕ)
  | wrote (msg : Message)
  /-- A `PairConfirm` was decrypted, under the key of this peer message and PIN. -/
  | opened (clientSpake : List UInt8) (pin : String) (success : Bool)
  | failureCounted
  | signed (generation : ℕ) (certPem : String)
  | successCounted
  | pairedSent (client : PairedClient)
  deriving DecidableEq

/-- The manager and the run after a step, with the record of it. -/
structure PairingResult (lib : PairingLib) where
  manager : PinManager
  phase : PairingPhase lib
  observed : List PairingObs

variable {lib : PairingLib}

/-- The run has had a `PairConfirm` fail to open and not counted it. -/
def PairingPhase.failing : PairingPhase lib → Bool
  | countFailure _ => true
  | _ => false

/-- The next section of a run. -/
def handlePairing (config : PairingServerConfig) (now : ℕ) (input : PairingInput lib)
    (m : PinManager) : PairingPhase lib → PairingResult lib
  | .checkLock =>
      let (locked, checked) := m.isLocked now
      if locked then ⟨checked, .failed .locked, []⟩
      else ⟨checked, .readRequest, if m.lockedUntil = none then [] else [.lockExpired]⟩
  | .readRequest =>
      match input.read with
      | .error failure => ⟨m, .failed (.read failure), []⟩
      | .ok msg =>
          match msg with
          | some (.pairRequest version name) =>
              if version ≠ pairProtocolVersion then
                ⟨m, .failed (.unsupportedVersion version), [.received msg]⟩
              else ⟨m, .readSpake name, [.received msg]⟩
          | other => ⟨m, .failed (.expectedPairRequest other), [.received msg]⟩
  | .readSpake clientName =>
      match input.read with
      | .error failure => ⟨m, .failed (.read failure), []⟩
      | .ok msg =>
          match msg with
          | some (.pairSpake clientSpake) =>
              ⟨m, .takePin clientName clientSpake, [.received msg]⟩
          | other => ⟨m, .failed (.expectedPairSpake other), [.received msg]⟩
  | .takePin clientName clientSpake =>
      let current := m.currentPin now input.fresh
      let (exchange, ourSpake) := lib.start current.pin input.seed
      ⟨current,
        .writeSpake ⟨clientName, clientSpake, current.pin, current.generation,
          current.generatedAt, now⟩ exchange ourSpake,
        (if m.Expired now then [.rotated current.generation] else []) ++
          [.tookPin current.pin current.generation]⟩
  | .writeSpake x exchange ourSpake =>
      if input.written then
        match lib.finish exchange x.clientSpake with
        | .error text => ⟨m, .failed (.spakeFinish text), [.wrote (.pairSpake ourSpake)]⟩
        | .ok key => ⟨m, .readConfirm x key, [.wrote (.pairSpake ourSpake)]⟩
      else ⟨m, .failed .write, []⟩
  | .readConfirm x key =>
      match input.read with
      | .error failure => ⟨m, .failed (.read failure), []⟩
      | .ok msg =>
          match msg with
          | some (.pairConfirm nonce ciphertext) =>
              ⟨m, .openConfirm x key nonce ciphertext, [.received msg]⟩
          | other => ⟨m, .failed (.expectedPairConfirm other), [.received msg]⟩
  | .openConfirm x key nonce ciphertext =>
      match lib.openPayload key nonce ciphertext with
      | .error e => ⟨m, .countFailure e, [.opened x.clientSpake x.pin false]⟩
      | .ok plaintext => ⟨m, .sign x key plaintext, [.opened x.clientSpake x.pin true]⟩
  | .countFailure e =>
      ⟨m.recordFailure now, .failed (.pinVerification e), [.failureCounted]⟩
  | .sign x key plaintext =>
      match ProvisionRequest.decode plaintext with
      | .error kind => ⟨m, .failed (.invalidProvision kind), []⟩
      | .ok provision =>
          match lib.signClientCert config.caCertPem config.caKeyPem provision.csrPem with
          | .error text => ⟨m, .failed (.signFailed text), []⟩
          | .ok certPem =>
              match lib.certFingerprint certPem with
              | .error text =>
                  ⟨m, .failed (.fingerprintFailed text), [.signed x.generation certPem]⟩
              | .ok fingerprint =>
                  match lib.encrypt key input.nonce.toList
                      (encodeProvisionResponse certPem config.caCertPem) with
                  | .error text =>
                      ⟨m, .failed (.sealFailed text), [.signed x.generation certPem]⟩
                  | .ok ciphertext =>
                      ⟨m, .writeResult (provision.name.getD x.clientName) fingerprint
                          input.nonce.toList ciphertext,
                        [.signed x.generation certPem]⟩
  | .writeResult name fingerprint nonce ciphertext =>
      if input.written then
        ⟨m, .countSuccess name fingerprint, [.wrote (.pairResult nonce ciphertext)]⟩
      else ⟨m, .failed .write, []⟩
  | .countSuccess name fingerprint =>
      ⟨m.recordSuccess now input.fresh, .sendPaired name fingerprint,
        [.successCounted, .rotated (m.generation + 1)]⟩
  | .sendPaired name fingerprint =>
      ⟨m, .done, [.pairedSent ⟨name, fingerprint, input.unixTime⟩]⟩
  | .done => ⟨m, .done, []⟩
  | .failed e =>
      ⟨m, .closed, if input.written then [.wrote (.pairError (e.reason lib))] else []⟩
  | .closed => ⟨m, .closed, []⟩

/-- A single run and the manager it uses. -/
structure PairingRun (lib : PairingLib) where
  manager : PinManager
  phase : PairingPhase lib
  trace : List PairingObs

/-- The run takes a step at a time of the clock. -/
def PairingRun.step (config : PairingServerConfig) (r : PairingRun lib)
    (event : ℕ × PairingInput lib) : PairingRun lib :=
  let result := handlePairing config event.1 event.2 r.manager r.phase
  ⟨result.manager, result.phase, r.trace ++ result.observed⟩

/-- A connection is accepted. -/
def PairingRun.start (m : PinManager) : PairingRun lib := ⟨m, .checkLock, []⟩

end SuperShare
