import Mathlib.Data.List.Infix
import SuperShare.Pairing.Handshake

/-!
# The client side of a pairing

`pair_with_server` from the established connection on, as a machine that makes one step for each
section between two waits. What the server sends, whether writes succeed, the request that is
generated and the numbers drawn are inputs of the steps.
-/

namespace SuperShare

open Bincode ByteCodec

/-- The provisioned material of a client. -/
structure PairedMaterial where
  clientCertPem : String
  clientKeyPem : String
  caCertPem : String
  deriving DecidableEq, Repr

/-- Errors of a pairing that the window can react to. -/
inductive PairError where
  | rejected (reason : String)
  | badPin
  | protocol (text : String)
  deriving DecidableEq, Repr

/-- Encrypted provisioning response of the server. -/
structure ProvisionResponse where
  clientCertPem : String
  caCertPem : String
  deriving DecidableEq, Repr

/-- Read a provisioning response. -/
def ProvisionResponse.decoder : Decoder ProvisionResponse := do
  let clientCertPem ← decodeString
  let caCertPem ← decodeString
  return ⟨clientCertPem, caCertPem⟩

/-- Deserialize the plaintext of a `PairResult`. -/
def ProvisionResponse.decode (plaintext : List UInt8) : Except ErrorKind ProvisionResponse :=
  ProvisionResponse.decoder.runPrefix plaintext

/-- Every response that fits in memory is read back. -/
theorem ProvisionResponse.decode_encode {clientCertPem caCertPem : String}
    (hfit : (encodeProvisionResponse clientCertPem caCertPem).length < 2 ^ 64) :
    decode (encodeProvisionResponse clientCertPem caCertPem) =
      .ok ⟨clientCertPem, caCertPem⟩ := by
  rw [encodeProvisionResponse, List.length_append, encodeString_length, encodeString_length] at hfit
  have hcert : clientCertPem.toByteArray.data.toList.length < 2 ^ 64 := by omega
  have hca : caCertPem.toByteArray.data.toList.length < 2 ^ 64 := by omega
  have hread : Decodes decoder (encodeProvisionResponse clientCertPem caCertPem)
      ⟨clientCertPem, caCertPem⟩ := (decodes_string hcert).bind ((decodes_string hca).map _)
  have h := hread.runPrefix []
  rw [List.append_nil] at h
  exact h

/-- `reason.contains("PIN")`. -/
def mentionsPin (reason : String) : Bool := decide ("PIN".toList <:+: reason.toList)

variable {lib : PairingLib}

/-- Where a `pair_with_server` run stands: what it does next. -/
inductive ClientPhase (lib : PairingLib) where
  | writeRequest
  | writeSpake
  | readSpake (exchange : lib.Exchange)
  | writeConfirm (key : lib.Key) (keyPem : String) (nonce ciphertext : List UInt8)
  | readResult (key : lib.Key) (keyPem : String)
  | returned (result : Except PairError PairedMaterial)

/-- What the surroundings contribute to a step. A step uses what it needs. -/
structure ClientInput (lib : PairingLib) where
  /-- What the next read under its timeout gives. -/
  read : Except ReadFailure (Option Message)
  /-- Whether the next write succeeds. -/
  written : Bool
  seed : lib.Seed
  /-- What `generate_client_csr` gives for the device name: the request and the private key. -/
  csr : Except String (String × String)
  /-- The nonce that `seal` draws. -/
  nonce : Vector UInt8 12

/-- The run after a step, and what it wrote. -/
structure ClientResult (lib : PairingLib) where
  phase : ClientPhase lib
  wrote : List Message

/-- The client returns without writing. -/
def ClientResult.return (lib : PairingLib) (result : Except PairError PairedMaterial) :
    ClientResult lib :=
  ⟨.returned result, []⟩

/-- The text of a failed read. -/
def ReadFailure.text (lib : PairingLib) (waitingFor : String) : ReadFailure → String
  | timeout => "timed out waiting for " ++ waitingFor
  | frame e => lib.frameText e
  | io => lib.ioText

/-- The next section of a run with a PIN and a device name. -/
def pairWithServer (pin deviceName : String) (input : ClientInput lib) :
    ClientPhase lib → ClientResult lib
  | .writeRequest =>
      if input.written then ⟨.writeSpake, [.pairRequest pairProtocolVersion deviceName]⟩
      else .return lib (.error (.protocol lib.ioText))
  | .writeSpake =>
      let (exchange, ourSpake) := lib.start pin input.seed
      if input.written then ⟨.readSpake exchange, [.pairSpake ourSpake]⟩
      else .return lib (.error (.protocol lib.ioText))
  | .readSpake exchange =>
      match input.read with
      | .error failure => .return lib (.error (.protocol (failure.text lib "server")))
      | .ok (some (.pairError reason)) => .return lib (.error (.rejected reason))
      | .ok (some (.pairSpake serverSpake)) =>
          match lib.finish exchange serverSpake with
          | .error text => .return lib (.error (.protocol text))
          | .ok key =>
              match input.csr with
              | .error text => .return lib (.error (.protocol text))
              | .ok (csrPem, keyPem) =>
                  match lib.encrypt key input.nonce.toList
                      (ProvisionRequest.encode ⟨csrPem, some deviceName⟩) with
                  | .error text => .return lib (.error (.protocol text))
                  | .ok ciphertext => ⟨.writeConfirm key keyPem input.nonce.toList ciphertext, []⟩
      | .ok other =>
          .return lib (.error (.protocol ("expected PairSpake, got " ++ lib.debugText other)))
  | .writeConfirm key keyPem nonce ciphertext =>
      if input.written then ⟨.readResult key keyPem, [.pairConfirm nonce ciphertext]⟩
      else .return lib (.error (.protocol lib.ioText))
  | .readResult key keyPem =>
      match input.read with
      | .error failure => .return lib (.error (.protocol (failure.text lib "result")))
      | .ok (some (.pairError reason)) =>
          if mentionsPin reason then .return lib (.error .badPin)
          else .return lib (.error (.rejected reason))
      | .ok (some (.pairResult nonce ciphertext)) =>
          match lib.openPayload key nonce ciphertext with
          | .error _ => .return lib (.error .badPin)
          | .ok plaintext =>
              match ProvisionResponse.decode plaintext with
              | .error kind => .return lib (.error (.protocol (lib.bincodeText kind)))
              | .ok response =>
                  .return lib (.ok ⟨response.clientCertPem, keyPem, response.caCertPem⟩)
      | .ok other =>
          .return lib (.error (.protocol ("expected PairResult, got " ++ lib.debugText other)))
  | .returned result => .return lib result

end SuperShare
