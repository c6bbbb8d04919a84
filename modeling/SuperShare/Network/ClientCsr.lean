import Mathlib.Data.List.Basic

/-!
# The certificate request of a client

A device name reaches the alternative names of the request on two ways: as it is, through
`CertificateParams::new`, and with the characters that are not valid in a DNS name replaced.
The functions of rcgen are parameters, and generated keys are arguments.
-/

namespace SuperShare

/-- A subject alternative name, with `ι` for IP addresses. -/
inductive SanType (ι : Type) where
  | dnsName (name : String)
  | ipAddress (ip : ι)

/-- `CertificateParams`, as far as a request sets them. -/
structure CertificateParams (ι : Type) where
  commonName : Option String
  subjectAltNames : List (SanType ι)

/-- What a request is made with: `κ` are key pairs and `π` PEM texts. -/
structure CsrLib (ι κ π : Type) where
  /-- `IpAddr::from_str`. -/
  parseIp : String → Option ι
  /-- The error for a string that is not an `Ia5String`. -/
  ia5Error : String → String
  /-- `serialize_request` and `pem`. -/
  requestPem : CertificateParams ι → κ → π
  /-- `KeyPair::serialize_pem`. -/
  keyPem : κ → π

variable {ι κ π : Type}

/-- The conversion to an `Ia5String`: only ASCII characters are allowed. -/
def CsrLib.ia5String (lib : CsrLib ι κ π) (s : String) : Except String String :=
  if s.toList.all fun c => c.toNat < 128 then .ok s else .error (lib.ia5Error s)

/-- The alternative name that `CertificateParams::new` makes of a string. -/
def CsrLib.sanOf (lib : CsrLib ι κ π) (s : String) : Except String (SanType ι) :=
  match lib.parseIp s with
  | some ip => .ok (.ipAddress ip)
  | none => do
      let name ← lib.ia5String s
      return .dnsName name

/-- `CertificateParams::new`. -/
def CsrLib.newParams (lib : CsrLib ι κ π) (names : List String) :
    Except String (CertificateParams ι) := do
  let sans ← names.mapM lib.sanOf
  return ⟨none, sans⟩

/-- A character that `sanitize_dns` keeps. -/
def validDnsChar (c : Char) : Bool := c.isAlphanum || c == '-' || c == '.'

/-- Replace characters not valid in a DNS SAN with '-'. -/
def sanitizeDns (name : String) : String :=
  let s := String.ofList (name.toList.map fun c => if validDnsChar c then c else '-')
  if s.isEmpty then "device" else s

/-- The parameters of the request for a device. -/
def clientCsrParams (lib : CsrLib ι κ π) (deviceName : String) :
    Except String (CertificateParams ι) := do
  let params ← lib.newParams [deviceName]
  let params := { params with commonName := some deviceName }
  let dns ← lib.ia5String (sanitizeDns deviceName)
  return { params with subjectAltNames := params.subjectAltNames ++ [.dnsName dns] }

/-- The request for a device and the key, both as PEM. -/
def generateClientCsr (lib : CsrLib ι κ π) (key : κ) (deviceName : String) :
    Except String (π × π) := do
  let params ← clientCsrParams lib deviceName
  return (lib.requestPem params key, lib.keyPem key)

/-- The DNS name has only ASCII letters, digits, '-' and '.'. -/
def ValidDns (name : String) : Prop := ∀ c ∈ name.toList, validDnsChar c = true

instance (name : String) : Decidable (ValidDns name) :=
  decidable_of_iff (name.toList.all validDnsChar = true) List.all_eq_true

/-- The request is made, and its DNS names have only valid characters. -/
def GoodCsr (lib : CsrLib ι κ π) (key : κ) (deviceName : String) : Prop :=
  ∃ params, clientCsrParams lib deviceName = .ok params ∧
    generateClientCsr lib key deviceName = .ok (lib.requestPem params key, lib.keyPem key) ∧
    ∀ name, .dnsName name ∈ params.subjectAltNames → ValidDns name

/-- Valid characters are ASCII. -/
theorem toNat_lt_of_validDnsChar {c : Char} (h : validDnsChar c = true) : c.toNat < 128 := by
  simp only [validDnsChar, Bool.or_eq_true, beq_iff_eq] at h
  rcases h with (halnum | rfl) | rfl
  · have hparts : ((decide (c.val ≥ 'A'.val ∧ c.val ≤ 'Z'.val) ||
        (decide (c.val ≥ 'a'.val) && decide (c.val ≤ 'z'.val))) ||
          (decide (c.val ≥ '0'.val) && decide (c.val ≤ '9'.val))) = true := halnum
    simp only [Bool.or_eq_true, Bool.and_eq_true, decide_eq_true_eq, UInt32.le_iff_toNat_le,
      ge_iff_le] at hparts
    have hval : c.toNat = c.val.toNat := rfl
    have hupper : 'Z'.val.toNat = 90 := rfl
    have hlower : 'z'.val.toNat = 122 := rfl
    have hdigit : '9'.val.toNat = 57 := rfl
    omega
  · decide
  · decide

/-- A sanitized name has only valid characters. -/
theorem validDns_sanitizeDns (name : String) : ValidDns (sanitizeDns name) := by
  simp only [sanitizeDns]
  split
  · decide
  · intro c hc
    rw [String.toList_ofList] at hc
    obtain ⟨old, -, rfl⟩ := List.mem_map.mp hc
    split
    · assumption
    · decide

/-- A valid name is an `Ia5String`. -/
theorem ia5String_of_validDns (lib : CsrLib ι κ π) {name : String} (h : ValidDns name) :
    lib.ia5String name = .ok name :=
  if_pos (List.all_eq_true.mpr fun c hc => decide_eq_true (toNat_lt_of_validDnsChar (h c hc)))

/-- The parameters of a request: the name as it is, and sanitized. Only the first can fail. -/
theorem clientCsrParams_eq (lib : CsrLib ι κ π) (deviceName : String) :
    clientCsrParams lib deviceName =
      (lib.sanOf deviceName).map fun san =>
        ⟨some deviceName, [san, .dnsName (sanitizeDns deviceName)]⟩ := by
  have hsanitized := ia5String_of_validDns lib (validDns_sanitizeDns deviceName)
  simp only [clientCsrParams, CsrLib.newParams, hsanitized, List.mapM_cons, List.mapM_nil]
  cases lib.sanOf deviceName with
  | ok san => rfl
  | error e => rfl

/-- A request is good exactly when its first alternative name is. -/
theorem goodCsr_iff_sanOf (lib : CsrLib ι κ π) (key : κ) (deviceName : String) :
    GoodCsr lib key deviceName ↔
      ∃ san, lib.sanOf deviceName = .ok san ∧ ∀ name, san = .dnsName name → ValidDns name := by
  simp only [GoodCsr, generateClientCsr, clientCsrParams_eq]
  constructor
  · rintro ⟨params, hparams, -, hvalid⟩
    cases hsan : lib.sanOf deviceName with
    | error e =>
      rw [hsan] at hparams
      cases hparams
    | ok san =>
      rw [hsan] at hparams
      cases hparams
      exact ⟨san, rfl, fun name hname => hvalid name (by simp [hname])⟩
  · rintro ⟨san, hsan, hvalid⟩
    rw [hsan]
    refine ⟨_, rfl, rfl, fun name hname => ?_⟩
    rcases List.mem_cons.mp hname with hfirst | hsecond
    · exact hvalid name hfirst.symm
    · obtain ⟨rfl⟩ := List.mem_singleton.mp hsecond
      exact validDns_sanitizeDns deviceName

/-- **Certificate requests.** A request can be made for a device, with valid DNS names only, if
and only if its name is an IP address or consists of valid characters. -/
theorem goodCsr_iff (lib : CsrLib ι κ π) (key : κ) (deviceName : String) :
    GoodCsr lib key deviceName ↔
      (lib.parseIp deviceName).isSome = true ∨ ValidDns deviceName := by
  rw [goodCsr_iff_sanOf, CsrLib.sanOf]
  cases hip : lib.parseIp deviceName with
  | some ip =>
    simp only [Option.isSome_some, true_or, iff_true]
    exact ⟨_, rfl, nofun⟩
  | none =>
    simp only [Option.isSome_none, Bool.false_eq_true, false_or]
    constructor
    · rintro ⟨san, hsan, hvalid⟩
      simp only [CsrLib.ia5String] at hsan
      split at hsan
      · cases hsan
        exact hvalid deviceName rfl
      · cases hsan
    · intro hvalid
      rw [ia5String_of_validDns lib hvalid]
      refine ⟨_, rfl, ?_⟩
      rintro name ⟨⟩
      exact hvalid

/-- Requests as they are, with the loopback address as the only one. -/
def CsrLib.plain : CsrLib Unit ℕ (CertificateParams Unit × ℕ ⊕ ℕ) where
  parseIp s := if s = "127.0.0.1" then some () else none
  ia5Error s := s ++ " is not a valid IA5 string"
  requestPem params key := .inl (params, key)
  keyPem key := .inr key

/-- No request can be made for a device with a letter that is not ASCII, and the request for one
with a blank in its name has this name among its DNS names. -/
theorem clientCsr_bad_names :
    ¬ GoodCsr CsrLib.plain 1 "café" ∧ ¬ GoodCsr CsrLib.plain 1 "my laptop" ∧
      generateClientCsr CsrLib.plain 1 "café" = .error "café is not a valid IA5 string" := by
  have hcafe : CsrLib.plain.sanOf "café" = .error "café is not a valid IA5 string" := rfl
  have hlaptop : CsrLib.plain.sanOf "my laptop" = .ok (.dnsName "my laptop") := rfl
  refine ⟨?_, ?_, rfl⟩
  · rw [goodCsr_iff_sanOf, hcafe]
    rintro ⟨_, ⟨⟩, _⟩
  · rw [goodCsr_iff_sanOf, hlaptop]
    rintro ⟨_, ⟨⟩, hvalid⟩
    have hblank : ¬ ValidDns "my laptop" := by decide
    exact hblank (hvalid _ rfl)

end SuperShare
