import SuperShare.Network.MutualTls

/-!
# Certificates by hand

Instead of pairing, certificates can be generated on the command line: a CA, and then for each
device a certificate that the CA signs. All files go to one directory, and those of a device are
named after it. The issuer of a device's certificate is the subject of the CA certificate that is
given, and it is signed with the key that is given. This file says exactly in which runs of the
commands the devices trust each other.
-/

namespace SuperShare

/-- A name in a certificate. -/
structure DistinguishedName where
  commonName : String
  organizationName : Option String
  deriving DecidableEq, Repr

/-- A name with a key, as the subject or the issuer of a certificate. -/
@[ext] structure Identity where
  name : DistinguishedName
  key : ℕ
  deriving DecidableEq, Repr

/-- PEM texts with symbolic keys. A certificate says whose key it is, by whom it is signed, and for
which names it is valid. -/
inductive DevicePem where
  | key (k : ℕ)
  | cert (subject issuer : Identity) (names : List (SanType String))
  deriving DecidableEq, Repr

namespace DevicePem

/-- `KeyPair::from_pem`. -/
def keyFromPem : DevicePem → Except String ℕ
  | key k => .ok k
  | cert .. => .error "no private key"

/-- `CertificateParams::from_ca_cert_pem`, as far as signing uses it: the subject's name. -/
def fromCaCertPem : DevicePem → Except String DistinguishedName
  | cert subject _ _ => .ok subject.name
  | key _ => .error "no certificate"

/-- The keys of a text have numbers below the next one. -/
def Generated (nextKey : ℕ) : DevicePem → Prop
  | key k => k < nextKey
  | cert subject issuer _ => subject.key < nextKey ∧ issuer.key < nextKey

/-- Keys that have been generated stay so. -/
theorem Generated.mono {n n' : ℕ} (hle : n ≤ n') {pem : DevicePem} (h : pem.Generated n) :
    pem.Generated n' := by
  cases pem with
  | key k => exact Nat.lt_of_lt_of_le h hle
  | cert subject issuer names =>
    exact ⟨Nat.lt_of_lt_of_le h.1 hle, Nat.lt_of_lt_of_le h.2 hle⟩

end DevicePem

/-- A configuration for mutual TLS: who has signed the own certificate, and against whom the other
side is verified. -/
structure DeviceConfig where
  issuer : Identity
  root : Identity
  deriving DecidableEq, Repr

/-- Build a configuration from the PEM texts of a certificate, its key and a CA, unless one is
missing, is of another kind, or does not fit. -/
def DeviceConfig.build (certPem keyPem caPem : Option DevicePem) : Option DeviceConfig :=
  match certPem, keyPem, caPem with
  | some (.cert subject issuer _), some (.key k), some (.cert root _ _) =>
      if subject.key = k then some ⟨issuer, root⟩ else none
  | _, _, _ => none

/-- The texts that make a configuration. -/
theorem DeviceConfig.build_eq_some {certPem keyPem caPem : Option DevicePem}
    {config : DeviceConfig} :
    DeviceConfig.build certPem keyPem caPem = some config ↔
      ∃ subject names issuer names', certPem = some (.cert subject config.issuer names) ∧
        keyPem = some (.key subject.key) ∧ caPem = some (.cert config.root issuer names') := by
  constructor
  · intro h
    unfold DeviceConfig.build at h
    split at h
    · rename_i subject issuer names k root issuer' names'
      split at h
      · rename_i hsubject
        obtain rfl := Option.some.inj h
        exact ⟨subject, names, issuer', names', rfl, by rw [hsubject], rfl⟩
      · exact absurd h (by simp)
    · exact absurd h (by simp)
  · rintro ⟨subject, names, issuer, names', rfl, rfl, rfl⟩
    simp [DeviceConfig.build]

/-- The directory of the certificates. The last field records the devices that have got theirs. -/
structure CertDir where
  files : String → Option DevicePem
  /-- A number that no key has had. -/
  nextKey : ℕ
  devices : List String

/-- The arguments of `--gen-cert`. The paths of the CA are names of files in the directory. -/
structure GenCert where
  device : Option String
  caCert : Option String
  caKey : Option String
  ips : List String
  deriving DecidableEq, Repr

namespace CertDir

/-- Nothing has been generated. -/
def start : CertDir := ⟨fun _ => none, 1, []⟩

/-- The name of a CA. -/
def caName : DistinguishedName := ⟨"SuperShare Root CA", some "SuperShare"⟩

/-- The name of a device. -/
def nameOf (deviceName : String) : DistinguishedName := ⟨deviceName, none⟩

/-- Generate a self-signed CA certificate and key. -/
def generateCa (s : CertDir) : CertDir :=
  { s with
    files := Directory.writeAll s.files
      [("ca.pem", .cert ⟨caName, s.nextKey⟩ ⟨caName, s.nextKey⟩ caNames),
        ("ca-key.pem", .key s.nextKey)]
    nextKey := s.nextKey + 1 }

variable (lib : CsrLib String ℕ DevicePem)

/-- The certificate of a device for a key, signed by the CA: the key of the one file, under the
name of the other. -/
def deviceCert (s : CertDir) (caCertPath caKeyPath deviceName : String) (extraIps : List String)
    (key : ℕ) : Except String DevicePem := do
  let caCertPem ← (s.files caCertPath).elim (.error ("no file " ++ caCertPath)) .ok
  let caKeyPem ← (s.files caKeyPath).elim (.error ("no file " ++ caKeyPath)) .ok
  let caKey ← caKeyPem.keyFromPem
  let caCertName ← caCertPem.fromCaCertPem
  let params ← lib.newParams [deviceName]
  let deviceDns ← lib.ia5String deviceName
  let localhostDns ← lib.ia5String "localhost"
  return .cert ⟨nameOf deviceName, key⟩ ⟨caCertName, caKey⟩ (params.subjectAltNames ++
    [.dnsName deviceDns, .dnsName localhostDns, .ipAddress "127.0.0.1"] ++
      extraIps.map .ipAddress)

/-- Generate a device certificate signed by the CA. -/
def generateDeviceCert (s : CertDir) (caCertPath caKeyPath deviceName : String)
    (extraIps : List String) : CertDir × Except String Unit :=
  match s.deviceCert lib caCertPath caKeyPath deviceName extraIps s.nextKey with
  | .error e => (s, .error e)
  | .ok certPem =>
      ({ files := Directory.writeAll s.files
          [(deviceName ++ ".pem", certPem), (deviceName ++ "-key.pem", .key s.nextKey)]
         nextKey := s.nextKey + 1
         devices := deviceName :: s.devices }, .ok ())

/-- Parse an address of the command line. -/
def parseIp (ip : String) : Except String String :=
  (lib.parseIp ip).elim (.error "Invalid IP address: invalid IP address syntax") .ok

/-- Generate certificates. -/
def runGenCert (s : CertDir) (args : GenCert) : CertDir × Except String Unit :=
  match args.device with
  | some deviceName =>
      match args.caCert, args.caKey with
      | none, _ => (s, .error "--ca-cert is required when generating device certificate")
      | some _, none => (s, .error "--ca-key is required when generating device certificate")
      | some caCertPath, some caKeyPath =>
          match args.ips.mapM (parseIp lib) with
          | .error e => (s, .error e)
          | .ok extraIps => s.generateDeviceCert lib caCertPath caKeyPath deviceName extraIps
  | none => (s.generateCa, .ok ())

/-- The directory after a command. -/
def step (s : CertDir) (args : GenCert) : CertDir := (s.runGenCert lib args).1

/-- The configuration that a device has from its files, with the CA of the directory. -/
def tlsConfig (s : CertDir) (device : String) : Option DeviceConfig :=
  DeviceConfig.build (s.files (device ++ ".pem")) (s.files (device ++ "-key.pem"))
    (s.files "ca.pem")

/-- Any two of the devices trust each other's certificates. -/
def Trusting (s : CertDir) : Prop :=
  ∀ device ∈ s.devices, ∀ peer ∈ s.devices, ∃ own other, s.tlsConfig device = some own ∧
    s.tlsConfig peer = some other ∧ own.issuer = other.root ∧ other.issuer = own.root

/-- A CA is generated before any device gets a certificate. A device has another name than the CA,
no file of it is one of another device, the key that signs is that of the CA's certificate, and the
certificate that is given has its subject. -/
def Orderly (s : CertDir) (args : GenCert) : Prop :=
  match args.device with
  | none => s.devices = []
  | some device => (s.runGenCert lib args).2 = .ok () →
      device ≠ "ca" ∧ (∀ other ∈ s.devices, device ≠ other ++ "-key" ∧ other ≠ device ++ "-key") ∧
        ∃ ca issuer names, s.files "ca.pem" = some (.cert ca issuer names) ∧
          (∃ caKey ∈ args.caKey, s.files caKey = some (.key ca.key)) ∧
          ∃ caCert ∈ args.caCert, ∃ key issuer names,
            s.files caCert = some (.cert ⟨ca.name, key⟩ issuer names)

variable {lib} {s : CertDir}

/-! ## The names of the files -/

/-- Certificates have the same file exactly if their names are the same. -/
theorem pem_inj {a b : String} : a ++ ".pem" = b ++ ".pem" ↔ a = b := by
  rw [← String.toList_inj, ← String.toList_inj, String.toList_append, String.toList_append,
    List.append_left_inj]

/-- A key has the file of a certificate with a longer name. -/
theorem key_pem (device : String) : device ++ "-key.pem" = device ++ "-key" ++ ".pem" := by
  rw [String.append_assoc]
  rfl

/-- Keys have the same file exactly if their names are the same. -/
theorem key_inj {a b : String} : a ++ "-key" = b ++ "-key" ↔ a = b := by
  rw [← String.toList_inj, ← String.toList_inj, String.toList_append, String.toList_append,
    List.append_left_inj]

/-- A longer name is not that of the CA. -/
theorem key_ne_ca (device : String) : device ++ "-key" ≠ "ca" := by
  intro h
  have hlength := congrArg String.length h
  simp only [String.length_append] at hlength
  have hkey : "-key".length = 4 := rfl
  have hca : "ca".length = 2 := rfl
  omega

/-- A longer name is another one. -/
theorem key_ne (device : String) : device ++ "-key" ≠ device := by
  intro h
  have hlength := congrArg String.length h
  simp only [String.length_append] at hlength
  have hkey : "-key".length = 4 := rfl
  omega

/-- The files after a device has got its own. -/
theorem files_writeAll (files : String → Option DevicePem) (device : String)
    (certPem keyPem : DevicePem) (name : String) :
    Directory.writeAll files [(device ++ ".pem", certPem), (device ++ "-key.pem", keyPem)]
        (name ++ ".pem") =
      if name = device ++ "-key" then some keyPem
      else if name = device then some certPem else files (name ++ ".pem") := by
  simp only [Directory.writeAll_cons, Directory.writeAll_nil, key_pem, Function.update_apply,
    pem_inj]

/-! ## One command -/

/-- What a sequence of calls returns is returned by the last one, and the first one succeeds. -/
theorem exists_of_bind_eq_ok {α β : Type} {x : Except String α} {f : α → Except String β} {b : β}
    (h : x >>= f = .ok b) : ∃ a, x = .ok a ∧ f a = .ok b := by
  cases x with
  | error e => cases h
  | ok a => exact ⟨a, rfl, h⟩

/-- A text that is read as a private key is one. -/
theorem eq_of_keyFromPem {pem : DevicePem} {k : ℕ} (h : pem.keyFromPem = .ok k) :
    pem = .key k := by
  cases pem with
  | key k' => rw [Except.ok.inj h]
  | cert subject issuer names => cases h

/-- A text whose subject is read is a certificate with this subject. -/
theorem eq_of_fromCaCertPem {pem : DevicePem} {name : DistinguishedName}
    (h : pem.fromCaCertPem = .ok name) :
    ∃ key issuer names, pem = .cert ⟨name, key⟩ issuer names := by
  cases pem with
  | key k => cases h
  | cert subject issuer names =>
    obtain rfl := Except.ok.inj h
    exact ⟨subject.key, issuer, names, rfl⟩

/-- A file that is read is there. -/
theorem eq_of_read {path : String} {pem : DevicePem}
    (h : (s.files path).elim (.error ("no file " ++ path)) Except.ok = .ok pem) :
    s.files path = some pem := by
  cases hfile : s.files path with
  | none => simp [hfile] at h
  | some other =>
    rw [hfile] at h
    rw [Except.ok.inj h]

/-- A certificate is signed with the key of a file, in the name of the subject of another one. -/
theorem deviceCert_eq_ok {caCertPath caKeyPath deviceName : String} {extraIps : List String}
    {key : ℕ} {certPem : DevicePem}
    (h : s.deviceCert lib caCertPath caKeyPath deviceName extraIps key = .ok certPem) :
    ∃ issuer names, s.files caKeyPath = some (.key issuer.key) ∧
      (∃ k i n, s.files caCertPath = some (.cert ⟨issuer.name, k⟩ i n)) ∧
        certPem = .cert ⟨nameOf deviceName, key⟩ issuer names := by
  obtain ⟨caCertPem, hcaCert, h⟩ := exists_of_bind_eq_ok h
  obtain ⟨caKeyPem, hcaKey, h⟩ := exists_of_bind_eq_ok h
  obtain ⟨caKey, hkey, h⟩ := exists_of_bind_eq_ok h
  obtain ⟨caCertName, hname, h⟩ := exists_of_bind_eq_ok h
  obtain ⟨params, -, h⟩ := exists_of_bind_eq_ok h
  obtain ⟨deviceDns, -, h⟩ := exists_of_bind_eq_ok h
  obtain ⟨localhostDns, -, hsigned⟩ := exists_of_bind_eq_ok h
  obtain rfl := eq_of_keyFromPem hkey
  obtain ⟨k, i, n, rfl⟩ := eq_of_fromCaCertPem hname
  exact ⟨⟨caCertName, caKey⟩, _, eq_of_read hcaKey, ⟨k, i, n, eq_of_read hcaCert⟩,
    (Except.ok.inj hsigned).symm⟩

/-- The directory after a device has got a certificate of an issuer. -/
def issued (s : CertDir) (device : String) (issuer : Identity) (names : List (SanType String)) :
    CertDir where
  files := Directory.writeAll s.files
    [(device ++ ".pem", .cert ⟨nameOf device, s.nextKey⟩ issuer names),
      (device ++ "-key.pem", .key s.nextKey)]
  nextKey := s.nextKey + 1
  devices := device :: s.devices

/-- A command for a device leaves the directory alone, or signs a certificate with the key that it
is given, in the name of the certificate that it is given. -/
theorem step_device (lib : CsrLib String ℕ DevicePem) (s : CertDir) {args : GenCert}
    {device : String} (hdevice : args.device = some device) :
    ((s.runGenCert lib args).2 ≠ .ok () ∧ s.step lib args = s) ∨
      ((s.runGenCert lib args).2 = .ok () ∧ ∃ issuer names,
        (∃ caKey, args.caKey = some caKey ∧ s.files caKey = some (.key issuer.key)) ∧
        (∃ caCert, args.caCert = some caCert ∧
          ∃ k i n, s.files caCert = some (.cert ⟨issuer.name, k⟩ i n)) ∧
        s.step lib args = s.issued device issuer names) := by
  cases hcaCert : args.caCert with
  | none => left; simp [step, runGenCert, hdevice, hcaCert]
  | some caCertPath =>
    cases hcaKey : args.caKey with
    | none => left; simp [step, runGenCert, hdevice, hcaCert, hcaKey]
    | some caKeyPath =>
      cases hips : args.ips.mapM (parseIp lib) with
      | error e => left; simp [step, runGenCert, hdevice, hcaCert, hcaKey, hips]
      | ok extraIps =>
        cases hcert : s.deviceCert lib caCertPath caKeyPath device extraIps s.nextKey with
        | error e =>
          left
          simp [step, runGenCert, hdevice, hcaCert, hcaKey, hips, generateDeviceCert, hcert]
        | ok certPem =>
          right
          obtain ⟨issuer, names, hkey, hname, rfl⟩ := deviceCert_eq_ok hcert
          have hrun : s.runGenCert lib args =
              s.generateDeviceCert lib caCertPath caKeyPath device extraIps := by
            simp only [runGenCert, hdevice, hcaCert, hcaKey, hips]
          rw [step, hrun, generateDeviceCert, hcert]
          exact ⟨rfl, issuer, names, ⟨caKeyPath, rfl, hkey⟩, ⟨caCertPath, rfl, hname⟩, rfl⟩

/-- The CA that a device trusts is that of the directory. -/
theorem root_of_tlsConfig {device : String} {own : DeviceConfig}
    (h : s.tlsConfig device = some own) :
    ∃ issuer names, s.files "ca.pem" = some (.cert own.root issuer names) := by
  obtain ⟨_, _, issuer, names, -, -, hca⟩ := DeviceConfig.build_eq_some.mp h
  exact ⟨issuer, names, hca⟩

/-- Devices trust each other if each of them has a certificate of the CA that it trusts. -/
theorem trusting_iff : s.Trusting ↔
    ∀ device ∈ s.devices, ∃ own, s.tlsConfig device = some own ∧ own.issuer = own.root := by
  constructor
  · intro h device hdevice
    obtain ⟨own, other, hown, hother, hissuer, -⟩ := h device hdevice device hdevice
    obtain rfl : own = other := Option.some.inj (hown.symm.trans hother)
    exact ⟨own, hown, hissuer⟩
  · intro h device hdevice peer hpeer
    obtain ⟨own, hown, hissuer⟩ := h device hdevice
    obtain ⟨other, hother, hissuer'⟩ := h peer hpeer
    obtain ⟨i, n, hca⟩ := root_of_tlsConfig hown
    obtain ⟨i', n', hca'⟩ := root_of_tlsConfig hother
    obtain ⟨hroot, -, -⟩ := DevicePem.cert.inj (Option.some.inj (hca.symm.trans hca'))
    exact ⟨own, other, hown, hother, hissuer.trans hroot, hissuer'.trans hroot.symm⟩

/-- All keys in the directory have been generated. -/
def Fresh (s : CertDir) : Prop := ∀ name, ∀ pem ∈ s.files name, pem.Generated s.nextKey

/-- A new CA is one that no device trusts yet. -/
theorem trusting_generateCa (hfresh : s.Fresh) (hca : "ca" ∉ s.devices) :
    s.generateCa.Trusting ↔ s.devices = [] := by
  have hfiles : ∀ name, s.generateCa.files (name ++ ".pem") =
      if name = "ca" ++ "-key" then some (.key s.nextKey)
      else if name = "ca" then some (.cert ⟨caName, s.nextKey⟩ ⟨caName, s.nextKey⟩ caNames)
      else s.files (name ++ ".pem") := files_writeAll s.files "ca" _ _
  constructor
  · intro hnew
    refine List.eq_nil_iff_forall_not_mem.mpr fun device hdevice => ?_
    obtain ⟨own, hown, hissuer⟩ := trusting_iff.mp hnew device hdevice
    obtain ⟨subject, _, _, _, hcert, -, hroot⟩ := DeviceConfig.build_eq_some.mp hown
    have hne : device ≠ "ca" := fun heq => hca (heq ▸ hdevice)
    have hcaFile : s.generateCa.files "ca.pem" =
        some (.cert ⟨caName, s.nextKey⟩ ⟨caName, s.nextKey⟩ caNames) := hfiles "ca"
    obtain ⟨hnext, -, -⟩ := DevicePem.cert.inj (Option.some.inj (hcaFile.symm.trans hroot))
    rw [hfiles, if_neg hne] at hcert
    split at hcert
    · exact absurd hcert (by simp)
    · have hbelow := (hfresh _ _ hcert).2
      rw [hissuer, ← hnext] at hbelow
      exact absurd hbelow (Nat.lt_irrefl _)
  · intro hempty device hdevice
    have hnone : device ∈ s.devices := hdevice
    rw [hempty] at hnone
    exact absurd hnone List.not_mem_nil

/-- A device that gets a certificate. -/
theorem trusting_issue (h : s.Trusting) (device : String) {issuer : Identity}
    (names : List (SanType String)) (hissuer : issuer.key < s.nextKey) :
    (s.issued device issuer names).Trusting ↔
      device ≠ "ca" ∧ (∀ other ∈ s.devices, device ≠ other ++ "-key" ∧ other ≠ device ++ "-key") ∧
        ∃ issuer' names', s.files "ca.pem" = some (.cert issuer issuer' names') := by
  set files := (s.issued device issuer names).files with hdef
  have hfiles : ∀ name, files (name ++ ".pem") =
      if name = device ++ "-key" then some (.key s.nextKey)
      else if name = device then some (.cert ⟨nameOf device, s.nextKey⟩ issuer names)
      else s.files (name ++ ".pem") := files_writeAll s.files device _ _
  have hcert : files (device ++ ".pem") =
      some (.cert ⟨nameOf device, s.nextKey⟩ issuer names) := by
    rw [hfiles, if_neg (key_ne device).symm, if_pos rfl]
  have hkey : files (device ++ "-key.pem") = some (.key s.nextKey) := by
    rw [key_pem, hfiles, if_pos rfl]
  have hca : device ≠ "ca" → files "ca.pem" = s.files "ca.pem" := by
    intro hne
    have hcaFile := hfiles "ca"
    rwa [if_neg (key_ne_ca device).symm, if_neg hne.symm] at hcaFile
  rw [trusting_iff]
  constructor
  · intro hnew
    obtain ⟨own, hown, hown'⟩ := hnew device List.mem_cons_self
    obtain ⟨subject, _, issuer', names', hcert', -, hroot⟩ := DeviceConfig.build_eq_some.mp hown
    obtain ⟨-, hsigner, -⟩ := DevicePem.cert.inj (Option.some.inj (hcert.symm.trans hcert'))
    rw [← hown', ← hsigner] at hroot
    have hne : device ≠ "ca" := by
      rintro rfl
      obtain ⟨hnext, -, -⟩ := DevicePem.cert.inj (Option.some.inj (hcert.symm.trans hroot))
      rw [← hnext] at hissuer
      exact absurd hissuer (Nat.lt_irrefl _)
    refine ⟨hne, fun other hother => ?_, issuer', names', (hca hne).symm.trans hroot⟩
    obtain ⟨other', hother', -⟩ := hnew other (List.mem_cons_of_mem _ hother)
    obtain ⟨_, _, _, _, hcert'', hkey'', -⟩ := DeviceConfig.build_eq_some.mp hother'
    constructor
    · rintro rfl
      rw [key_pem] at hkey''
      exact absurd (hcert.symm.trans hkey'') (by simp)
    · rintro rfl
      rw [key_pem] at hkey
      exact absurd (hkey.symm.trans hcert'') (by simp)
  · rintro ⟨hne, hapart, issuer', names', hcaFile⟩ other hother
    have hcaFile' := (hca hne).trans hcaFile
    by_cases hsame : other = device
    · subst hsame
      exact ⟨⟨issuer, issuer⟩, DeviceConfig.build_eq_some.mpr
        ⟨_, names, issuer', names', hcert, hkey, hcaFile'⟩, rfl⟩
    · have hother : other ∈ s.devices := (List.mem_cons.mp hother).resolve_left hsame
      obtain ⟨hname, hname'⟩ := hapart other hother
      have hcertFile : files (other ++ ".pem") = s.files (other ++ ".pem") := by
        rw [hfiles, if_neg hname', if_neg hsame]
      have hkeyFile : files (other ++ "-key.pem") = s.files (other ++ "-key.pem") := by
        rw [key_pem, hfiles, if_neg fun heq => hsame (key_inj.mp heq), if_neg (Ne.symm hname)]
      obtain ⟨own, hown, hown'⟩ := trusting_iff.mp h other hother
      refine ⟨own, ?_, hown'⟩
      rw [← hown, tlsConfig, tlsConfig, ← hdef]
      simp only [hcertFile, hkeyFile, hca hne]

/-- The keys have been generated, the devices trust each other, and none has the name of the CA. -/
structure Kept (s : CertDir) : Prop where
  fresh : s.Fresh
  trusting : s.Trusting
  named : "ca" ∉ s.devices

/-- Files that are written with generated keys keep all of them generated. -/
theorem fresh_writeAll {files : String → Option DevicePem} {n : ℕ}
    (hfiles : ∀ name, ∀ pem ∈ files name, pem.Generated n) {writes : List (String × DevicePem)}
    (hwrites : ∀ w ∈ writes, w.2.Generated n) :
    ∀ name, ∀ pem ∈ Directory.writeAll files writes name, pem.Generated n := by
  induction writes generalizing files with
  | nil => exact hfiles
  | cons w writes ih =>
    obtain ⟨hfirst, hrest⟩ := List.forall_mem_cons.mp hwrites
    refine ih (fun name pem hpem => ?_) hrest
    by_cases hname : name = w.1
    · obtain rfl : w.2 = pem := by simpa [hname] using hpem
      exact hfirst
    · exact hfiles name pem (by simpa [Function.update_of_ne hname] using hpem)

/-- A key with its certificate, both newly written, keeps all keys generated. -/
theorem Kept.fresh_writeAll_pair (h : s.Kept) {certFile keyFile : String}
    {subject : DistinguishedName} {issuer : Identity} (names : List (SanType String))
    (hissuer : issuer.key < s.nextKey + 1) :
    ∀ name, ∀ pem ∈ Directory.writeAll s.files
      [(certFile, .cert ⟨subject, s.nextKey⟩ issuer names), (keyFile, .key s.nextKey)] name,
        pem.Generated (s.nextKey + 1) := by
  have hmono : ∀ name, ∀ pem ∈ s.files name, pem.Generated (s.nextKey + 1) :=
    fun name pem hpem => (h.fresh name pem hpem).mono (Nat.le_succ _)
  have hnext : s.nextKey < s.nextKey + 1 := Nat.lt_succ_self _
  refine fresh_writeAll hmono fun w hw => ?_
  simp only [List.mem_cons, List.not_mem_nil, or_false] at hw
  rcases hw with rfl | rfl
  · exact ⟨hnext, hissuer⟩
  · exact hnext

/-- A command that signs is orderly exactly if the names are apart and the issuer is the CA of the
directory. -/
theorem orderly_iff {args : GenCert} {device : String} {issuer : Identity}
    (hdevice : args.device = some device) (hok : (s.runGenCert lib args).2 = .ok ())
    (hkey : ∃ caKey, args.caKey = some caKey ∧ s.files caKey = some (.key issuer.key))
    (hname : ∃ caCert, args.caCert = some caCert ∧
      ∃ k i n, s.files caCert = some (.cert ⟨issuer.name, k⟩ i n)) :
    s.Orderly lib args ↔ device ≠ "ca" ∧
      (∀ other ∈ s.devices, device ≠ other ++ "-key" ∧ other ≠ device ++ "-key") ∧
        ∃ issuer' names', s.files "ca.pem" = some (.cert issuer issuer' names') := by
  simp only [Orderly, hdevice, hok, forall_const]
  refine and_congr_right fun _ => and_congr_right fun _ => ⟨?_, ?_⟩
  · rintro ⟨ca, issuer', names', hcaFile, ⟨path, hpath, hfile⟩, path', hpath', hgiven⟩
    obtain ⟨caKey, hcaKey, hkey⟩ := hkey
    obtain ⟨caCert, hcaCert, k, i, n, hname⟩ := hname
    obtain ⟨k', i', n', hfile'⟩ := hgiven
    obtain rfl : caKey = path := Option.some.inj (hcaKey.symm.trans hpath)
    obtain rfl : caCert = path' := Option.some.inj (hcaCert.symm.trans hpath')
    have hsameKey : issuer.key = ca.key :=
      DevicePem.key.inj (Option.some.inj (hkey.symm.trans hfile))
    have hsameName : issuer.name = ca.name := by
      obtain ⟨hsubject, -, -⟩ := DevicePem.cert.inj (Option.some.inj (hname.symm.trans hfile'))
      exact (Identity.mk.inj hsubject).1
    obtain rfl : issuer = ca := Identity.ext hsameName hsameKey
    exact ⟨issuer', names', hcaFile⟩
  · rintro ⟨issuer', names', hcaFile⟩
    exact ⟨issuer, issuer', names', hcaFile, hkey, hname⟩

/-- A command leaves devices that trust each other exactly if it is orderly, and an orderly one
keeps the rest. -/
theorem Kept.step_iff (h : s.Kept) (args : GenCert) :
    ((s.step lib args).Trusting ↔ s.Orderly lib args) ∧
      (s.Orderly lib args → (s.step lib args).Kept) := by
  cases hdevice : args.device with
  | none =>
    have hstep : s.step lib args = s.generateCa := by simp only [step, runGenCert, hdevice]
    have horderly : s.Orderly lib args ↔ s.devices = [] := by simp only [Orderly, hdevice]
    have htrusting := trusting_generateCa h.fresh h.named
    rw [hstep, horderly]
    refine ⟨htrusting, fun hempty => ⟨?_, htrusting.mpr hempty, h.named⟩⟩
    exact h.fresh_writeAll_pair caNames (Nat.lt_succ_self _)
  | some device =>
    rcases step_device lib s hdevice with ⟨hfailed, hstep⟩ |
      ⟨hok, issuer, names, hkey, hname, hstep⟩
    · rw [hstep]
      refine ⟨iff_of_true h.trusting ?_, fun _ => h⟩
      simp only [Orderly, hdevice]
      exact fun hok => absurd hok hfailed
    · have hissuer : issuer.key < s.nextKey := by
        obtain ⟨caKey, -, hfile⟩ := hkey
        exact h.fresh _ _ hfile
      have htrusting := trusting_issue h.trusting device names hissuer
      rw [hstep, orderly_iff hdevice hok hkey hname]
      refine ⟨htrusting, fun hclean => ⟨?_, htrusting.mpr hclean, ?_⟩⟩
      · exact h.fresh_writeAll_pair names (Nat.lt_succ_of_lt hissuer)
      · exact fun hmem => (List.mem_cons.mp hmem).elim (fun heq => hclean.1 heq.symm) h.named

/-- The certificate of a device is written to the file of another one's key. -/
example :
    let lib : CsrLib String ℕ DevicePem := ⟨fun _ => none, id, fun _ => .key, .key⟩
    let ca : GenCert := ⟨none, none, none, []⟩
    let laptop : GenCert := ⟨some "laptop", some "ca.pem", some "ca-key.pem", []⟩
    let s := [ca, laptop].foldl (step lib) start
    s.tlsConfig "laptop" ≠ none ∧
      (s.step lib { laptop with device := some "laptop-key" }).tlsConfig "laptop" = none := by
  decide +kernel

end CertDir

end SuperShare
