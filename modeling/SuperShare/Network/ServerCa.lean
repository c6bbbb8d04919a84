import Mathlib.Data.Nat.Notation
import SuperShare.Lib.Directory
import SuperShare.Lib.Run

/-!
# The certificate authority of the server

`ensure_server_ca` sets up the files of the server's CA and of its own certificate, or reuses
those that exist. The functions of rcgen are parameters, and what the call does to the directory
is the list of its writes, so that a call that is killed has done an initial part of them.
-/

namespace SuperShare

/-- The files that `ensure_server_ca` keeps. -/
inductive ServerFile where
  | caCert | caKey | serverCert | serverKey
  deriving DecidableEq

/-- The names of the files in the trust directory. -/
def ServerFile.name : ServerFile → String
  | caCert => "ca.pem"
  | caKey => "ca-key.pem"
  | serverCert => "server.pem"
  | serverKey => "server-key.pem"

/-- Third-party functions on key pairs `κ`, certificate parameters `γ` and PEM texts `π`. -/
structure CertLib (κ γ π : Type) where
  /-- `KeyPair::serialize_pem`. -/
  serializePem : κ → π
  /-- `KeyPair::from_pem`. -/
  keyFromPem : π → Except String κ
  /-- The self-signed certificate of a fresh CA. -/
  caCertPem : κ → π
  /-- `CertificateParams::from_ca_cert_pem`. -/
  fromCaCertPem : π → Except String γ
  /-- The certificate of the server for a key pair, signed by an issuer. -/
  serverSignedBy : List String → κ → γ → κ → Except String π

variable {κ γ π : Type}

/-- Generate a server certificate and its key, signed by the CA. -/
def generateServerCert (lib : CertLib κ γ π) (caCertPem caKeyPem : π) (serverIps : List String)
    (key : κ) : Except String (π × π) :=
  match lib.keyFromPem caKeyPem with
  | .error e => .error ("failed to parse CA key: " ++ e)
  | .ok caKey =>
      match lib.fromCaCertPem caCertPem with
      | .error e => .error ("failed to parse CA cert: " ++ e)
      | .ok caParams =>
          match lib.serverSignedBy serverIps key caParams caKey with
          | .error e => .error e
          | .ok certPem => .ok (certPem, lib.serializePem key)

/-- Ensure that a CA and a server certificate exist. The files that are there decide what is
written, and the key pairs are those that are generated if they are needed. -/
def ensureServerCa (lib : CertLib κ γ π) (files : ServerFile → Option π) (serverIps : List String)
    (caKey serverKey : κ) : List (ServerFile × π) × Except String Unit :=
  match files .caCert, files .caKey with
  | some caCertPem, some caKeyPem =>
      -- The CA exists, and is reused.
      if (files .serverCert).isNone || (files .serverKey).isNone then
        match generateServerCert lib caCertPem caKeyPem serverIps serverKey with
        | .error e => ([], .error e)
        | .ok (serverCertPem, serverKeyPem) =>
            ([(.serverCert, serverCertPem), (.serverKey, serverKeyPem)], .ok ())
      else ([], .ok ())
  | _, _ =>
      let caCertPem := lib.caCertPem caKey
      let caKeyPem := lib.serializePem caKey
      match generateServerCert lib caCertPem caKeyPem serverIps serverKey with
      | .error e => ([(.caCert, caCertPem), (.caKey, caKeyPem)], .error e)
      | .ok (serverCertPem, serverKeyPem) =>
          ([(.caCert, caCertPem), (.caKey, caKeyPem), (.serverCert, serverCertPem),
            (.serverKey, serverKeyPem)], .ok ())

/-- PEM texts with symbolic keys. A certificate says whose key it is and by which key it is
signed. -/
inductive SymbolicPem where
  | key (k : ℕ)
  | cert (subject issuer : ℕ)
  deriving DecidableEq

/-- The functions on symbolic keys. -/
def CertLib.symbolic : CertLib ℕ Unit SymbolicPem where
  serializePem := .key
  keyFromPem
    | .key k => .ok k
    | .cert .. => .error "no private key"
  caCertPem k := .cert k k
  fromCaCertPem
    | .cert .. => .ok ()
    | .key _ => .error "no certificate"
  serverSignedBy _ key _ issuer := .ok (.cert key issuer)

/-- The key of the CA is that of its certificate, the certificate of the server is signed by it,
and the key of the server is that of its certificate. -/
def Consistent (files : ServerFile → Option SymbolicPem) : Prop :=
  ∃ ca server, files .caCert = some (.cert ca ca) ∧ files .caKey = some (.key ca) ∧
    files .serverCert = some (.cert server ca) ∧ files .serverKey = some (.key server)

/-- A run of `ensure_server_ca`, which may be killed after some of its writes. -/
structure SetupRun where
  serverIps : List String
  killedAfter : Option ℕ

/-- The files of the server, and a number that no key has had. -/
structure ServerSetup where
  files : ServerFile → Option SymbolicPem
  nextKey : ℕ

namespace ServerSetup

/-- Some of the four files of a consistent set. -/
def start (ca server : ℕ) (kept : ServerFile → Bool) : ServerSetup where
  files
    | .caCert => if kept .caCert then some (.cert ca ca) else none
    | .caKey => if kept .caKey then some (.key ca) else none
    | .serverCert => if kept .serverCert then some (.cert server ca) else none
    | .serverKey => if kept .serverKey then some (.key server) else none
  nextKey := max ca server + 1

/-- What a run that is not killed writes, and its result. -/
def ensure (s : ServerSetup) (serverIps : List String) :
    List (ServerFile × SymbolicPem) × Except String Unit :=
  ensureServerCa .symbolic s.files serverIps s.nextKey (s.nextKey + 1)

/-- One run. -/
def step (s : ServerSetup) (run : SetupRun) : ServerSetup where
  files := Directory.writeAll s.files
    (match run.killedAfter with
    | none => (s.ensure run.serverIps).1
    | some writes => (s.ensure run.serverIps).1.take writes)
  nextKey := s.nextKey + 2

/-- A run that is not killed and returns `Ok` leaves consistent files. -/
def Recovers (s : ServerSetup) : Prop :=
  ∀ serverIps, (s.ensure serverIps).2 = .ok () → Consistent (s.step ⟨serverIps, none⟩).files

/-- A run is not killed where it leaves new files that fit together with old ones only by their
existence: not between a certificate and its key while the file of the key exists, and not between
a new CA and the certificate of the server while both files of the server exist. -/
def KilledSafely (s : ServerSetup) (run : SetupRun) : Prop :=
  if s.files .caCert ≠ none ∧ s.files .caKey ≠ none then
    run.killedAfter = some 1 → s.files .serverCert = none → s.files .serverKey = none
  else
    (run.killedAfter = some 1 → s.files .caKey = none) ∧
      (run.killedAfter = some 2 → s.files .serverCert = none ∨ s.files .serverKey = none) ∧
      (run.killedAfter = some 3 → s.files .serverKey = none)

end ServerSetup

/-- The keys in the files: of the certificate and the key of the CA, of the certificate of the
server with that of its issuer, and of the key of the server. -/
structure SetupKeys where
  ca : Option ℕ
  caKey : Option ℕ
  server : Option (ℕ × ℕ)
  serverKey : Option ℕ

namespace SetupKeys

/-- The files with these keys. -/
def files (keys : SetupKeys) : ServerFile → Option SymbolicPem
  | .caCert => keys.ca.map fun k => .cert k k
  | .caKey => keys.caKey.map .key
  | .serverCert => keys.server.map fun c => .cert c.1 c.2
  | .serverKey => keys.serverKey.map .key

/-- All keys have smaller numbers. -/
structure Below (keys : SetupKeys) (n : ℕ) : Prop where
  ca : ∀ k ∈ keys.ca, k < n
  caKey : ∀ k ∈ keys.caKey, k < n
  server : ∀ c ∈ keys.server, c.1 < n ∧ c.2 < n
  serverKey : ∀ k ∈ keys.serverKey, k < n

/-- The keys fit together where a pair of files exists. -/
def Fits (keys : SetupKeys) : Prop :=
  ∀ k ∈ keys.ca, ∀ k' ∈ keys.caKey, k = k' ∧
    ∀ c ∈ keys.server, ∀ t ∈ keys.serverKey, c.2 = k ∧ c.1 = t

section Update

variable (keys : SetupKeys) (k issuer : ℕ)

@[simp] theorem update_caCert : Function.update keys.files .caCert (some (.cert k k)) =
    files { keys with ca := some k } := by
  funext f
  cases f <;> rfl

@[simp] theorem update_caKey : Function.update keys.files .caKey (some (.key k)) =
    files { keys with caKey := some k } := by
  funext f
  cases f <;> rfl

@[simp] theorem update_serverCert :
    Function.update keys.files .serverCert (some (.cert k issuer)) =
      files { keys with server := some (k, issuer) } := by
  funext f
  cases f <;> rfl

@[simp] theorem update_serverKey : Function.update keys.files .serverKey (some (.key k)) =
    files { keys with serverKey := some k } := by
  funext f
  cases f <;> rfl

end Update

variable {keys : SetupKeys} {n : ℕ}

/-- Without a whole CA, everything is generated. -/
theorem ensure_fresh (h : keys.ca = none ∨ keys.caKey = none) (serverIps : List String) :
    ServerSetup.ensure ⟨keys.files, n⟩ serverIps =
      ([(.caCert, .cert n n), (.caKey, .key n), (.serverCert, .cert (n + 1) n),
        (.serverKey, .key (n + 1))], .ok ()) := by
  obtain ⟨ca, caKey, server, serverKey⟩ := keys
  rcases h with rfl | rfl
  · rfl
  · cases ca <;> rfl

/-- A CA without a whole server certificate signs a new one, with the key that is there. -/
theorem ensure_reissue {k k' : ℕ} {server : Option (ℕ × ℕ)} {serverKey : Option ℕ}
    (h : server = none ∨ serverKey = none) (serverIps : List String) :
    ServerSetup.ensure ⟨files ⟨some k, some k', server, serverKey⟩, n⟩ serverIps =
      ([(.serverCert, .cert (n + 1) k'), (.serverKey, .key (n + 1))], .ok ()) := by
  rcases h with rfl | rfl
  · rfl
  · cases server <;> rfl

/-- Four files that exist are reused. -/
theorem ensure_reuse {k k' t : ℕ} {c : ℕ × ℕ} (serverIps : List String) :
    ServerSetup.ensure ⟨files ⟨some k, some k', some c, some t⟩, n⟩ serverIps = ([], .ok ()) := rfl

/-- The files are consistent if they all exist and fit. -/
theorem consistent_iff : Consistent keys.files ↔
    ∃ k t, keys = ⟨some k, some k, some (t, k), some t⟩ := by
  obtain ⟨ca, caKey, server, serverKey⟩ := keys
  constructor
  · rintro ⟨k, t, hca, hcaKey, hserver, hserverKey⟩
    refine ⟨k, t, ?_⟩
    cases ca <;> cases caKey <;> cases server <;> cases serverKey <;>
      simp_all [files, Prod.ext_iff]
  · rintro ⟨k, t, hkeys⟩
    rw [hkeys]
    exact ⟨k, t, rfl, rfl, rfl, rfl⟩

/-- Files are reused by their existence, so that a run recovers exactly from files that fit. -/
theorem recovers_iff : ServerSetup.Recovers ⟨keys.files, n⟩ ↔ keys.Fits := by
  by_cases hfresh : keys.ca = none ∨ keys.caKey = none
  · -- Everything is new.
    have hfits : keys.Fits := by
      intro k hk k' hk'
      rcases hfresh with h | h <;> simp [h] at hk hk'
    refine iff_of_true (fun serverIps _ => ?_) hfits
    simp only [ServerSetup.step, ensure_fresh hfresh, Directory.writeAll_cons,
      Directory.writeAll_nil, update_caCert, update_caKey, update_serverCert, update_serverKey]
    exact consistent_iff.mpr ⟨n, n + 1, rfl⟩
  obtain ⟨ca, caKey, server, serverKey⟩ := keys
  obtain ⟨hca, hcaKey⟩ := not_or.mp hfresh
  obtain ⟨k, rfl⟩ := Option.ne_none_iff_exists'.mp hca
  obtain ⟨k', rfl⟩ := Option.ne_none_iff_exists'.mp hcaKey
  by_cases hreissue : server = none ∨ serverKey = none
  · -- The new certificate is signed by the key that is there, whatever the CA's certificate.
    have hfits : Fits ⟨some k, some k', server, serverKey⟩ ↔ k = k' := by
      rcases hreissue with rfl | rfl <;> simp [Fits]
    rw [hfits]
    constructor
    · intro hrecovers
      have hconsistent := hrecovers [] (by rw [ensure_reissue hreissue])
      simp only [ServerSetup.step, ensure_reissue hreissue, Directory.writeAll_cons,
        Directory.writeAll_nil, update_serverCert, update_serverKey, consistent_iff,
        mk.injEq] at hconsistent
      obtain ⟨l, t, hk, hk', -, -⟩ := hconsistent
      exact (Option.some.inj hk).trans (Option.some.inj hk').symm
    · rintro rfl serverIps _
      simp only [ServerSetup.step, ensure_reissue hreissue, Directory.writeAll_cons,
        Directory.writeAll_nil, update_serverCert, update_serverKey]
      exact consistent_iff.mpr ⟨k, n + 1, rfl⟩
  · -- Nothing is written.
    obtain ⟨hserver, hserverKey⟩ := not_or.mp hreissue
    obtain ⟨⟨subject, issuer⟩, rfl⟩ := Option.ne_none_iff_exists'.mp hserver
    obtain ⟨t, rfl⟩ := Option.ne_none_iff_exists'.mp hserverKey
    constructor
    · intro hrecovers
      obtain ⟨l, u, hkeys⟩ := consistent_iff.mp (hrecovers [] rfl)
      simp only [mk.injEq, Option.some.injEq, Prod.mk.injEq] at hkeys
      simp [Fits, hkeys]
    · intro hfits serverIps _
      obtain ⟨rfl, hpair⟩ := hfits k rfl k' rfl
      obtain ⟨rfl, rfl⟩ := hpair _ rfl t rfl
      exact consistent_iff.mpr ⟨issuer, subject, rfl⟩

section Fits

variable {ca caKey : Option ℕ} {server : Option (ℕ × ℕ)} {serverKey : Option ℕ}

/-- A new CA certificate fits no old key. -/
theorem fits_newCa (hcaKey : ∀ k ∈ caKey, k < n) :
    Fits ⟨some n, caKey, server, serverKey⟩ ↔ caKey = none := by
  cases caKey with
  | none => simp [Fits]
  | some k =>
    have hne : n ≠ k := Nat.ne_of_gt (hcaKey k rfl)
    simp [Fits, hne]

/-- A new CA fits no old certificate of the server that has a key. -/
theorem fits_newCaKey (hserver : ∀ c ∈ server, c.1 < n ∧ c.2 < n) :
    Fits ⟨some n, some n, server, serverKey⟩ ↔ server = none ∨ serverKey = none := by
  cases server with
  | none => simp [Fits]
  | some c =>
    have hne : c.2 ≠ n := Nat.ne_of_lt (hserver c rfl).2
    cases serverKey <;> simp [Fits, hne]

/-- A new certificate of the server fits no old key. -/
theorem fits_newServer {k : ℕ} (hserverKey : ∀ t ∈ serverKey, t < n) :
    Fits ⟨some k, some k, some (n + 1, k), serverKey⟩ ↔ serverKey = none := by
  cases serverKey with
  | none => simp [Fits]
  | some t =>
    have hne : n + 1 ≠ t := by
      have hlt := hserverKey t rfl
      omega
    simp [Fits, hne]

end Fits

/-- Later keys have larger numbers still. -/
theorem Below.mono (h : keys.Below n) {m : ℕ} (hle : n ≤ m) : keys.Below m where
  ca k hk := Nat.lt_of_lt_of_le (h.ca k hk) hle
  caKey k hk := Nat.lt_of_lt_of_le (h.caKey k hk) hle
  server c hc := ⟨Nat.lt_of_lt_of_le (h.server c hc).1 hle,
    Nat.lt_of_lt_of_le (h.server c hc).2 hle⟩
  serverKey k hk := Nat.lt_of_lt_of_le (h.serverKey k hk) hle

end SetupKeys

namespace ServerSetup

/-- The files of the server have keys that were generated before. -/
def Generated (s : ServerSetup) : Prop :=
  ∃ keys : SetupKeys, s.files = keys.files ∧ keys.Below s.nextKey

/-- The files that a run leaves are given by their keys. -/
theorem of_files {s : ServerSetup} {keys : SetupKeys} (hfiles : s.files = keys.files)
    (hbelow : keys.Below s.nextKey) : s.Generated ∧ (s.Recovers ↔ keys.Fits) := by
  refine ⟨⟨keys, hfiles, hbelow⟩, ?_⟩
  obtain ⟨files, n⟩ := s
  obtain rfl := hfiles
  exact SetupKeys.recovers_iff

/-- A new CA does not fit an old key, an old certificate does not fit the new CA, and an old key
does not fit a new certificate. -/
theorem step_fresh {keys : SetupKeys} {n : ℕ} (hbelow : keys.Below n)
    (hfresh : keys.ca = none ∨ keys.caKey = none) (run : SetupRun) :
    let s : ServerSetup := ⟨keys.files, n⟩
    (s.step run).Generated ∧ ((s.step run).Recovers ↔ s.KilledSafely run) := by
  intro s
  obtain ⟨ca, caKey, server, serverKey⟩ := keys
  have hsafe : s.KilledSafely run ↔
      (run.killedAfter = some 1 → caKey = none) ∧
        (run.killedAfter = some 2 → server = none ∨ serverKey = none) ∧
          (run.killedAfter = some 3 → serverKey = none) := by
    have hca : ¬ (s.files .caCert ≠ none ∧ s.files .caKey ≠ none) := by
      rcases hfresh with rfl | rfl <;> simp [s, SetupKeys.files]
    rw [KilledSafely, if_neg hca]
    simp [s, SetupKeys.files]
  rw [hsafe]
  obtain ⟨serverIps, killedAfter⟩ := run
  obtain ⟨hca, hcaKey, hserver, hserverKey⟩ := hbelow.mono (Nat.le_add_right n 2)
  have hlt : n < n + 2 := by omega
  rcases killedAfter with _ | _ | _ | _ | _ | writes
  · -- Not killed: everything is new.
    have hfiles : (s.step ⟨serverIps, none⟩).files =
        SetupKeys.files ⟨some n, some n, some (n + 1, n), some (n + 1)⟩ := by
      simp [s, step, SetupKeys.ensure_fresh hfresh]
    obtain ⟨hgenerated, hfits⟩ := of_files hfiles (by constructor <;> simp [s, step])
    refine ⟨hgenerated, hfits.trans ?_⟩
    simp [SetupKeys.Fits]
  · -- Before the first write.
    have hfiles : (s.step ⟨serverIps, some 0⟩).files =
        SetupKeys.files ⟨ca, caKey, server, serverKey⟩ := by
      simp [s, step]
    obtain ⟨hgenerated, hfits⟩ := of_files hfiles ⟨hca, hcaKey, hserver, hserverKey⟩
    refine ⟨hgenerated, hfits.trans ?_⟩
    rcases hfresh with rfl | rfl <;> simp [SetupKeys.Fits]
  · -- After the certificate of the CA.
    have hfiles : (s.step ⟨serverIps, some 1⟩).files =
        SetupKeys.files ⟨some n, caKey, server, serverKey⟩ := by
      simp [s, step, SetupKeys.ensure_fresh hfresh]
    obtain ⟨hgenerated, hfits⟩ := of_files hfiles ⟨by simp [s, step], hcaKey, hserver, hserverKey⟩
    refine ⟨hgenerated, hfits.trans ?_⟩
    rw [SetupKeys.fits_newCa hbelow.caKey]
    simp
  · -- After the key of the CA.
    have hfiles : (s.step ⟨serverIps, some 2⟩).files =
        SetupKeys.files ⟨some n, some n, server, serverKey⟩ := by
      simp [s, step, SetupKeys.ensure_fresh hfresh]
    obtain ⟨hgenerated, hfits⟩ :=
      of_files hfiles ⟨by simp [s, step], by simp [s, step], hserver, hserverKey⟩
    refine ⟨hgenerated, hfits.trans ?_⟩
    rw [SetupKeys.fits_newCaKey hbelow.server]
    simp
  · -- After the certificate of the server.
    have hfiles : (s.step ⟨serverIps, some 3⟩).files =
        SetupKeys.files ⟨some n, some n, some (n + 1, n), serverKey⟩ := by
      simp [s, step, SetupKeys.ensure_fresh hfresh]
    obtain ⟨hgenerated, hfits⟩ :=
      of_files hfiles ⟨by simp [s, step], by simp [s, step], by simp [s, step], hserverKey⟩
    refine ⟨hgenerated, hfits.trans ?_⟩
    rw [SetupKeys.fits_newServer hbelow.serverKey]
    simp
  · -- After the last write.
    have hfiles : (s.step ⟨serverIps, some (writes + 4)⟩).files =
        SetupKeys.files ⟨some n, some n, some (n + 1, n), some (n + 1)⟩ := by
      simp [s, step, SetupKeys.ensure_fresh hfresh]
    obtain ⟨hgenerated, hfits⟩ := of_files hfiles (by constructor <;> simp [s, step])
    refine ⟨hgenerated, hfits.trans ?_⟩
    simp [SetupKeys.Fits]

/-- A new certificate of the server does not fit an old key. -/
theorem step_reissue {k n : ℕ} {server : Option (ℕ × ℕ)} {serverKey : Option ℕ}
    (hbelow : SetupKeys.Below ⟨some k, some k, server, serverKey⟩ n)
    (hreissue : server = none ∨ serverKey = none) (run : SetupRun) :
    let s : ServerSetup := ⟨SetupKeys.files ⟨some k, some k, server, serverKey⟩, n⟩
    (s.step run).Generated ∧ ((s.step run).Recovers ↔ s.KilledSafely run) := by
  intro s
  have hsafe : s.KilledSafely run ↔
      (run.killedAfter = some 1 → server = none → serverKey = none) := by
    rw [KilledSafely, if_pos (by simp [s, SetupKeys.files])]
    simp [s, SetupKeys.files]
  rw [hsafe]
  obtain ⟨serverIps, killedAfter⟩ := run
  obtain ⟨hca, hcaKey, hserver, hserverKey⟩ := hbelow.mono (Nat.le_add_right n 2)
  have hk : k < n := hbelow.ca k rfl
  have hnew : (n + 1, k).1 < n + 2 ∧ (n + 1, k).2 < n + 2 := ⟨by omega, by omega⟩
  rcases killedAfter with _ | _ | _ | writes
  · -- Not killed.
    have hfiles : (s.step ⟨serverIps, none⟩).files =
        SetupKeys.files ⟨some k, some k, some (n + 1, k), some (n + 1)⟩ := by
      simp [s, step, SetupKeys.ensure_reissue hreissue]
    obtain ⟨hgenerated, hfits⟩ :=
      of_files hfiles ⟨hca, hcaKey, by simpa [s, step] using hnew, by simp [s, step]⟩
    refine ⟨hgenerated, hfits.trans ?_⟩
    simp [SetupKeys.Fits]
  · -- Before the first write.
    have hfiles : (s.step ⟨serverIps, some 0⟩).files =
        SetupKeys.files ⟨some k, some k, server, serverKey⟩ := by
      simp [s, step]
    obtain ⟨hgenerated, hfits⟩ := of_files hfiles ⟨hca, hcaKey, hserver, hserverKey⟩
    refine ⟨hgenerated, hfits.trans ?_⟩
    rcases hreissue with rfl | rfl <;> simp [SetupKeys.Fits]
  · -- After the certificate. The key of a certificate that was there is missing.
    have hfiles : (s.step ⟨serverIps, some 1⟩).files =
        SetupKeys.files ⟨some k, some k, some (n + 1, k), serverKey⟩ := by
      simp [s, step, SetupKeys.ensure_reissue hreissue]
    obtain ⟨hgenerated, hfits⟩ :=
      of_files hfiles ⟨hca, hcaKey, by simpa [s, step] using hnew, hserverKey⟩
    refine ⟨hgenerated, hfits.trans ?_⟩
    rw [SetupKeys.fits_newServer hbelow.serverKey]
    rcases hreissue with rfl | rfl <;> simp
  · -- After the key.
    have hfiles : (s.step ⟨serverIps, some (writes + 2)⟩).files =
        SetupKeys.files ⟨some k, some k, some (n + 1, k), some (n + 1)⟩ := by
      simp [s, step, SetupKeys.ensure_reissue hreissue]
    obtain ⟨hgenerated, hfits⟩ :=
      of_files hfiles ⟨hca, hcaKey, by simpa [s, step] using hnew, by simp [s, step]⟩
    refine ⟨hgenerated, hfits.trans ?_⟩
    simp [SetupKeys.Fits]

/-- From files that fit, a run leaves files that fit exactly if it is killed safely. -/
theorem step_recovers_iff {s : ServerSetup} (h : s.Generated) (hrecovers : s.Recovers)
    (run : SetupRun) :
    (s.step run).Generated ∧ ((s.step run).Recovers ↔ s.KilledSafely run) := by
  obtain ⟨files, n⟩ := s
  obtain ⟨⟨ca, caKey, server, serverKey⟩, hfiles, hbelow⟩ := h
  obtain rfl := hfiles
  rw [SetupKeys.recovers_iff] at hrecovers
  by_cases hfresh : ca = none ∨ caKey = none
  · exact step_fresh hbelow hfresh run
  obtain ⟨hca, hcaKey⟩ := not_or.mp hfresh
  obtain ⟨k, rfl⟩ := Option.ne_none_iff_exists'.mp hca
  obtain ⟨k', rfl⟩ := Option.ne_none_iff_exists'.mp hcaKey
  obtain ⟨rfl, hpair⟩ := hrecovers k rfl k' rfl
  by_cases hreissue : server = none ∨ serverKey = none
  · exact step_reissue hbelow hreissue run
  · -- Nothing is written.
    obtain ⟨hserver, hserverKey⟩ := not_or.mp hreissue
    obtain ⟨c, rfl⟩ := Option.ne_none_iff_exists'.mp hserver
    obtain ⟨t, rfl⟩ := Option.ne_none_iff_exists'.mp hserverKey
    obtain ⟨serverIps, killedAfter⟩ := run
    have hfiles : (step ⟨SetupKeys.files ⟨some k, some k, some c, some t⟩, n⟩
        ⟨serverIps, killedAfter⟩).files = SetupKeys.files ⟨some k, some k, some c, some t⟩ := by
      cases killedAfter <;> simp [step, SetupKeys.ensure_reuse]
    obtain ⟨hgenerated, hfits⟩ := of_files hfiles (hbelow.mono (Nat.le_add_right n 2))
    refine ⟨hgenerated, iff_of_true (hfits.mpr hrecovers) ?_⟩
    rw [KilledSafely, if_pos (by simp [SetupKeys.files])]
    simp [SetupKeys.files]

/-- What is left of a consistent set has old keys and fits. -/
theorem start_recovers (ca server : ℕ) (kept : ServerFile → Bool) :
    (start ca server kept).Generated ∧ (start ca server kept).Recovers := by
  let keys : SetupKeys :=
    ⟨if kept .caCert then some ca else none, if kept .caKey then some ca else none,
      if kept .serverCert then some (server, ca) else none,
      if kept .serverKey then some server else none⟩
  have hfiles : (start ca server kept).files = keys.files := by
    funext f
    cases f <;> simp only [start, keys, SetupKeys.files] <;> split <;> rfl
  have hca : ca < max ca server + 1 := by omega
  have hserver : server < max ca server + 1 := by omega
  have hbelow : keys.Below (max ca server + 1) := by
    constructor <;>
      simp only [keys, Option.mem_def, Option.ite_none_right_eq_some, Option.some.injEq]
    · rintro k ⟨-, rfl⟩
      exact hca
    · rintro k ⟨-, rfl⟩
      exact hca
    · rintro c ⟨-, rfl⟩
      exact ⟨hserver, hca⟩
    · rintro k ⟨-, rfl⟩
      exact hserver
  obtain ⟨hgenerated, hfits⟩ := of_files hfiles hbelow
  refine ⟨hgenerated, hfits.mpr ?_⟩
  simp [keys, SetupKeys.Fits]

/-- **Recovery of the server's files.** Whichever files are left of a consistent set, and however
often a run of `ensure_server_ca` is killed, every later run that returns `Ok` leaves a consistent
set, exactly if each run was killed safely. -/
theorem recovers_iff_killedSafely (ca server : ℕ) (kept : ServerFile → Bool)
    (runs : List SetupRun) :
    (∀ first, first <+: runs → Recovers (first.foldl step (start ca server kept))) ↔
      Run.Along step KilledSafely (start ca server kept) runs := by
  have hstart := start_recovers ca server kept
  refine Run.forall_reached_iff_along (fun s => s.Generated ∧ s.Recovers) ?_ ?_ hstart hstart.2 runs
  · rintro s run hsafe ⟨hgenerated, hrecovers⟩
    obtain ⟨hnext, hiff⟩ := step_recovers_iff hgenerated hrecovers run
    exact ⟨hnext, hiff.mpr hsafe⟩
  · rintro s run ⟨hgenerated, hrecovers⟩
    exact (step_recovers_iff hgenerated hrecovers run).2

/-- The key of the CA was deleted, and the run that makes a new CA is killed before it has written
the key of the server: the old certificate of the server is reused under the new CA. -/
theorem killed_under_newCa :
    let s := step (start 0 1 fun f => f ≠ .caKey) ⟨[], some 2⟩
    (s.ensure []).2 = .ok () ∧ ¬ Consistent (s.step ⟨[], none⟩).files := by
  intro s
  refine ⟨rfl, ?_⟩
  rintro ⟨ca, server, hca, -, hserver, -⟩
  have hnew : SymbolicPem.cert 2 2 = .cert ca ca := Option.some.inj hca
  have hold : SymbolicPem.cert 1 0 = .cert server ca := Option.some.inj hserver
  cases hnew
  cases hold

end ServerSetup

end SuperShare
