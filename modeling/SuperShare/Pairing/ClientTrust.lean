import SuperShare.Network.MutualTls
import SuperShare.Network.TrustDirectory
import SuperShare.Pairing.TrustLists

/-!
# What a client keeps of its servers

A client that has paired writes its certificate, its key and the CA of the server in files named
after the address, one after the other, and records the server when all are written. Each write may
fail, and a write that fails may have truncated its file. Addresses can have the same files, and
several of them can lead to one server. The abstract model says of each name which servers its files
are of, and the files of the client refine it.
-/

namespace SuperShare

/-- How far the files of a pairing are written. A write that fails may have truncated its file. -/
inductive Persisting where
  | certFails (truncated : Bool)
  | keyFails (truncated : Bool)
  | caFails (truncated : Bool)
  | stored
  deriving DecidableEq, Repr

/-- A write that fails loses the contents of its file, if it has truncated it. -/
def truncate (truncated : Bool) (name : String) (files : String → Option NamedPem) :
    String → Option NamedPem :=
  if truncated then Function.update files name none else files

/-- Persist the material of a server in the trust directory. -/
def persistClientTrust (serverAddress : String) (material : ClientMaterial)
    (files : String → Option NamedPem) : Persisting → String → Option NamedPem :=
  let (certPath, keyPath, caPath) := trustPaths serverAddress
  fun
  | .certFails truncated => truncate truncated certPath files
  | .keyFails truncated =>
      truncate truncated keyPath (Directory.writeAll files [(certPath, material.certPem)])
  | .caFails truncated =>
      truncate truncated caPath
        (Directory.writeAll files [(certPath, material.certPem), (keyPath, material.keyPem)])
  | .stored =>
      Directory.writeAll files
        [(certPath, material.certPem), (keyPath, material.keyPem), (caPath, material.caPem)]

/-- A client with its trust directory and its known servers, and the CA that each server has. -/
structure ClientTrust where
  cas : ℕ → Option ℕ
  /-- A number that no key has had. -/
  nextKey : ℕ
  files : String → Option NamedPem
  config : AppConfig

/-- What happens to the servers and the client. -/
inductive ClientTrustEvent where
  /-- A server generates a CA. -/
  | newCa (server : ℕ)
  /-- The client pairs with the server at an address, with a request for some names. -/
  | pair (serverAddress : String) (names : List (SanType String)) (outcome : Persisting)

variable (serverOf : String → ℕ) (certFingerprint : NamedPem → String)

namespace ClientTrust

/-- Nothing has been generated. -/
def start : ClientTrust := ⟨fun _ => none, 1, fun _ => none, ⟨[], []⟩⟩

/-- The client pairs with a server of a CA. -/
def pair (s : ClientTrust) (serverAddress : String) (names : List (SanType String)) (ca : ℕ)
    (outcome : Persisting) : ClientTrust :=
  let material : ClientMaterial :=
    ⟨.cert s.nextKey ca names, .key s.nextKey, .cert ca ca caNames⟩
  let (certPath, keyPath, caPath) := trustPaths serverAddress
  { s with
    nextKey := s.nextKey + 1
    files := persistClientTrust serverAddress material s.files outcome
    config :=
      if outcome = .stored then
        s.config.upsertKnownServer
          ⟨serverAddress, certPath, keyPath, caPath, certFingerprint material.caPem⟩
      else s.config }

/-- One step. There is no pairing with a server that has no CA. -/
def step (s : ClientTrust) : ClientTrustEvent → ClientTrust
  | .newCa server =>
      { s with cas := Function.update s.cas server (some s.nextKey), nextKey := s.nextKey + 1 }
  | .pair serverAddress names outcome =>
      match s.cas (serverOf serverAddress) with
      | some ca => s.pair certFingerprint serverAddress names ca outcome
      | none => s

/-- With the certificates that are found for an address, the client and the server at the address
trust each other. -/
def connects (s : ClientTrust) (serverAddress : String) : Bool :=
  (resolveClientCerts s.config serverAddress none none none).any fun (certPath, keyPath, caPath) =>
    (TlsConfig.build (s.files certPath) (s.files keyPath) (s.files caPath)).any fun client =>
      s.cas (serverOf serverAddress) = some client.issuer &&
        s.cas (serverOf serverAddress) = some client.root

end ClientTrust

/-- The abstract client: for each name, of which server the certificate with its key is, and the
CA, as far as the server still has this CA. -/
structure TrustRecords where
  /-- The servers that have a CA. -/
  hasCa : ℕ → Bool
  certOf : String → Option ℕ
  caOf : String → Option ℕ
  /-- The addresses of the known servers. -/
  known : String → Bool

namespace TrustRecords

/-- Nothing has been generated. -/
def start : TrustRecords := ⟨fun _ => false, fun _ => none, fun _ => none, fun _ => false⟩

/-- What is left of a server that has a new CA. -/
def outdate (server : ℕ) (held : String → Option ℕ) (name : String) : Option ℕ :=
  if held name = some server then none else held name

/-- The certificate and the CA under a name after a pairing. A new certificate without its key is
useless, and together with its key it needs a CA of the server that is there already. -/
def pair (server : ℕ) (cert ca : Option ℕ) : Persisting → Option ℕ × Option ℕ
  | .certFails truncated => (if truncated then none else cert, ca)
  | .keyFails _ => (none, ca)
  | .caFails truncated => (some server, if truncated then none else ca)
  | .stored => (some server, some server)

/-- One step. -/
def step (r : TrustRecords) : ClientTrustEvent → TrustRecords
  | .newCa server =>
      { r with
        hasCa := Function.update r.hasCa server true
        certOf := outdate server r.certOf
        caOf := outdate server r.caOf }
  | .pair serverAddress _ outcome =>
      if r.hasCa (serverOf serverAddress) then
        let name := safeName serverAddress
        let held := pair (serverOf serverAddress) (r.certOf name) (r.caOf name) outcome
        { r with
          certOf := Function.update r.certOf name held.1
          caOf := Function.update r.caOf name held.2
          known :=
            if outcome = .stored then Function.update r.known serverAddress true else r.known }
      else r

/-- The server at an address is known, and the files of the address are its own. -/
def Trusts (r : TrustRecords) (serverAddress : String) : Prop :=
  r.known serverAddress = true ∧ r.certOf (safeName serverAddress) = some (serverOf serverAddress) ∧
    r.caOf (safeName serverAddress) = some (serverOf serverAddress)

end TrustRecords

namespace ClientTrust

/-- The certificate and the key are a pair, and signed by the CA of a server. -/
def CertOf (cas : ℕ → Option ℕ) (certPem keyPem : Option NamedPem) (server : ℕ) : Prop :=
  ∃ key ca names, certPem = some (.cert key ca names) ∧ keyPem = some (.key key) ∧
    cas server = some ca

/-- The certificate is that of the CA of a server. -/
def CaOf (cas : ℕ → Option ℕ) (caPem : Option NamedPem) (server : ℕ) : Prop :=
  ∃ ca, caPem = some (.cert ca ca caNames) ∧ cas server = some ca

/-- The files under the name of an address are of the servers that the abstract client has. -/
structure Refines (s : ClientTrust) (r : TrustRecords) : Prop where
  hasCa : ∀ server, r.hasCa server = (s.cas server).isSome
  cas : ∀ server, ∀ ca ∈ s.cas server, ca < s.nextKey
  distinct : ∀ server server' ca, s.cas server = some ca → s.cas server' = some ca →
    server = server'
  generated : ∀ name, ∀ pem ∈ s.files name, pem.Generated s.nextKey
  certOf : ∀ address server, r.certOf (safeName address) = some server ↔
    CertOf s.cas (s.files (trustPaths address).1) (s.files (trustPaths address).2.1) server
  caOf : ∀ address server, r.caOf (safeName address) = some server ↔
    CaOf s.cas (s.files (trustPaths address).2.2) server
  caFile : ∀ address, ∀ pem ∈ s.files (trustPaths address).2.2, ∃ ca, pem = .cert ca ca caNames
  known : ∀ address, resolveClientCerts s.config address none none none =
    if r.known address then some (trustPaths address) else none

/-! ## The files of a pairing -/

/-- The path of the key is not that of the CA. -/
theorem trustPaths_key_ne_ca (address : String) :
    (trustPaths address).2.1 ≠ (trustPaths address).2.2 := by
  simp [trustPaths, String.ext_iff]

variable {address : String} {material : ClientMaterial} {files : String → Option NamedPem}
  {outcome : Persisting}

/-- The certificate after a pairing. -/
theorem persist_cert : persistClientTrust address material files outcome (trustPaths address).1 =
    match outcome with
    | .certFails true => none
    | .certFails false => files (trustPaths address).1
    | _ => some material.certPem := by
  obtain ⟨hkey, hca⟩ := TrustDir.trustPaths_ne address
  rcases outcome with (_ | _) | (_ | _) | (_ | _) | _ <;>
    simp [persistClientTrust, truncate, Function.update_of_ne hkey, Function.update_of_ne hca]

/-- The key after a pairing. -/
theorem persist_key : persistClientTrust address material files outcome (trustPaths address).2.1 =
    match outcome with
    | .certFails _ | .keyFails false => files (trustPaths address).2.1
    | .keyFails true => none
    | _ => some material.keyPem := by
  have hcert := (TrustDir.trustPaths_ne address).1.symm
  have hca := trustPaths_key_ne_ca address
  rcases outcome with (_ | _) | (_ | _) | (_ | _) | _ <;>
    simp [persistClientTrust, truncate, Function.update_of_ne hcert, Function.update_of_ne hca]

/-- The CA after a pairing. -/
theorem persist_ca : persistClientTrust address material files outcome (trustPaths address).2.2 =
    match outcome with
    | .certFails _ | .keyFails _ | .caFails false => files (trustPaths address).2.2
    | .caFails true => none
    | .stored => some material.caPem := by
  have hcert := (TrustDir.trustPaths_ne address).2.symm
  have hkey := (trustPaths_key_ne_ca address).symm
  rcases outcome with (_ | _) | (_ | _) | (_ | _) | _ <;>
    simp [persistClientTrust, truncate, Function.update_of_ne hcert, Function.update_of_ne hkey]

/-- A pairing leaves the other files alone. -/
theorem persist_of_ne {name : String} (hcert : name ≠ (trustPaths address).1)
    (hkey : name ≠ (trustPaths address).2.1) (hca : name ≠ (trustPaths address).2.2) :
    persistClientTrust address material files outcome name = files name := by
  rcases outcome with (_ | _) | (_ | _) | (_ | _) | _ <;>
    simp [persistClientTrust, truncate, Function.update_of_ne hcert, Function.update_of_ne hkey,
      Function.update_of_ne hca]

/-- Addresses with different names have no file in common. -/
theorem persist_other {other : String} (hname : safeName other ≠ safeName address) :
    persistClientTrust address material files outcome (trustPaths other).1 =
        files (trustPaths other).1 ∧
      persistClientTrust address material files outcome (trustPaths other).2.1 =
        files (trustPaths other).2.1 ∧
      persistClientTrust address material files outcome (trustPaths other).2.2 =
        files (trustPaths other).2.2 := by
  have hne : ∀ {name : String}, (name = (trustPaths other).1 ∨ name = (trustPaths other).2.1 ∨
      name = (trustPaths other).2.2) → name ≠ (trustPaths address).1 ∧
        name ≠ (trustPaths address).2.1 ∧ name ≠ (trustPaths address).2.2 := by
    intro name hother
    have hbase : ¬ (name = (trustPaths address).1 ∨ name = (trustPaths address).2.1 ∨
        name = (trustPaths address).2.2) :=
      fun haddress => hname ((hasBase_safeName hother).eq (hasBase_safeName haddress))
    simpa [not_or] using hbase
  obtain ⟨hcert, hcert', hcert''⟩ := hne (.inl rfl)
  obtain ⟨hkey, hkey', hkey''⟩ := hne (.inr (.inl rfl))
  obtain ⟨hca, hca', hca''⟩ := hne (.inr (.inr rfl))
  exact ⟨persist_of_ne hcert hcert' hcert'', persist_of_ne hkey hkey' hkey'',
    persist_of_ne hca hca' hca''⟩

/-- Addresses with one name have the same files. -/
theorem trustPaths_congr {other : String} (hname : safeName other = safeName address) :
    trustPaths other = trustPaths address := by
  rw [trustPaths, trustPaths, hname]

/-! ## The refinement -/

/-- A pair that a CA has issued is of the server with this CA. -/
theorem certOf_issued {cas : ℕ → Option ℕ}
    (hdistinct : ∀ server server' ca, cas server = some ca → cas server' = some ca →
      server = server') {server server' ca key : ℕ} (hca : cas server = some ca)
    (names : List (SanType String)) :
    CertOf cas (some (.cert key ca names)) (some (.key key)) server' ↔ server = server' := by
  constructor
  · rintro ⟨key', ca', names', hcert, -, hca'⟩
    obtain ⟨-, rfl, -⟩ := NamedPem.cert.inj (Option.some.inj hcert)
    exact hdistinct _ _ _ hca hca'
  · rintro rfl
    exact ⟨key, ca, names, rfl, rfl, hca⟩

/-- The certificate of a CA is of the server with this CA. -/
theorem caOf_issued {cas : ℕ → Option ℕ}
    (hdistinct : ∀ server server' ca, cas server = some ca → cas server' = some ca →
      server = server') {server server' ca : ℕ} (hca : cas server = some ca) :
    CaOf cas (some (.cert ca ca caNames)) server' ↔ server = server' := by
  constructor
  · rintro ⟨ca', hcert, hca'⟩
    obtain ⟨rfl, -, -⟩ := NamedPem.cert.inj (Option.some.inj hcert)
    exact hdistinct _ _ _ hca hca'
  · rintro rfl
    exact ⟨ca, rfl, hca⟩

/-- A certificate for a new key does not fit to a key that was there. -/
theorem not_certOf_new {s : ClientTrust} {r : TrustRecords} (h : s.Refines r) {ca server : ℕ}
    {names : List (SanType String)} (name : String) :
    ¬ CertOf s.cas (some (.cert s.nextKey ca names)) (s.files name) server := by
  rintro ⟨key, ca', names', hcert, hkey, -⟩
  obtain ⟨rfl, -, -⟩ := NamedPem.cert.inj (Option.some.inj hcert)
  exact absurd (h.generated name _ hkey) (Nat.lt_irrefl _)

variable {s : ClientTrust} {r : TrustRecords}

/-- Nothing is there at the start. -/
theorem refines_start : start.Refines TrustRecords.start := by
  constructor <;> simp [start, TrustRecords.start, CertOf, CaOf, resolveClientCerts,
    AppConfig.findKnownServer]

/-- What a server has issued before is of no use once it has a new CA. -/
theorem outdate_iff (held : String → Option ℕ) (name : String) {server server' : ℕ} :
    TrustRecords.outdate server held name = some server' ↔
      held name = some server' ∧ server' ≠ server := by
  unfold TrustRecords.outdate
  split
  · rename_i heq
    constructor
    · exact fun hnone => absurd hnone (by simp)
    · rintro ⟨hother, hne⟩
      exact absurd (Option.some.inj (hother.symm.trans heq)) hne
  · rename_i hne
    constructor
    · intro heq
      exact ⟨heq, fun hserver => hne (hserver ▸ heq)⟩
    · exact And.left

/-- A CA that has been there is still one of its server, unless this has the new CA. -/
theorem update_cas {cas : ℕ → Option ℕ} {nextKey ca : ℕ} (hca : ca < nextKey)
    (server server' : ℕ) :
    Function.update cas server (some nextKey) server' = some ca ↔
      cas server' = some ca ∧ server' ≠ server := by
  by_cases hserver : server' = server
  · subst hserver
    simp [(Nat.ne_of_lt hca).symm]
  · simp [hserver]

/-- A server generates a CA. -/
theorem Refines.newCa (h : s.Refines r) (server : ℕ) :
    (s.step serverOf certFingerprint (.newCa server)).Refines
      (r.step serverOf (.newCa server)) := by
  have hnew : ∀ {server' ca}, Function.update s.cas server (some s.nextKey) server' = some ca →
      server' = server ∧ ca = s.nextKey ∨ s.cas server' = some ca ∧ ca < s.nextKey := by
    intro server' ca hca
    by_cases hserver : server' = server
    · exact .inl ⟨hserver, by simpa [hserver, eq_comm] using hca⟩
    · rw [Function.update_of_ne hserver] at hca
      exact .inr ⟨hca, h.cas server' ca hca⟩
  constructor
  · intro server'
    by_cases hserver : server' = server
    · simp [step, TrustRecords.step, hserver]
    · simp [step, TrustRecords.step, hserver, h.hasCa]
  · intro server' ca hca
    show ca < s.nextKey + 1
    rcases hnew hca with ⟨-, rfl⟩ | ⟨-, hlt⟩ <;> omega
  · intro server₁ server₂ ca hca₁ hca₂
    rcases hnew hca₁ with ⟨rfl, rfl⟩ | ⟨hca₁, hlt⟩ <;>
      rcases hnew hca₂ with ⟨rfl, hca⟩ | ⟨hca₂, hlt'⟩
    · rfl
    · exact absurd hlt' (Nat.lt_irrefl _)
    · exact absurd hlt (by omega)
    · exact h.distinct _ _ _ hca₁ hca₂
  · exact fun name pem hpem => (h.generated name pem hpem).mono (Nat.le_succ _)
  · intro address server'
    refine (outdate_iff _ _).trans ?_
    rw [h.certOf]
    constructor
    · rintro ⟨⟨key, ca, names, hcert, hkey, hca⟩, hne⟩
      exact ⟨key, ca, names, hcert, hkey, (update_cas (h.cas _ _ hca) _ _).mpr ⟨hca, hne⟩⟩
    · rintro ⟨key, ca, names, hcert, hkey, hca⟩
      obtain ⟨hca, hne⟩ := (update_cas (h.generated _ _ hcert).2 _ _).mp hca
      exact ⟨⟨key, ca, names, hcert, hkey, hca⟩, hne⟩
  · intro address server'
    refine (outdate_iff _ _).trans ?_
    rw [h.caOf]
    constructor
    · rintro ⟨⟨ca, hcert, hca⟩, hne⟩
      exact ⟨ca, hcert, (update_cas (h.cas _ _ hca) _ _).mpr ⟨hca, hne⟩⟩
    · rintro ⟨ca, hcert, hca⟩
      obtain ⟨hca, hne⟩ := (update_cas (h.generated _ _ hcert).2 _ _).mp hca
      exact ⟨⟨ca, hcert, hca⟩, hne⟩
  · exact h.caFile
  · exact h.known

/-- What a pairing leaves in a file is what was there, or what it writes. -/
theorem persist_cases {name : String} {pem : NamedPem}
    (hpem : persistClientTrust address material files outcome name = some pem) :
    files name = some pem ∨ pem = material.certPem ∨ pem = material.keyPem ∨
      pem = material.caPem := by
  by_cases hcert : name = (trustPaths address).1
  · rw [hcert, persist_cert] at hpem
    rw [hcert]
    split at hpem <;> simp_all
  by_cases hkey : name = (trustPaths address).2.1
  · rw [hkey, persist_key] at hpem
    rw [hkey]
    split at hpem <;> simp_all
  by_cases hca : name = (trustPaths address).2.2
  · rw [hca, persist_ca] at hpem
    rw [hca]
    split at hpem <;> simp_all
  rw [persist_of_ne hcert hkey hca] at hpem
  exact .inl hpem

/-- Only a whole pairing records the server. -/
theorem resolve_pair {ca : ℕ} {names : List (SanType String)} (other : String) :
    resolveClientCerts (s.pair certFingerprint address names ca outcome).config other none none
        none =
      if outcome = .stored ∧ address = other then some (trustPaths address)
      else resolveClientCerts s.config other none none none := by
  by_cases hstored : outcome = .stored
  · have hfind := s.config.findKnownServer_apply (.upsertKnownServer
      ⟨address, (trustPaths address).1, (trustPaths address).2.1, (trustPaths address).2.2,
        certFingerprint (.cert ca ca caNames)⟩) other
    simp only [AppConfig.apply, TrustOp.serverAt] at hfind
    simp only [resolveClientCerts, pair, hstored, if_true, hfind, true_and]
    split <;> simp
  · simp [resolveClientCerts, pair, hstored]

/-- The certificate under the name of the address after a pairing. -/
theorem Refines.pair_certOf (h : s.Refines r) {server ca : ℕ} (hca : s.cas server = some ca)
    (names : List (SanType String)) (server' : ℕ) :
    (TrustRecords.pair server (r.certOf (safeName address)) (r.caOf (safeName address)) outcome).1 =
        some server' ↔
      CertOf s.cas ((s.pair certFingerprint address names ca outcome).files (trustPaths address).1)
        ((s.pair certFingerprint address names ca outcome).files (trustPaths address).2.1)
        server' := by
  simp only [pair, persist_cert, persist_key]
  have hnone : ∀ certPem, ¬ CertOf s.cas certPem none server' :=
    fun certPem ⟨_, _, _, _, hkey, _⟩ => absurd hkey (by simp)
  cases outcome with
  | certFails truncated =>
    cases truncated with
    | false => exact h.certOf address server'
    | true =>
      refine iff_of_false (by simp [TrustRecords.pair]) ?_
      rintro ⟨_, _, _, hcert, _, _⟩
      exact absurd hcert (by simp)
  | keyFails truncated =>
    refine iff_of_false (by simp [TrustRecords.pair]) ?_
    cases truncated with
    | false => exact not_certOf_new h _
    | true => exact hnone _
  | caFails truncated | stored =>
    rw [certOf_issued h.distinct hca]
    simp [TrustRecords.pair]

/-- The CA under the name of the address after a pairing. -/
theorem Refines.pair_caOf (h : s.Refines r) {server ca : ℕ} (hca : s.cas server = some ca)
    (names : List (SanType String)) (server' : ℕ) :
    (TrustRecords.pair server (r.certOf (safeName address)) (r.caOf (safeName address)) outcome).2 =
        some server' ↔
      CaOf s.cas ((s.pair certFingerprint address names ca outcome).files (trustPaths address).2.2)
        server' := by
  simp only [pair, persist_ca]
  cases outcome with
  | certFails truncated | keyFails truncated => exact h.caOf address server'
  | caFails truncated =>
    cases truncated with
    | false => exact h.caOf address server'
    | true =>
      refine iff_of_false (by simp [TrustRecords.pair]) ?_
      rintro ⟨_, hcert, _⟩
      exact absurd hcert (by simp)
  | stored =>
    rw [caOf_issued h.distinct hca]
    simp [TrustRecords.pair]

/-- The client pairs with a server. -/
theorem Refines.pair (h : s.Refines r) {ca : ℕ} (hca : s.cas (serverOf address) = some ca)
    (names : List (SanType String)) :
    (s.pair certFingerprint address names ca outcome).Refines
      (r.step serverOf (.pair address names outcome)) := by
  have hhas : r.hasCa (serverOf address) = true := by rw [h.hasCa, hca]; rfl
  have hother : ∀ {other}, safeName other ≠ safeName address →
      (s.pair certFingerprint address names ca outcome).files (trustPaths other).1 =
          s.files (trustPaths other).1 ∧
        (s.pair certFingerprint address names ca outcome).files (trustPaths other).2.1 =
          s.files (trustPaths other).2.1 ∧
        (s.pair certFingerprint address names ca outcome).files (trustPaths other).2.2 =
          s.files (trustPaths other).2.2 := persist_other
  rw [TrustRecords.step, if_pos hhas]
  constructor
  · exact h.hasCa
  · exact fun server ca hca => Nat.lt_succ_of_lt (h.cas server ca hca)
  · exact h.distinct
  · intro name pem hpem
    have hissuer := h.cas _ _ hca
    show pem.Generated (s.nextKey + 1)
    rcases persist_cases hpem with hold | rfl | rfl | rfl
    · exact (h.generated name pem hold).mono (Nat.le_succ _)
    · exact ⟨Nat.lt_succ_self _, Nat.lt_succ_of_lt hissuer⟩
    · exact Nat.lt_succ_self _
    · exact ⟨Nat.lt_succ_of_lt hissuer, Nat.lt_succ_of_lt hissuer⟩
  · intro other server'
    by_cases hname : safeName other = safeName address
    · rw [trustPaths_congr hname, hname]
      simp only [Function.update_self]
      exact h.pair_certOf certFingerprint hca names server'
    · obtain ⟨hcert, hkey, -⟩ := hother hname
      rw [hcert, hkey]
      simp only [Function.update_of_ne hname]
      exact h.certOf other server'
  · intro other server'
    by_cases hname : safeName other = safeName address
    · rw [trustPaths_congr hname, hname]
      simp only [Function.update_self]
      exact h.pair_caOf certFingerprint hca names server'
    · obtain ⟨-, -, hcaPath⟩ := hother hname
      rw [hcaPath]
      simp only [Function.update_of_ne hname]
      exact h.caOf other server'
  · intro other pem hpem
    by_cases hname : safeName other = safeName address
    · rw [trustPaths_congr hname] at hpem
      simp only [ClientTrust.pair, persist_ca] at hpem
      cases outcome with
      | certFails truncated | keyFails truncated => exact h.caFile address pem hpem
      | caFails truncated =>
        cases truncated with
        | false => exact h.caFile address pem hpem
        | true => exact absurd hpem (by simp)
      | stored => exact ⟨ca, (Option.some.inj hpem).symm⟩
    · rw [(hother hname).2.2] at hpem
      exact h.caFile other pem hpem
  · intro other
    rw [resolve_pair, h.known]
    by_cases hstored : outcome = .stored
    · by_cases haddress : address = other
      · simp [hstored, haddress]
      · simp [hstored, haddress, Function.update_of_ne (Ne.symm haddress)]
    · simp [hstored]

/-- Every step keeps the files what the abstract client says. -/
theorem Refines.step (h : s.Refines r) (event : ClientTrustEvent) :
    (s.step serverOf certFingerprint event).Refines (r.step serverOf event) := by
  cases event with
  | newCa server => exact h.newCa serverOf certFingerprint server
  | pair address names outcome =>
    simp only [ClientTrust.step]
    split
    · rename_i ca hca
      exact h.pair serverOf certFingerprint hca names
    · rename_i hnone
      have hlacks : r.hasCa (serverOf address) = false := by rw [h.hasCa, hnone]; rfl
      rw [TrustRecords.step, hlacks]
      exact h

/-- Whether the two sides trust each other, by what the abstract client says. -/
theorem Refines.connects_iff (h : s.Refines r) (address : String) :
    s.connects serverOf address = true ↔ r.Trusts serverOf address := by
  unfold connects TrustRecords.Trusts
  rw [h.known, h.certOf, h.caOf]
  cases r.known address with
  | false => simp
  | true =>
    simp only [if_true, Option.any_some, true_and]
    constructor
    · intro hany
      obtain ⟨client, hbuild, htrust⟩ := (Option.any_eq_true _ _).mp hany
      obtain ⟨hissuer, hroot⟩ : s.cas (serverOf address) = some client.issuer ∧
          s.cas (serverOf address) = some client.root := by simpa using htrust
      obtain ⟨subject, root, issuer, names, hcert, hkey, hca, rfl⟩ :=
        TlsConfig.build_eq_some.mp hbuild
      obtain ⟨ca, hpem⟩ := h.caFile address _ hca
      obtain ⟨rfl, rfl, rfl⟩ := NamedPem.cert.inj hpem
      exact ⟨⟨subject, client.issuer, client.names, hcert, hkey, hissuer⟩, client.root, hca, hroot⟩
    · rintro ⟨⟨key, ca, names, hcert, hkey, hissuer⟩, root, hca, hroot⟩
      refine (Option.any_eq_true _ _).mpr ⟨⟨ca, names, root⟩, ?_, by simp [hissuer, ← hroot]⟩
      exact TlsConfig.build_eq_some.mpr ⟨key, root, root, caNames, hcert, hkey, hca, rfl⟩

/-- **What a client can connect to.** After any generations of CAs and any pairings, each of which
may fail at any file, the client and the server at an address trust each other exactly if the
abstract client says so: the address has been paired with, and the certificate with its key and the
CA that the files under its name were last given are of this server and of its present CA. -/
theorem connects_iff_trusts (events : List ClientTrustEvent) (address : String) :
    (events.foldl (step serverOf certFingerprint) start).connects serverOf address = true ↔
      (events.foldl (TrustRecords.step serverOf) TrustRecords.start).Trusts serverOf address := by
  have hrefines : ∀ {s : ClientTrust} {r : TrustRecords}, s.Refines r →
      (events.foldl (step serverOf certFingerprint) s).Refines
        (events.foldl (TrustRecords.step serverOf) r) := by
    intro s r h
    induction events generalizing s r with
    | nil => exact h
    | cons event events ih => exact ih (h.step serverOf certFingerprint event)
  exact (hrefines refines_start).connects_iff serverOf address

/-- Two servers whose addresses have one name: the second pairing takes the files of the first. -/
example :
    let serverOf := fun address => if address = "10.0.0.1" then 0 else 1
    let events := [.newCa 0, .newCa 1, .pair "10.0.0.1" [] .stored, .pair "10-0-0-1" [] .stored]
    let s := events.foldl (step serverOf fun _ => "") start
    s.connects serverOf "10.0.0.1" = false ∧ s.connects serverOf "10-0-0-1" = true := by
  decide +kernel

end ClientTrust

end SuperShare
