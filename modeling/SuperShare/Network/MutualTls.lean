import Mathlib.Data.List.Induction
import SuperShare.Network.Addresses
import SuperShare.Network.ClientCsr
import SuperShare.Network.ServerCa
import SuperShare.Network.TrustDirectory

/-!
# Who may connect

A client that pairs gets a certificate signed by the CA of the server, and the certificate of this
CA. When it connects, it verifies that the certificate of the server is signed by the CA and valid
for the host of the address, and the server verifies that of the client. The server's certificate
is issued for the addresses that its machine has then, and is reused as long as its files exist.
The client keeps what it got in files named after the address, so addresses with the same names
share them.
Keys are symbolic, and the names that a certificate is valid for are a parameter.
-/

namespace SuperShare

open HostPort

deriving instance DecidableEq, Repr for SanType

/-- PEM texts with symbolic keys. A certificate says whose key it is, by which key it is signed, and
for which names it is valid. -/
inductive NamedPem where
  | key (k : ℕ)
  | cert (subject issuer : ℕ) (names : List (SanType String))
  deriving DecidableEq, Repr

/-- The names of the certificate of a server with some addresses. -/
def serverNames (serverIps : List String) : List (SanType String) :=
  [.dnsName "SuperShare Server", .dnsName "localhost", .ipAddress "127.0.0.1"] ++
    serverIps.map .ipAddress

/-- The name of the CA's certificate. -/
def caNames : List (SanType String) := [.dnsName "SuperShare CA"]

/-- The functions on symbolic keys, with names. -/
def CertLib.named : CertLib ℕ Unit NamedPem where
  serializePem := .key
  keyFromPem
    | .key k => .ok k
    | .cert .. => .error "no private key"
  caCertPem k := .cert k k caNames
  fromCaCertPem
    | .cert .. => .ok ()
    | .key _ => .error "no certificate"
  serverSignedBy serverIps key _ issuer := .ok (.cert key issuer (serverNames serverIps))

/-- Sign a client's request for a key and some names with the CA. -/
def signClientCert (caCertPem caKeyPem : NamedPem) (key : ℕ) (names : List (SanType String)) :
    Except String NamedPem := do
  let caKey ← CertLib.named.keyFromPem caKeyPem
  let _ ← CertLib.named.fromCaCertPem caCertPem
  return .cert key caKey names

/-- What rustls makes of names. -/
structure TlsLib where
  ServerName : Type
  /-- `ServerName::try_from`. -/
  tryFrom : String → Option ServerName
  /-- A certificate with some names is valid for a server name. -/
  validFor : ServerName → List (SanType String) → Bool

/-- Parse a server address into a server name, without its port. -/
def parseServerName (lib : TlsLib) (host : String) : Option lib.ServerName :=
  lib.tryFrom ((splitColon host).headD host)

/-- Both channels of a client verify the server for the same name. -/
theorem parseServerName_dataAddress (lib : TlsLib) {serverAddress data : String}
    (hdata : dataAddress serverAddress = some data) :
    parseServerName lib data = parseServerName lib (controlAddress serverAddress) := by
  have hdefault : ∀ port fallback, (splitColon (serverAddress ++ (":" ++ port))).headD fallback =
      (splitColon serverAddress).headD serverAddress := by
    intro port fallback
    rw [← String.append_assoc]
    exact headD_splitColon_append serverAddress port _ _
  have hcontrol : (splitColon (controlAddress serverAddress)).headD (controlAddress serverAddress) =
      (splitColon serverAddress).headD serverAddress := by
    unfold controlAddress
    split
    · rfl
    · exact hdefault "9876" _
  rw [parseServerName, parseServerName]
  congr 1
  unfold dataAddress at hdata
  split at hdata
  · rename_i host port hparts
    obtain ⟨dataPort, -, hformat⟩ := Option.bind_eq_some_iff.mp hdata
    obtain rfl := Option.some.inj hformat
    rw [hparts, format, headD_splitColon_append host _ _ host, splitColon_of_pair hparts]
    rfl
  · obtain rfl := Option.some.inj hdata
    rw [hcontrol]
    exact hdefault "9877" _

/-- A configuration for mutual TLS: the issuer and the names of the own certificate, and the root
that the other side is verified against. -/
structure TlsConfig where
  issuer : ℕ
  names : List (SanType String)
  root : ℕ
  deriving DecidableEq, Repr

/-- Build a configuration from the PEM texts of a certificate, its key and a CA, unless one is
missing, is of another kind, or does not fit. -/
def TlsConfig.build (certPem keyPem caPem : Option NamedPem) : Option TlsConfig :=
  match certPem, keyPem, caPem with
  | some (.cert subject issuer names), some (.key k), some (.cert root _ _) =>
      if subject = k then some ⟨issuer, names, root⟩ else none
  | _, _, _ => none

/-- The texts that make a configuration. -/
theorem TlsConfig.build_eq_some {certPem keyPem caPem : Option NamedPem} {client : TlsConfig} :
    TlsConfig.build certPem keyPem caPem = some client ↔
      ∃ subject root issuer names, certPem = some (.cert subject client.issuer client.names) ∧
        keyPem = some (.key subject) ∧ caPem = some (.cert root issuer names) ∧
          client.root = root := by
  constructor
  · intro h
    unfold TlsConfig.build at h
    split at h
    · rename_i subject issuer names k root issuer' names'
      split at h
      · rename_i hsubject
        obtain rfl := Option.some.inj h
        exact ⟨subject, root, issuer', names', rfl, by rw [hsubject], rfl, rfl⟩
      · exact absurd h (by simp)
    · exact absurd h (by simp)
  · rintro ⟨subject, root, issuer, names, rfl, rfl, rfl, rfl⟩
    simp [TlsConfig.build]

/-- The keys of a text have numbers below the next one. -/
def NamedPem.Generated (nextKey : ℕ) : NamedPem → Prop
  | .key k => k < nextKey
  | .cert subject issuer _ => subject < nextKey ∧ issuer < nextKey

/-- Keys that have been generated stay so. -/
theorem NamedPem.Generated.mono {n n' : ℕ} (hle : n ≤ n') {pem : NamedPem}
    (h : pem.Generated n) : pem.Generated n' := by
  cases pem with
  | key k => exact Nat.lt_of_lt_of_le h hle
  | cert subject issuer names =>
    exact ⟨Nat.lt_of_lt_of_le h.1 hle, Nat.lt_of_lt_of_le h.2 hle⟩

/-- A handshake: the client verifies the server for a name, and the server verifies the client. -/
def handshake (lib : TlsLib) (name : lib.ServerName) (client server : TlsConfig) : Bool :=
  server.issuer = client.root && lib.validFor name server.names && client.issuer = server.root

/-- What a running server has read from its files. -/
structure ServerMaterial where
  tls : TlsConfig
  /-- For the pairing listener. -/
  caCertPem : NamedPem
  caKeyPem : NamedPem
  deriving DecidableEq, Repr

/-- What a client keeps for a server that it is paired with. -/
structure ClientMaterial where
  certPem : NamedPem
  keyPem : NamedPem
  caPem : NamedPem
  deriving DecidableEq, Repr

/-- A server machine with its trust directory, and a client that reaches it under several
addresses. The last two fields record what happened. -/
structure TrustChain where
  files : ServerFile → Option NamedPem
  /-- A number that no key has had. -/
  nextKey : ℕ
  running : Option ServerMaterial
  /-- The addresses that the client has paired with. -/
  knownServers : List String
  /-- What the client keeps in the files of a name. -/
  material : String → Option ClientMaterial
  /-- The addresses of the server when its certificate was issued. -/
  issuedFor : List String
  /-- The names under which the client has paired since the CA was generated. -/
  pairedSince : List String

/-- What happens on the two machines. -/
inductive TrustEvent where
  /-- The server is started while its machine has some addresses. -/
  | startServer (serverIps : List String)
  | stopServer
  /-- Somebody deletes a file of the server. -/
  | deleteFile (file : ServerFile)
  /-- The client pairs with the server, with a request for some names. -/
  | pair (serverAddress : String) (names : List (SanType String))

/-- A file is deleted. -/
def TrustEvent.deletes : TrustEvent → Bool
  | deleteFile _ => true
  | _ => false

/-- The addresses that the server's machine has at a start. -/
def TrustEvent.startIps : TrustEvent → Option (List String)
  | startServer serverIps => some serverIps
  | _ => none

/-- The addresses that the server's machine has at the first start of a run. -/
def firstStartIps (events : List TrustEvent) : Option (List String) :=
  events.findSome? TrustEvent.startIps

namespace TrustChain

/-- Nothing has been generated. -/
def start : TrustChain where
  files _ := none
  nextKey := 1
  running := none
  knownServers := []
  material _ := none
  issuedFor := []
  pairedSince := []

/-- The CA has to be generated. -/
def lacksCa (s : TrustChain) : Bool := (s.files .caCert).isNone || (s.files .caKey).isNone

/-- The certificate of the server has to be issued. -/
def lacksCert (s : TrustChain) : Bool :=
  s.lacksCa || (s.files .serverCert).isNone || (s.files .serverKey).isNone

/-- The server reads its files. -/
def load (files : ServerFile → Option NamedPem) : Option ServerMaterial := do
  let caCertPem ← files .caCert
  let caKeyPem ← files .caKey
  let tls ← TlsConfig.build (files .serverCert) (files .serverKey) (files .caCert)
  return ⟨tls, caCertPem, caKeyPem⟩

/-- The server is started, unless it runs. -/
def startServer (s : TrustChain) (serverIps : List String) : TrustChain :=
  if s.running.isSome then s
  else
    let (writes, result) := ensureServerCa .named s.files serverIps s.nextKey (s.nextKey + 1)
    let files := Directory.writeAll s.files writes
    { s with
      files := files
      nextKey := s.nextKey + 2
      running := if result = .ok () then load files else none
      issuedFor := if s.lacksCert then serverIps else s.issuedFor
      pairedSince := if s.lacksCa then [] else s.pairedSince }

/-- The client generates a key and has it signed, if the server runs. -/
def pair (s : TrustChain) (serverAddress : String) (names : List (SanType String)) : TrustChain :=
  match s.running with
  | none => s
  | some server =>
      match signClientCert server.caCertPem server.caKeyPem s.nextKey names with
      | .error _ => s
      | .ok certPem =>
          { s with
            nextKey := s.nextKey + 1
            knownServers := serverAddress :: s.knownServers
            material := Function.update s.material (safeName serverAddress)
              (some ⟨certPem, .key s.nextKey, server.caCertPem⟩)
            pairedSince := safeName serverAddress :: s.pairedSince }

/-- What the client finds for an address: the files of its name, if it has paired with it. -/
def known (s : TrustChain) (serverAddress : String) : Option ClientMaterial :=
  if serverAddress ∈ s.knownServers then s.material (safeName serverAddress) else none

/-- One step. -/
def step (s : TrustChain) : TrustEvent → TrustChain
  | .startServer serverIps => s.startServer serverIps
  | .stopServer => { s with running := none }
  | .deleteFile file => { s with files := Function.update s.files file none }
  | .pair serverAddress names => s.pair serverAddress names

/-- The handshake of a connection to an address succeeds. -/
def connects (lib : TlsLib) (s : TrustChain) (serverAddress : String) : Bool :=
  match s.running, s.known serverAddress, parseServerName lib (controlAddress serverAddress) with
  | some server, some material, some name =>
      (TlsConfig.build (some material.certPem) (some material.keyPem) (some material.caPem)).any
        fun client => handshake lib name client server.tls
  | _, _, _ => false

/-- The files, the running server and the client's material come from one CA and one certificate of
the server, but for the material of a CA before. -/
structure Issued (s : TrustChain) (ca server : ℕ) : Prop where
  below : ca < s.nextKey
  caCert : ∀ pem ∈ s.files .caCert, pem = .cert ca ca caNames
  caKey : ∀ pem ∈ s.files .caKey, pem = .key ca
  serverCert : ∀ pem ∈ s.files .serverCert, pem = .cert server ca (serverNames s.issuedFor)
  serverKey : ∀ pem ∈ s.files .serverKey, pem = .key server
  running : ∀ material ∈ s.running,
    material = ⟨⟨ca, serverNames s.issuedFor, ca⟩, .cert ca ca caNames, .key ca⟩
  kept : ∀ name, ∀ material ∈ s.material name, ∃ k issuer names,
    material = ⟨.cert k issuer names, .key k, .cert issuer issuer caNames⟩ ∧ issuer < s.nextKey ∧
      (issuer = ca ↔ name ∈ s.pairedSince)
  paired : ∀ name ∈ s.pairedSince, s.material name ≠ none
  files : ∀ address ∈ s.knownServers, s.material (safeName address) ≠ none

variable {s : TrustChain} {ca server : ℕ}

/-- Nothing is there at the start. -/
theorem issued_start : start.Issued 0 0 := by
  constructor <;> simp [start]

/-- Without a whole CA, everything is generated. -/
theorem ensure_of_lacksCa (h : s.lacksCa = true) (serverIps : List String) (caKey serverKey : ℕ) :
    ensureServerCa .named s.files serverIps caKey serverKey =
      ([(.caCert, .cert caKey caKey caNames), (.caKey, .key caKey),
        (.serverCert, .cert serverKey caKey (serverNames serverIps)), (.serverKey, .key serverKey)],
          .ok ()) := by
  simp only [lacksCa, Bool.or_eq_true, Option.isNone_iff_eq_none] at h
  unfold ensureServerCa
  split
  · rename_i hca hcaKey
    rcases h with hnone | hnone <;> simp [hca, hcaKey] at hnone
  · rfl

/-- The files of a whole CA. -/
theorem Issued.files_ca (h : s.Issued ca server) (hca : s.lacksCa = false) :
    s.files .caCert = some (.cert ca ca caNames) ∧ s.files .caKey = some (.key ca) := by
  simp only [lacksCa, Bool.or_eq_false_iff, Option.isNone_eq_false_iff, Option.isSome_iff_exists]
    at hca
  obtain ⟨⟨caCertPem, hcaCert⟩, caKeyPem, hcaKey⟩ := hca
  obtain rfl := h.caCert caCertPem hcaCert
  obtain rfl := h.caKey caKeyPem hcaKey
  exact ⟨hcaCert, hcaKey⟩

/-- The files of a certificate of the server that need not be issued. -/
theorem Issued.files_server (h : s.Issued ca server) (hcert : s.lacksCert = false) :
    s.files .serverCert = some (.cert server ca (serverNames s.issuedFor)) ∧
      s.files .serverKey = some (.key server) := by
  simp only [lacksCert, Bool.or_eq_false_iff, Option.isNone_eq_false_iff, Option.isSome_iff_exists]
    at hcert
  obtain ⟨⟨-, serverCertPem, hserverCert⟩, serverKeyPem, hserverKey⟩ := hcert
  obtain rfl := h.serverCert serverCertPem hserverCert
  obtain rfl := h.serverKey serverKeyPem hserverKey
  exact ⟨hserverCert, hserverKey⟩

/-- A whole CA signs a new certificate if one is needed. -/
theorem Issued.ensure (h : s.Issued ca server) (hca : s.lacksCa = false) (serverIps : List String)
    (caKey serverKey : ℕ) : ensureServerCa .named s.files serverIps caKey serverKey =
      (if s.lacksCert then [(.serverCert, .cert serverKey ca (serverNames serverIps)),
        (.serverKey, .key serverKey)] else [], .ok ()) := by
  obtain ⟨hcaCert, hcaKey⟩ := h.files_ca hca
  rw [lacksCert, hca, Bool.false_or]
  simp only [ensureServerCa, hcaCert, hcaKey]
  split <;> rfl

/-- What a start generates or reuses is of one CA, which is the one before unless it was lacking. -/
theorem Issued.startServer (h : s.Issued ca server) (serverIps : List String) :
    ∃ ca' server', (s.startServer serverIps).Issued ca' server' := by
  unfold TrustChain.startServer
  split
  · exact ⟨ca, server, h⟩
  cases hca : s.lacksCa with
  | true =>
    have hcert : s.lacksCert = true := by rw [lacksCert, hca, Bool.true_or, Bool.true_or]
    rw [ensure_of_lacksCa hca, hcert]
    refine ⟨s.nextKey, s.nextKey + 1, ?_⟩
    constructor
    · exact Nat.lt_add_of_pos_right (by decide)
    · simp
    · simp
    · simp
    · simp
    · simp [load, TlsConfig.build]
    · intro name material hmaterial
      obtain ⟨k, issuer, names, hmaterial, hissuer, -⟩ := h.kept name material hmaterial
      refine ⟨k, issuer, names, hmaterial, by simp only; omega, ?_⟩
      simpa using Nat.ne_of_lt hissuer
    · simp
    · exact h.files
  | false =>
    obtain ⟨hcaCert, hcaKey⟩ := h.files_ca hca
    rw [h.ensure hca]
    have hkept : ∀ name, ∀ material ∈ s.material name, ∃ k issuer names,
        material = ⟨.cert k issuer names, .key k, .cert issuer issuer caNames⟩ ∧
          issuer < s.nextKey + 2 ∧ (issuer = ca ↔ name ∈ s.pairedSince) := by
      intro name material hmaterial
      obtain ⟨k, issuer, names, hmaterial, hissuer, hsince⟩ := h.kept name material hmaterial
      exact ⟨k, issuer, names, hmaterial, by omega, hsince⟩
    have hbelow : ca < s.nextKey + 2 := Nat.lt_add_right 2 h.below
    cases hcert : s.lacksCert with
    | true =>
      refine ⟨ca, s.nextKey + 1, hbelow, ?_, ?_, ?_, ?_, ?_, hkept, h.paired, h.files⟩
      · simpa using h.caCert
      · simpa using h.caKey
      · simp
      · simp
      · simp [load, TlsConfig.build, hcaCert, hcaKey]
    | false =>
      obtain ⟨hserverCert, hserverKey⟩ := h.files_server hcert
      refine ⟨ca, server, hbelow, h.caCert, h.caKey, h.serverCert, h.serverKey, ?_, hkept,
        h.paired, h.files⟩
      simp [load, TlsConfig.build, hcaCert, hcaKey, hserverCert, hserverKey]

/-- A client that pairs gets a certificate of the CA in use. -/
theorem Issued.pair (h : s.Issued ca server) (serverAddress : String)
    (names : List (SanType String)) : (s.pair serverAddress names).Issued ca server := by
  unfold TrustChain.pair
  split
  · exact h
  · rename_i material hrunning
    obtain rfl := h.running material hrunning
    have hsigned : signClientCert (.cert ca ca caNames) (.key ca) s.nextKey names =
        .ok (.cert s.nextKey ca names) := rfl
    simp only [hsigned]
    refine ⟨Nat.lt_add_right 1 h.below, h.caCert, h.caKey, h.serverCert, h.serverKey, h.running,
      ?_, ?_, ?_⟩
    · intro name material hmaterial
      by_cases hname : name = safeName serverAddress
      · subst hname
        refine ⟨s.nextKey, ca, names, ?_, Nat.lt_add_right 1 h.below, by simp⟩
        simpa using hmaterial.symm
      · simp only [Function.update_of_ne hname] at hmaterial
        obtain ⟨k, issuer, names, hmaterial, hissuer, hsince⟩ := h.kept name material hmaterial
        exact ⟨k, issuer, names, hmaterial, Nat.lt_add_right 1 hissuer, by simp [hname, hsince]⟩
    · intro name hname
      by_cases hsame : name = safeName serverAddress
      · simp [hsame]
      · simp only [Function.update_of_ne hsame]
        exact h.paired name (by simpa [hsame] using hname)
    · intro address haddress
      by_cases hsame : safeName address = safeName serverAddress
      · simp [hsame]
      · simp only [Function.update_of_ne hsame]
        refine h.files address ((List.mem_cons.mp haddress).resolve_left ?_)
        rintro rfl
        exact hsame rfl

/-- Whatever happens, what is there is of one CA and one certificate. -/
theorem Issued.step (h : s.Issued ca server) (event : TrustEvent) :
    ∃ ca' server', (s.step event).Issued ca' server' := by
  cases event with
  | startServer serverIps => exact h.startServer serverIps
  | stopServer =>
    exact ⟨ca, server, h.below, h.caCert, h.caKey, h.serverCert, h.serverKey,
      by simp [TrustChain.step], h.kept, h.paired, h.files⟩
  | deleteFile file =>
    have hkept : ∀ other, ∀ pem ∈ Function.update s.files file none other,
        pem ∈ s.files other := by
      intro other pem hpem
      by_cases hother : other = file
      · simp [hother] at hpem
      · rwa [Function.update_of_ne hother] at hpem
    exact ⟨ca, server, h.below, fun pem hpem => h.caCert pem (hkept .caCert pem hpem),
      fun pem hpem => h.caKey pem (hkept .caKey pem hpem),
      fun pem hpem => h.serverCert pem (hkept .serverCert pem hpem),
      fun pem hpem => h.serverKey pem (hkept .serverKey pem hpem), h.running, h.kept, h.paired,
      h.files⟩
  | pair serverAddress names => exact ⟨ca, server, h.pair serverAddress names⟩

/-- In every state reached, what is there is of one CA and one certificate. -/
theorem issued_run (events : List TrustEvent) :
    ∃ ca server, (events.foldl step start).Issued ca server := by
  induction events using List.reverseRecOn with
  | nil => exact ⟨0, 0, issued_start⟩
  | append_singleton events event ih =>
    obtain ⟨ca, server, h⟩ := ih
    rw [List.foldl_append]
    exact h.step event

/-- What is found for an address that has been paired with. -/
theorem known_of_mem {serverAddress : String} (h : serverAddress ∈ s.knownServers) :
    s.known serverAddress = s.material (safeName serverAddress) := if_pos h

/-- A connection succeeds exactly if the server runs, the client has paired with the address, and
under its name since the CA was generated, and the server's certificate was issued for the host of
the address. -/
theorem Issued.connects_iff (h : s.Issued ca server) (lib : TlsLib) (serverAddress : String) :
    s.connects lib serverAddress = true ↔ s.running.isSome = true ∧
      serverAddress ∈ s.knownServers ∧ safeName serverAddress ∈ s.pairedSince ∧ ∃ name,
        parseServerName lib (controlAddress serverAddress) = some name ∧
          lib.validFor name (serverNames s.issuedFor) = true := by
  unfold connects
  cases hrunning : s.running with
  | none => simp
  | some material =>
    obtain rfl := h.running material hrunning
    by_cases hserver : serverAddress ∈ s.knownServers
    swap
    · simp [known, hserver]
    cases hmaterial : s.material (safeName serverAddress) with
    | none => exact absurd hmaterial (h.files _ hserver)
    | some client =>
      obtain ⟨k, issuer, names, rfl, -, hsince⟩ := h.kept _ client hmaterial
      rw [known_of_mem hserver, hmaterial]
      cases hname : parseServerName lib (controlAddress serverAddress) with
      | none => simp
      | some name =>
        rw [← hsince]
        simp only [hserver, TlsConfig.build, if_true, Option.any_some, handshake, Bool.and_eq_true,
          decide_eq_true_eq, Option.isSome_some, Option.some.injEq, exists_eq_left', true_and]
        constructor
        · rintro ⟨⟨-, hvalid⟩, hissuer⟩
          exact ⟨hissuer, hvalid⟩
        · rintro ⟨hissuer, hvalid⟩
          exact ⟨⟨hissuer.symm, hvalid⟩, hissuer⟩

/-- Nothing is there before the first start. After it all files are, the certificate is the one
issued then, and whoever has paired has done so with the CA generated then. -/
def Kept (s : TrustChain) : Option (List String) → Prop
  | none => s = start
  | some serverIps => s.lacksCert = false ∧ s.issuedFor = serverIps ∧
      ∀ name, s.material name ≠ none → name ∈ s.pairedSince

/-- The first start generates all files. -/
theorem kept_firstStart (serverIps : List String) :
    (start.step (.startServer serverIps)).Kept (some serverIps) := by
  refine ⟨?_, rfl, ?_⟩
  · rfl
  · intro name hname
    exact absurd rfl hname

/-- While no file is deleted, nothing is issued again. -/
theorem Kept.step {serverIps : List String} (h : s.Kept (some serverIps))
    (hissued : s.Issued ca server) {event : TrustEvent} (hdeletes : event.deletes = false) :
    (s.step event).Kept (some serverIps) := by
  obtain ⟨hcert, hips, hpaired⟩ := h
  have hca : s.lacksCa = false := by
    simp only [lacksCert, Bool.or_eq_false_iff] at hcert
    exact hcert.1.1
  cases event with
  | startServer serverIps' =>
    rw [TrustChain.step, TrustChain.startServer]
    split
    · exact ⟨hcert, hips, hpaired⟩
    · rw [hissued.ensure hca, hcert, hca]
      exact ⟨hcert, hips, hpaired⟩
  | stopServer => exact ⟨hcert, hips, hpaired⟩
  | deleteFile file => exact absurd hdeletes (by simp [TrustEvent.deletes])
  | pair serverAddress names =>
    rw [TrustChain.step, TrustChain.pair]
    split
    · exact ⟨hcert, hips, hpaired⟩
    · split
      · exact ⟨hcert, hips, hpaired⟩
      · refine ⟨hcert, hips, fun name hname => ?_⟩
        by_cases hsame : name = safeName serverAddress
        · simp [hsame]
        · simp only [Function.update_of_ne hsame] at hname
          exact List.mem_cons_of_mem _ (hpaired name hname)

/-- Before the first start, nothing happens. -/
theorem step_start {event : TrustEvent} (hstart : event.startIps = none) :
    start.step event = start := by
  cases event with
  | startServer => exact absurd hstart (by simp [TrustEvent.startIps])
  | stopServer => rfl
  | deleteFile file => simp [step, start]
  | pair => rfl

/-- In a run without deletions, everything is as the first start has made it. -/
theorem kept_run {events : List TrustEvent} (hkept : ∀ event ∈ events, event.deletes = false) :
    (events.foldl step start).Kept (firstStartIps events) := by
  induction events using List.reverseRecOn with
  | nil => rfl
  | append_singleton events event ih =>
    obtain ⟨hbefore, hevent⟩ := List.forall_mem_append.mp hkept
    have hdeletes : event.deletes = false := hevent event List.mem_cons_self
    have hstate := ih hbefore
    rw [List.foldl_append, List.foldl_cons, List.foldl_nil, firstStartIps, List.findSome?_append]
    rw [firstStartIps] at hstate
    cases hfirst : events.findSome? TrustEvent.startIps with
    | some serverIps =>
      obtain ⟨ca, server, hissued⟩ := issued_run events
      rw [hfirst] at hstate
      exact hstate.step hissued hdeletes
    | none =>
      rw [hfirst] at hstate
      obtain hstate : events.foldl step start = start := hstate
      rw [hstate, Option.none_or]
      cases hstart : event.startIps with
      | none =>
        rw [step_start hstart, List.findSome?_cons, hstart]
        rfl
      | some serverIps =>
        cases event with
        | startServer => exact kept_firstStart _
        | _ => exact absurd hstart (by simp [TrustEvent.startIps])

/-- **The first start decides.** In every run from an empty trust directory in which no file is
deleted, whatever addresses the server has later and however often a client pairs, a connection
succeeds exactly if the server runs, the client has paired with the address, and its host is
covered by the certificate for the addresses that the server had at its first start. -/
theorem connects_iff_firstStart (lib : TlsLib) {events : List TrustEvent}
    (hkept : ∀ event ∈ events, event.deletes = false) (serverAddress : String) :
    (events.foldl step start).connects lib serverAddress = true ↔
      (events.foldl step start).running.isSome = true ∧
        (events.foldl step start).known serverAddress ≠ none ∧
          ∃ serverIps name, firstStartIps events = some serverIps ∧
            parseServerName lib (controlAddress serverAddress) = some name ∧
              lib.validFor name (serverNames serverIps) = true := by
  obtain ⟨ca, server, hissued⟩ := issued_run events
  have hstate := kept_run hkept
  rw [hissued.connects_iff lib serverAddress]
  cases hfirst : firstStartIps events with
  | none =>
    rw [hfirst] at hstate
    obtain hstate : events.foldl step start = start := hstate
    rw [hstate]
    simp [start]
  | some serverIps =>
    rw [hfirst] at hstate
    obtain ⟨-, hips, hpaired⟩ := hstate
    rw [hips]
    constructor
    · rintro ⟨hrunning, hserver, -, name, hname, hvalid⟩
      refine ⟨hrunning, ?_, serverIps, name, rfl, hname, hvalid⟩
      rw [known_of_mem hserver]
      exact hissued.files _ hserver
    · rintro ⟨hrunning, hknown, ips, name, hsome, hname, hvalid⟩
      obtain rfl := Option.some.inj hsome
      by_cases hserver : serverAddress ∈ (events.foldl step start).knownServers
      · rw [known_of_mem hserver] at hknown
        exact ⟨hrunning, hserver, hpaired _ hknown, name, hname, hvalid⟩
      · exact absurd (if_neg hserver) hknown

/-- rustls with names and addresses compared as texts. -/
def textTls : TlsLib where
  ServerName := String
  tryFrom := some
  validFor name names := (SanType.dnsName name) ∈ names || (SanType.ipAddress name) ∈ names

/-- The server gets another address between two starts, and the client pairs anew. -/
def serverMoves : List TrustEvent :=
  [.startServer ["192.168.1.10"], .pair "192.168.1.10" [.dnsName "laptop"], .stopServer,
    .startServer ["192.168.1.20"], .pair "192.168.1.20" [.dnsName "laptop"]]

/-- The new address of the server is judged by the first start. -/
theorem connects_iff_firstStart_serverMoves :
    (serverMoves.foldl step start).connects textTls "192.168.1.20" = true ↔
      (serverMoves.foldl step start).running.isSome = true ∧
        (serverMoves.foldl step start).known "192.168.1.20" ≠ none ∧
          ∃ serverIps name, firstStartIps serverMoves = some serverIps ∧
            parseServerName textTls (controlAddress "192.168.1.20") = some name ∧
              textTls.validFor name (serverNames serverIps) = true :=
  connects_iff_firstStart textTls (by decide) "192.168.1.20"

-- Paired, and refused.
example : (serverMoves.foldl step start).known "192.168.1.20" ≠ none ∧
    (serverMoves.foldl step start).connects textTls "192.168.1.20" = false := by
  decide +kernel

/-- Only a pairing under a name makes it one of those paired under. -/
theorem notMem_pairedSince_step {name : String} (h : name ∉ s.pairedSince) {event : TrustEvent}
    (hevent : ∀ address names, event = .pair address names → safeName address ≠ name) :
    name ∉ (s.step event).pairedSince := by
  cases event with
  | startServer serverIps =>
    rw [step, startServer]
    split
    · exact h
    · simp only
      split
      · exact List.not_mem_nil
      · exact h
  | stopServer | deleteFile => exact h
  | pair address names =>
    rw [step, pair]
    split
    · exact h
    · split
      · exact h
      · exact List.not_mem_cons_of_ne_of_not_mem (hevent address names rfl).symm h

/-- **A lost CA is a lost trust.** When the server starts without its CA's certificate or key, no
address under which the client has paired before connects, whatever follows, until it pairs with
this address again or with one that shares its files. -/
theorem refused_after_newCa (lib : TlsLib) {before : List TrustEvent}
    (hstopped : (before.foldl step start).running = none)
    (hca : (before.foldl step start).lacksCa = true) (serverIps : List String)
    {later : List TrustEvent} {serverAddress : String}
    (hpair : ∀ address names, .pair address names ∈ later →
      safeName address ≠ safeName serverAddress) :
    (later.foldl step ((before.foldl step start).step (.startServer serverIps))).connects lib
      serverAddress = false := by
  have hsince : safeName serverAddress ∉
      (later.foldl step ((before.foldl step start).step (.startServer serverIps))).pairedSince := by
    have hnew :
        ((before.foldl step start).step (.startServer serverIps)).pairedSince = [] := by
      simp [step, startServer, hstopped, hca]
    have hnone : safeName serverAddress ∉
        ((before.foldl step start).step (.startServer serverIps)).pairedSince := by
      simp [hnew]
    refine List.foldlRecOn (motive := fun s => safeName serverAddress ∉ s.pairedSince) later step
      hnone fun s hs event hmem => notMem_pairedSince_step hs ?_
    rintro address names rfl
    exact hpair address names hmem
  have hrun := issued_run (before ++ .startServer serverIps :: later)
  rw [List.foldl_append, List.foldl_cons] at hrun
  obtain ⟨ca, server, hissued⟩ := hrun
  rw [← Bool.not_eq_true, hissued.connects_iff lib serverAddress]
  rintro ⟨-, -, hpaired, -⟩
  exact hsince hpaired

/-- The client pairs under an address, and the key of the CA is deleted while the server is
stopped. -/
def caKeyLost : List TrustEvent :=
  [.startServer ["10.0.0.1"], .pair "10.0.0.1" [.dnsName "laptop"], .stopServer,
    .deleteFile .caKey]

/-- The client is refused from the next start on, although it pairs under another address. -/
theorem refused_after_newCa_otherAddress :
    ([.pair "laptop.local" [.dnsName "laptop"]].foldl step
      ((caKeyLost.foldl step start).step (.startServer ["10.0.0.1"]))).connects textTls
        "10.0.0.1" = false := by
  refine refused_after_newCa textTls (by decide) (by decide) ["10.0.0.1"] ?_
  intro address names hmem
  obtain ⟨rfl, -⟩ : address = "laptop.local" ∧ _ := TrustEvent.pair.inj (List.mem_singleton.mp hmem)
  decide

-- A pairing with an address that shares its files makes it connect again.
example : ([.pair "10-0-0-1" [.dnsName "laptop"]].foldl step
    ((caKeyLost.foldl step start).step (.startServer ["10.0.0.1"]))).connects textTls
      "10.0.0.1" = true := by
  decide +kernel

end TrustChain

end SuperShare
