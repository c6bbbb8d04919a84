import SuperShare.Pairing.TrustStore

/-!
# The trust lists as maps

The known servers and the paired clients of a configuration are looked up by address and by
fingerprint, and entries are inserted and deleted by them. Lists from a hand-edited file may
have an entry twice. Whatever the lists, they behave as maps under the first match.
-/

namespace SuperShare

namespace AppConfig

/-- Find a known server by address. -/
def findKnownServer (config : AppConfig) (address : String) : Option KnownServer :=
  config.knownServers.find? fun s => s.address == address

/-- Forget a known server by address, and say whether an entry was removed. -/
def forgetServer (config : AppConfig) (address : String) : AppConfig × Bool :=
  let before := config.knownServers.length
  let config := { config with knownServers := config.knownServers.filter (·.address != address) }
  (config, config.knownServers.length != before)

/-- Whether a client with the given certificate fingerprint is paired. -/
def isClientPaired (config : AppConfig) (fingerprint : String) : Bool :=
  config.pairedClients.any fun c => c.certFingerprint == fingerprint

/-- Revoke a paired client by certificate fingerprint, and say whether one was removed. -/
def revokeClient (config : AppConfig) (fingerprint : String) : AppConfig × Bool :=
  let before := config.pairedClients.length
  let config :=
    { config with pairedClients := config.pairedClients.filter (·.certFingerprint != fingerprint) }
  (config, config.pairedClients.length != before)

end AppConfig

/-- An operation on the trust lists. -/
inductive TrustOp where
  | findKnownServer (address : String)
  | upsertKnownServer (server : KnownServer)
  | forgetServer (address : String)
  | isClientPaired (fingerprint : String)
  | upsertPairedClient (client : PairedClient)
  | revokeClient (fingerprint : String)

/-- The configuration after an operation. -/
def AppConfig.apply (config : AppConfig) : TrustOp → AppConfig
  | .findKnownServer _ => config
  | .upsertKnownServer server => config.upsertKnownServer server
  | .forgetServer address => (config.forgetServer address).1
  | .isClientPaired _ => config
  | .upsertPairedClient client => config.upsertPairedClient client
  | .revokeClient fingerprint => (config.revokeClient fingerprint).1

/-- The record of an address: the one last inserted, unless it has been forgotten since. -/
def TrustOp.serverAt (address : String) (record : Option KnownServer) : TrustOp → Option KnownServer
  | .upsertKnownServer server => if server.address = address then some server else record
  | .forgetServer forgotten => if forgotten = address then none else record
  | _ => record

/-- The record of a fingerprint: the one last inserted, unless it has been revoked since. -/
def TrustOp.clientAt (fingerprint : String) (record : Option PairedClient) :
    TrustOp → Option PairedClient
  | .upsertPairedClient client =>
      if client.certFingerprint = fingerprint then some client else record
  | .revokeClient revoked => if revoked = fingerprint then none else record
  | _ => record

/-- The first paired client with a fingerprint, whose presence `is_client_paired` reports. -/
def AppConfig.pairedClient (config : AppConfig) (fingerprint : String) : Option PairedClient :=
  config.pairedClients.find? fun c => c.certFingerprint == fingerprint

/-- The addresses of the known servers. -/
def AppConfig.addresses (config : AppConfig) : List String :=
  config.knownServers.map KnownServer.address

/-- The fingerprints of the paired clients. -/
def AppConfig.fingerprints (config : AppConfig) : List String :=
  config.pairedClients.map PairedClient.certFingerprint

/-! ## Both lists as keyed lists -/

/-- Looking up in either list. -/
theorem find?_eq_lookup {α : Type} (key : α → String) (l : List α) (k : String) :
    (l.find? fun a => key a == k) = KeyedList.lookup key l k := by
  rw [KeyedList.lookup]
  congr 1

/-- Deleting in either list. -/
theorem filter_eq_remove {α : Type} (key : α → String) (k : String) (l : List α) :
    (l.filter fun a => key a != k) = KeyedList.remove key k l := by
  rw [KeyedList.remove]
  congr 1
  funext a
  by_cases h : key a = k <;> simp [h]

namespace AppConfig

/-- The known servers as a map. -/
theorem findKnownServer_eq (config : AppConfig) :
    config.findKnownServer = KeyedList.lookup KnownServer.address config.knownServers :=
  funext (find?_eq_lookup KnownServer.address config.knownServers)

/-- The paired clients as a map. -/
theorem pairedClient_eq (config : AppConfig) :
    config.pairedClient = KeyedList.lookup PairedClient.certFingerprint config.pairedClients :=
  funext (find?_eq_lookup PairedClient.certFingerprint config.pairedClients)

/-- A client is paired when it has a record. -/
theorem isClientPaired_eq (config : AppConfig) (fingerprint : String) :
    config.isClientPaired fingerprint = (config.pairedClient fingerprint).isSome := by
  exact List.isSome_find?.symm

/-- Forgetting a server is deleting the records of its address. -/
theorem knownServers_forgetServer (config : AppConfig) (address : String) :
    (config.forgetServer address).1.knownServers =
      KeyedList.remove KnownServer.address address config.knownServers :=
  filter_eq_remove KnownServer.address address config.knownServers

/-- Revoking a client is deleting the records of its fingerprint. -/
theorem pairedClients_revokeClient (config : AppConfig) (fingerprint : String) :
    (config.revokeClient fingerprint).1.pairedClients =
      KeyedList.remove PairedClient.certFingerprint fingerprint config.pairedClients :=
  filter_eq_remove PairedClient.certFingerprint fingerprint config.pairedClients

/-- Forgetting reports whether the address had a record. -/
theorem forgetServer_eq (config : AppConfig) (address : String) :
    (config.forgetServer address).2 = (config.findKnownServer address).isSome := by
  rw [Bool.eq_iff_iff, findKnownServer_eq, ← KeyedList.length_remove_ne,
    ← knownServers_forgetServer]
  simp [forgetServer]

/-- Revoking reports whether the fingerprint had a record. -/
theorem revokeClient_eq (config : AppConfig) (fingerprint : String) :
    (config.revokeClient fingerprint).2 = (config.pairedClient fingerprint).isSome := by
  rw [Bool.eq_iff_iff, pairedClient_eq, ← KeyedList.length_remove_ne,
    ← pairedClients_revokeClient]
  simp [revokeClient]

/-! ## One operation -/

/-- Server step: an operation does to the record of an address what it does to the map. -/
theorem findKnownServer_apply (config : AppConfig) (op : TrustOp) (address : String) :
    (config.apply op).findKnownServer address =
      op.serverAt address (config.findKnownServer address) := by
  cases op with
  | findKnownServer | isClientPaired | upsertPairedClient | revokeClient => rfl
  | upsertKnownServer server =>
    rw [findKnownServer_eq, findKnownServer_eq, apply, upsertKnownServer,
      KeyedList.lookup_upsert, TrustOp.serverAt, Function.update_apply]
    simp only [eq_comm]
  | forgetServer forgotten =>
    rw [findKnownServer_eq, findKnownServer_eq, apply, knownServers_forgetServer,
      KeyedList.lookup_remove, TrustOp.serverAt, Function.update_apply]
    simp only [eq_comm]

/-- Client step: an operation does to the record of a fingerprint what it does to the map. -/
theorem pairedClient_apply (config : AppConfig) (op : TrustOp) (fingerprint : String) :
    (config.apply op).pairedClient fingerprint =
      op.clientAt fingerprint (config.pairedClient fingerprint) := by
  cases op with
  | findKnownServer | isClientPaired | upsertKnownServer | forgetServer => rfl
  | upsertPairedClient client =>
    rw [pairedClient_eq, pairedClient_eq, apply, upsertPairedClient,
      KeyedList.lookup_upsert, TrustOp.clientAt, Function.update_apply]
    simp only [eq_comm]
  | revokeClient revoked =>
    rw [pairedClient_eq, pairedClient_eq, apply, pairedClients_revokeClient,
      KeyedList.lookup_remove, TrustOp.clientAt, Function.update_apply]
    simp only [eq_comm]

/-- No operation makes an address or a fingerprint appear twice. -/
theorem nodup_apply (config : AppConfig) (op : TrustOp) :
    (config.addresses.Nodup → (config.apply op).addresses.Nodup) ∧
      (config.fingerprints.Nodup → (config.apply op).fingerprints.Nodup) := by
  cases op with
  | findKnownServer | isClientPaired => exact ⟨id, id⟩
  | upsertKnownServer server =>
    refine ⟨fun h => ?_, id⟩
    rw [addresses, apply, upsertKnownServer]
    exact KeyedList.nodup_upsert h
  | forgetServer address =>
    refine ⟨fun h => ?_, id⟩
    rw [addresses, apply, knownServers_forgetServer]
    exact KeyedList.nodup_remove h
  | upsertPairedClient client =>
    refine ⟨id, fun h => ?_⟩
    rw [fingerprints, apply, upsertPairedClient]
    exact KeyedList.nodup_upsert h
  | revokeClient fingerprint =>
    refine ⟨id, fun h => ?_⟩
    rw [fingerprints, apply, pairedClients_revokeClient]
    exact KeyedList.nodup_remove h

end AppConfig

/-! ## Runs -/

/-- The known servers after operations on the trust lists behave as a map from addresses. -/
structure ServersAsMap (initial : AppConfig) (ops : List TrustOp) (config : AppConfig) : Prop where
  /-- A find returns what was last inserted and not forgotten since, or the initial match. -/
  finds : ∀ address, config.findKnownServer address =
    ops.foldl (TrustOp.serverAt address) (initial.findKnownServer address)
  /-- Operations on one address do not change the result for another. -/
  upsertOther : ∀ server other, other ≠ server.address →
    (config.upsertKnownServer server).findKnownServer other = config.findKnownServer other
  forgetOther : ∀ address other, other ≠ address →
    (config.forgetServer address).1.findKnownServer other = config.findKnownServer other
  /-- Forgetting returns true exactly when there was a record, and leaves none. -/
  forgets : ∀ address, ((config.forgetServer address).2 = true ↔
    ∃ s ∈ config.knownServers, s.address = address) ∧
    ∀ s ∈ (config.forgetServer address).1.knownServers, s.address ≠ address
  nodup : initial.addresses.Nodup → config.addresses.Nodup

/-- The paired clients after operations on the trust lists behave as a map from fingerprints, of
which the domain can be asked for. -/
structure ClientsAsMap (initial : AppConfig) (ops : List TrustOp) (config : AppConfig) : Prop where
  /-- The first match is what was last inserted and not revoked since, or the initial one. -/
  finds : ∀ fingerprint, config.pairedClient fingerprint =
    ops.foldl (TrustOp.clientAt fingerprint) (initial.pairedClient fingerprint)
  /-- A client is paired when there is a record. -/
  paired : ∀ fingerprint, config.isClientPaired fingerprint =
    (ops.foldl (TrustOp.clientAt fingerprint) (initial.pairedClient fingerprint)).isSome
  /-- Operations on one fingerprint do not change the result for another. -/
  upsertOther : ∀ client other, other ≠ client.certFingerprint →
    (config.upsertPairedClient client).isClientPaired other = config.isClientPaired other
  revokeOther : ∀ fingerprint other, other ≠ fingerprint →
    (config.revokeClient fingerprint).1.isClientPaired other = config.isClientPaired other
  /-- Revoking returns true exactly when there was a record, and leaves none. -/
  revokes : ∀ fingerprint, ((config.revokeClient fingerprint).2 = true ↔
    ∃ c ∈ config.pairedClients, c.certFingerprint = fingerprint) ∧
    ∀ c ∈ (config.revokeClient fingerprint).1.pairedClients, c.certFingerprint ≠ fingerprint
  nodup : initial.fingerprints.Nodup → config.fingerprints.Nodup

/-- No run makes an address or a fingerprint appear twice. -/
theorem nodup_foldl (initial : AppConfig) (ops : List TrustOp) :
    (initial.addresses.Nodup → (ops.foldl AppConfig.apply initial).addresses.Nodup) ∧
      (initial.fingerprints.Nodup → (ops.foldl AppConfig.apply initial).fingerprints.Nodup) := by
  induction ops generalizing initial with
  | nil => exact ⟨id, id⟩
  | cons op ops ih =>
    obtain ⟨haddresses, hfingerprints⟩ := initial.nodup_apply op
    exact ⟨fun h => (ih _).1 (haddresses h), fun h => (ih _).2 (hfingerprints h)⟩

/-- **Trust lists.** Whatever the initial lists and the operations on them, the known servers and
the paired clients behave as finite maps under the first match. -/
theorem trustLists_asMaps (initial : AppConfig) (ops : List TrustOp) :
    ServersAsMap initial ops (ops.foldl AppConfig.apply initial) ∧
      ClientsAsMap initial ops (ops.foldl AppConfig.apply initial) := by
  set config := ops.foldl AppConfig.apply initial with hconfig
  obtain ⟨haddresses, hfingerprints⟩ := nodup_foldl initial ops
  have hclients : ∀ fingerprint, config.pairedClient fingerprint =
      ops.foldl (TrustOp.clientAt fingerprint) (initial.pairedClient fingerprint) :=
    fun fingerprint => (List.foldl_hom (fun c : AppConfig => c.pairedClient fingerprint)
      fun c op => (c.pairedClient_apply op fingerprint).symm).symm
  constructor
  · refine ⟨?_, ?_, ?_, fun address => ⟨?_, ?_⟩, haddresses⟩
    · exact fun address => (List.foldl_hom (fun c : AppConfig => c.findKnownServer address)
        fun c op => (c.findKnownServer_apply op address).symm).symm
    · intro server other hother
      exact (config.findKnownServer_apply (.upsertKnownServer server) other).trans
        (if_neg hother.symm)
    · intro address other hother
      exact (config.findKnownServer_apply (.forgetServer address) other).trans
        (if_neg hother.symm)
    · rw [config.forgetServer_eq, AppConfig.findKnownServer, List.find?_isSome]
      simp
    · rw [config.knownServers_forgetServer, ← KeyedList.lookup_eq_none, KeyedList.lookup_remove,
        Function.update_self]
  · refine ⟨hclients, ?_, ?_, ?_, fun fingerprint => ⟨?_, ?_⟩, hfingerprints⟩
    · intro fingerprint
      rw [config.isClientPaired_eq, hclients]
    · intro client other hother
      rw [AppConfig.isClientPaired_eq, AppConfig.isClientPaired_eq]
      exact congrArg Option.isSome ((config.pairedClient_apply (.upsertPairedClient client)
        other).trans (if_neg hother.symm))
    · intro fingerprint other hother
      rw [AppConfig.isClientPaired_eq, AppConfig.isClientPaired_eq]
      exact congrArg Option.isSome ((config.pairedClient_apply (.revokeClient fingerprint)
        other).trans (if_neg hother.symm))
    · rw [config.revokeClient_eq, AppConfig.pairedClient, List.find?_isSome]
      simp
    · rw [config.pairedClients_revokeClient, ← KeyedList.lookup_eq_none, KeyedList.lookup_remove,
        Function.update_self]

/-! ## Looking up certificates -/

/-- Explicit paths win, and otherwise a known server is used. Without either, pairing is needed. -/
def resolveClientCerts (config : AppConfig) (serverAddress : String)
    (certPath keyPath caPath : Option String) : Option (String × String × String) :=
  match certPath, keyPath, caPath with
  | some c, some k, some a => some (c, k, a)
  | _, _, _ =>
      (config.findKnownServer serverAddress).map fun s => (s.certPath, s.keyPath, s.caPath)

end SuperShare
