import SuperShare.Lib.KeyedList
import SuperShare.Lib.Run
import SuperShare.Pairing.Handshake

/-!
# The trust store in the configuration file

The paired clients of a server and the known servers of a client are lists in the configuration
file. A task that persists paired clients loads the file for each of them, the command handler
and the settings window have copies of their own from the start, and each save writes a whole
copy. This file says exactly when a save loses what another of them has recorded.
-/

namespace SuperShare

/-- A server this client has paired with. -/
structure KnownServer where
  address : String
  certPath : String
  keyPath : String
  caPath : String
  serverFingerprint : String
  deriving DecidableEq, Repr

/-- The trust store of a configuration. The other settings are not touched here. -/
structure AppConfig where
  /-- `server.paired_clients`. -/
  pairedClients : List PairedClient
  /-- `client.known_servers`. -/
  knownServers : List KnownServer
  deriving DecidableEq, Repr

/-- Insert or replace a paired client, keyed by the fingerprint of its certificate. -/
def AppConfig.upsertPairedClient (config : AppConfig) (client : PairedClient) : AppConfig :=
  { config with
    pairedClients := KeyedList.upsert PairedClient.certFingerprint client config.pairedClients }

/-- Insert or replace a known server, keyed by its address. -/
def AppConfig.upsertKnownServer (config : AppConfig) (server : KnownServer) : AppConfig :=
  { config with knownServers := KeyedList.upsert KnownServer.address server config.knownServers }

/-- An entry of the trust store. -/
inductive TrustRecord where
  | client (client : PairedClient)
  | server (server : KnownServer)
  deriving DecidableEq, Repr

/-- Whether an entry is a client, and its key. -/
def TrustRecord.key : TrustRecord → Bool × String
  | client c => (true, c.certFingerprint)
  | server s => (false, s.address)

/-- Insert or replace an entry. -/
def AppConfig.upsert (config : AppConfig) : TrustRecord → AppConfig
  | .client c => config.upsertPairedClient c
  | .server s => config.upsertKnownServer s

/-- The configuration has the entry. -/
def AppConfig.Holds (config : AppConfig) : TrustRecord → Prop
  | .client c => c ∈ config.pairedClients
  | .server s => s ∈ config.knownServers

/-- Membership is decided by comparison. -/
instance (config : AppConfig) (r : TrustRecord) : Decidable (config.Holds r) :=
  match r with
  | .client c => inferInstanceAs (Decidable (c ∈ config.pairedClients))
  | .server s => inferInstanceAs (Decidable (s ∈ config.knownServers))

/-- Who writes the file: a persisting task for each start of the server, the command handler, and
the settings window. -/
inductive ConfigWriter where
  | pairing (start : ℕ)
  | handler
  | window
  deriving DecidableEq, Repr

/-- Where a persisting task is with a paired client. -/
inductive PersistPhase where
  | idle
  | loaded (paired : PairedClient) (config : AppConfig)
  | upserted (config : AppConfig)

/-- The file and the copies. What was recorded is kept to say what is lost. -/
structure TrustStore where
  file : AppConfig
  persisting : ℕ → PersistPhase
  handler : AppConfig
  /-- The handler has recorded a server and is about to save. -/
  handlerUpserted : Bool
  window : AppConfig
  /-- The entries recorded, the latest under each key. -/
  recorded : List TrustRecord
  /-- Those of them that no save has written yet. -/
  unsaved : List TrustRecord
  /-- What others recorded after a writer's copy was loaded, or had not saved then. -/
  missed : ConfigWriter → List TrustRecord

/-- A step of a writer. -/
inductive ConfigEvent where
  /-- A persisting task takes a paired client and loads the file. -/
  | load (start : ℕ) (paired : PairedClient)
  | upsertPaired (start : ℕ)
  /-- The handler has paired with a server. -/
  | upsertKnown (server : KnownServer)
  | save (writer : ConfigWriter)

/-- What a save wrote, and what was recorded by then. -/
structure SavedConfig where
  file : AppConfig
  recorded : List TrustRecord
  deriving DecidableEq, Repr

/-- The file has everything recorded so far. -/
def SavedConfig.Complete (saved : SavedConfig) : Prop :=
  ∀ r ∈ saved.recorded, saved.file.Holds r

/-- The latest entries with one more. -/
def putRecord (r : TrustRecord) (records : List TrustRecord) : List TrustRecord :=
  records.filter (fun old => old.key ≠ r.key) ++ [r]

namespace TrustStore

/-- The application has started: the handler and the window have loaded the file. -/
def start (file : AppConfig) : TrustStore where
  file := file
  persisting _ := .idle
  handler := file
  handlerUpserted := false
  window := file
  recorded := []
  unsaved := []
  missed _ := []

/-- The copy of a writer. -/
def copy (s : TrustStore) : ConfigWriter → Option AppConfig
  | .pairing start =>
      match s.persisting start with
      | .idle => none
      | .loaded _ config | .upserted config => some config
  | .handler => some s.handler
  | .window => some s.window

/-- The writer has come to its save. The window saves whenever the user asks for it. -/
def saves (s : TrustStore) : ConfigWriter → Bool
  | .pairing start =>
      match s.persisting start with
      | .upserted _ => true
      | _ => false
  | .handler => s.handlerUpserted
  | .window => true

/-- A writer records an entry, which all others miss. -/
def record (s : TrustStore) (writer : ConfigWriter) (r : TrustRecord) : TrustStore :=
  { s with
    recorded := putRecord r s.recorded
    unsaved := putRecord r s.unsaved
    missed := fun other =>
      if other = writer then (s.missed other).filter (fun old => old.key ≠ r.key)
      else putRecord r (s.missed other) }

/-- A writer saves its copy. -/
def write (s : TrustStore) (writer : ConfigWriter) (config : AppConfig) : TrustStore :=
  { s with
    file := config
    persisting := fun start => if writer = .pairing start then .idle else s.persisting start
    handlerUpserted := s.handlerUpserted && writer ≠ .handler
    unsaved := s.unsaved.filter fun r => ¬ config.Holds r }

/-- One step, and what it saved. -/
def step (s : TrustStore) : ConfigEvent → TrustStore × Option SavedConfig
  | .load start paired =>
      match s.persisting start with
      | .idle =>
          ({ s with
              persisting := Function.update s.persisting start (.loaded paired s.file)
              missed := Function.update s.missed (.pairing start) s.unsaved }, none)
      | _ => (s, none)
  | .upsertPaired start =>
      match s.persisting start with
      | .loaded paired config =>
          ({ s.record (.pairing start) (.client paired) with
              persisting := Function.update s.persisting start
                (.upserted (config.upsert (.client paired))) }, none)
      | _ => (s, none)
  | .upsertKnown server =>
      if s.handlerUpserted then (s, none)
      else
        ({ s.record .handler (.server server) with
            handler := s.handler.upsert (.server server)
            handlerUpserted := true }, none)
  | .save writer =>
      if s.saves writer then
        match s.copy writer with
        | some config => (s.write writer config, some ⟨config, s.recorded⟩)
        | none => (s, none)
      else (s, none)

/-- A save does not happen without what the writer missed: its copy has those entries too. -/
def UpToDate (s : TrustStore) : ConfigEvent → Prop
  | .save writer =>
      s.saves writer = true → ∀ config, s.copy writer = some config →
        ∀ r ∈ s.missed writer, config.Holds r
  | _ => True

/-- A configuration has the entry that was inserted. -/
theorem holds_upsert (config : AppConfig) (r : TrustRecord) : (config.upsert r).Holds r := by
  cases r with
  | client c => exact KeyedList.mem_upsert c config.pairedClients
  | server s => exact KeyedList.mem_upsert s config.knownServers

/-- A configuration keeps the entries with other keys than the inserted one. -/
theorem holds_upsert_of_ne {config : AppConfig} {r old : TrustRecord} (hold : config.Holds old)
    (hkey : old.key ≠ r.key) : (config.upsert r).Holds old := by
  cases r with
  | client c =>
    cases old with
    | client c' =>
      refine KeyedList.mem_upsert_of_ne hold fun heq => hkey ?_
      rw [TrustRecord.key, TrustRecord.key, heq]
    | server s' => exact hold
  | server s =>
    cases old with
    | client c' => exact hold
    | server s' =>
      refine KeyedList.mem_upsert_of_ne hold fun heq => hkey ?_
      rw [TrustRecord.key, TrustRecord.key, heq]

/-- The latest entries are the new one and those with other keys. -/
theorem mem_putRecord {r x : TrustRecord} {records : List TrustRecord} :
    x ∈ putRecord r records ↔ (x ∈ records ∧ x.key ≠ r.key) ∨ x = r := by
  simp [putRecord]

/-- Every entry recorded is in a copy, or is among those that its writer missed; and so for the
file and what was not saved. -/
structure Traced (s : TrustStore) : Prop where
  file : ∀ r ∈ s.recorded, s.file.Holds r ∨ r ∈ s.unsaved
  copies : ∀ writer config, s.copy writer = some config →
    ∀ r ∈ s.recorded, config.Holds r ∨ r ∈ s.missed writer
  missed : ∀ writer, ∀ r ∈ s.missed writer, r ∈ s.recorded
  unsaved : ∀ r ∈ s.unsaved, r ∈ s.recorded

variable {s : TrustStore}

/-- Recording an entry in the copy of a writer, while the other copies stay. -/
theorem Traced.record (h : s.Traced) {s' : TrustStore} (writer : ConfigWriter) (r : TrustRecord)
    (hfile : s'.file = s.file) (hrecorded : s'.recorded = (s.record writer r).recorded)
    (hunsaved : s'.unsaved = (s.record writer r).unsaved)
    (hmissed : s'.missed = (s.record writer r).missed)
    (hown : ∀ config', s'.copy writer = some config' →
      ∃ config, s.copy writer = some config ∧ config' = config.upsert r)
    (hother : ∀ other, other ≠ writer → s'.copy other = s.copy other) : s'.Traced := by
  constructor
  · rw [hfile, hrecorded, hunsaved]
    intro x hx
    rcases mem_putRecord.mp hx with ⟨hx, hkey⟩ | rfl
    · rcases h.file x hx with hholds | hunsaved
      · exact .inl hholds
      · exact .inr (mem_putRecord.mpr (.inl ⟨hunsaved, hkey⟩))
    · exact .inr (mem_putRecord.mpr (.inr rfl))
  · rw [hrecorded, hmissed]
    intro other config' hcopy x hx
    by_cases hwriter : other = writer
    · subst hwriter
      obtain ⟨config, hbefore, rfl⟩ := hown config' hcopy
      simp only [TrustStore.record, if_true]
      rcases mem_putRecord.mp hx with ⟨hx, hkey⟩ | rfl
      · rcases h.copies other config hbefore x hx with hholds | hmissed
        · exact .inl (holds_upsert_of_ne hholds hkey)
        · exact .inr (List.mem_filter.mpr ⟨hmissed, by simpa using hkey⟩)
      · exact .inl (holds_upsert config x)
    · rw [hother other hwriter] at hcopy
      simp only [TrustStore.record, if_neg hwriter]
      rcases mem_putRecord.mp hx with ⟨hx, hkey⟩ | rfl
      · rcases h.copies other config' hcopy x hx with hholds | hmissed
        · exact .inl hholds
        · exact .inr (mem_putRecord.mpr (.inl ⟨hmissed, hkey⟩))
      · exact .inr (mem_putRecord.mpr (.inr rfl))
  · rw [hrecorded, hmissed]
    intro other x hx
    simp only [TrustStore.record] at hx
    split at hx
    · obtain ⟨hx, hkey⟩ := List.mem_filter.mp hx
      exact mem_putRecord.mpr (.inl ⟨h.missed other x hx, by simpa using hkey⟩)
    · rcases mem_putRecord.mp hx with ⟨hx, hkey⟩ | rfl
      · exact mem_putRecord.mpr (.inl ⟨h.missed other x hx, hkey⟩)
      · exact mem_putRecord.mpr (.inr rfl)
  · rw [hrecorded, hunsaved]
    intro x hx
    rcases mem_putRecord.mp hx with ⟨hx, hkey⟩ | rfl
    · exact mem_putRecord.mpr (.inl ⟨h.unsaved x hx, hkey⟩)
    · exact mem_putRecord.mpr (.inr rfl)

/-- A task that loads the file misses what was not saved. -/
theorem Traced.load (h : s.Traced) {start : ℕ} (paired : PairedClient) :
    Traced { s with
      persisting := Function.update s.persisting start (.loaded paired s.file)
      missed := Function.update s.missed (.pairing start) s.unsaved } := by
  constructor
  · exact h.file
  · intro writer config hcopy
    by_cases hwriter : writer = .pairing start
    · subst hwriter
      have hconfig : s.file = config := by
        simpa [copy] using hcopy
      subst hconfig
      simpa using h.file
    · have hsame : s.copy writer = some config := by
        cases writer with
        | pairing other =>
          have hother : other ≠ start := fun heq => hwriter (by rw [heq])
          simpa [copy, Function.update_of_ne hother] using hcopy
        | handler => exact hcopy
        | window => exact hcopy
      simpa [Function.update_of_ne hwriter] using h.copies writer config hsame
  · intro writer
    by_cases hwriter : writer = .pairing start
    · subst hwriter
      simpa using h.unsaved
    · simpa [Function.update_of_ne hwriter] using h.missed writer
  · exact h.unsaved

/-- A save of a copy that has everything recorded. -/
theorem Traced.write (h : s.Traced) (writer : ConfigWriter) {config : AppConfig}
    (hcomplete : ∀ r ∈ s.recorded, config.Holds r) : (s.write writer config).Traced := by
  constructor
  · exact fun r hr => .inl (hcomplete r hr)
  · intro other config' hcopy
    refine h.copies other config' ?_
    cases other with
    | pairing start =>
      by_cases hwriter : writer = .pairing start
      · simp [copy, TrustStore.write, hwriter] at hcopy
      · simpa [copy, TrustStore.write, hwriter] using hcopy
    | handler => exact hcopy
    | window => exact hcopy
  · exact h.missed
  · exact fun r hr => h.unsaved r (List.mem_filter.mp hr).1

/-- What a writer saves is complete exactly if its copy has what it missed. -/
theorem Traced.complete_iff (h : s.Traced) {writer : ConfigWriter} {config : AppConfig}
    (hcopy : s.copy writer = some config) :
    (∀ r ∈ s.recorded, config.Holds r) ↔ ∀ r ∈ s.missed writer, config.Holds r := by
  constructor
  · exact fun hall r hr => hall r (h.missed writer r hr)
  · intro hmissed r hr
    rcases h.copies writer config hcopy r hr with hholds | hr
    · exact hholds
    · exact hmissed r hr

/-- A step that meets the condition keeps every entry traced. -/
theorem Traced.step (h : s.Traced) {event : ConfigEvent} (hok : s.UpToDate event) :
    (s.step event).1.Traced := by
  cases event with
  | load start paired =>
    simp only [TrustStore.step]
    split
    · exact h.load paired
    · exact h
  | upsertPaired start =>
    simp only [TrustStore.step]
    split
    · rename_i paired config hphase
      refine h.record (.pairing start) (.client paired) rfl rfl rfl rfl ?_ ?_
      · intro config' hcopy
        refine ⟨config, by simp [copy, hphase], ?_⟩
        simpa [copy, eq_comm] using hcopy
      · intro other hother
        cases other with
        | pairing number =>
          have hnumber : number ≠ start := fun heq => hother (by rw [heq])
          simp [copy, Function.update_of_ne hnumber]
        | handler => rfl
        | window => rfl
    · exact h
  | upsertKnown server =>
    simp only [TrustStore.step]
    split
    · exact h
    · refine h.record .handler (.server server) rfl rfl rfl rfl ?_ ?_
      · intro config' hcopy
        exact ⟨s.handler, rfl, (Option.some.inj hcopy).symm⟩
      · intro other hother
        cases other with
        | pairing number => rfl
        | handler => exact absurd rfl hother
        | window => rfl
  | save writer =>
    simp only [TrustStore.step]
    split
    · rename_i hsaves
      split
      · rename_i config hcopy
        exact h.write writer ((h.complete_iff hcopy).mpr (hok hsaves config hcopy))
      · exact h
    · exact h

/-- What a step saves is complete exactly if the step meets the condition. -/
theorem Traced.saved_iff (h : s.Traced) (event : ConfigEvent) :
    (∀ saved ∈ (s.step event).2, saved.Complete) ↔ s.UpToDate event := by
  cases event with
  | load start paired =>
    refine iff_of_true ?_ trivial
    simp only [TrustStore.step]
    split <;> simp
  | upsertPaired start =>
    refine iff_of_true ?_ trivial
    simp only [TrustStore.step]
    split <;> simp
  | upsertKnown server =>
    refine iff_of_true ?_ trivial
    simp only [TrustStore.step]
    split <;> simp
  | save writer =>
    simp only [TrustStore.step, UpToDate]
    by_cases hsaves : s.saves writer = true
    · rw [if_pos hsaves]
      cases hcopy : s.copy writer with
      | none => simp [hsaves]
      | some config => simpa [hsaves, SavedConfig.Complete] using h.complete_iff hcopy
    · simp [hsaves]

/-- **Lost trust.** In a run of the writers from a common file, in any order, every save leaves a
file with all that was recorded so far if and only if each copy that is saved has what its writer
missed. -/
theorem saves_complete_iff_upToDate (file : AppConfig) (events : List ConfigEvent) :
    (∀ o ∈ Run.outputs step (start file) events, ∀ saved ∈ o, saved.Complete) ↔
      Run.Along (fun s event => (step s event).1) UpToDate (start file) events := by
  have hstart : (start file).Traced := by
    constructor <;> simp [start]
  exact Run.forall_outputs_iff_along Traced (fun s event hok h => h.step hok)
    (fun s event h => h.saved_iff event) hstart events

/-- A client pairs and is persisted; then the user saves the settings. -/
def settingsSaved : List ConfigEvent :=
  [.load 0 ⟨"laptop", "deadbeef", 42⟩, .upsertPaired 0, .save (.pairing 0), .save .window]

/-- The save of the settings loses the client. -/
theorem settingsSaved_loses :
    ¬ ∀ o ∈ Run.outputs step (start ⟨[], []⟩) settingsSaved, ∀ saved ∈ o, saved.Complete := by
  intro h
  have hlost := h (some ⟨⟨[], []⟩, [.client ⟨"laptop", "deadbeef", 42⟩]⟩) (by decide +kernel) _ rfl
  exact absurd (hlost (.client ⟨"laptop", "deadbeef", 42⟩) (by simp)) (by decide)

end TrustStore

end SuperShare
