import SuperShare.Pairing.Dialogue

/-!
# The stages of an honest pairing

The stages that a dialogue of two honest sides goes through. Every section of either side takes
a dialogue from one stage to the next, or leaves it waiting.
-/

namespace SuperShare

variable {lib : PairingLib}

namespace PairingDialogue

/-- The first message of the client. -/
def request (c : PairingCeremony lib) : Message := .pairRequest pairProtocolVersion c.deviceName

/-- The client, and what it has sent, until it waits for the server. -/
inductive ClientGreets (c : PairingCeremony lib) : ClientPhase lib → List Message → Prop
  | begins : ClientGreets c .writeRequest []
  | requested : ClientGreets c .writeSpake [request c]
  | waits (seed : lib.Seed) : ClientGreets c (.readSpake (lib.start c.pin seed).1)
      [request c, .pairSpake (lib.start c.pin seed).2]

/-- The server, and what it has read, until it has the client's SPAKE2 message. -/
inductive ServerGreets (c : PairingCeremony lib) (m checked : PinManager) :
    PairingRun lib → List Message → Prop
  | lock {server} (h : ServerAt server m .checkLock [] [] []) : ServerGreets c m checked server []
  | request {server} (h : ServerAt server checked .readRequest [] [] []) :
      ServerGreets c m checked server []
  | spake {server} (h : ServerAt server checked (.readSpake c.deviceName) [] [] []) :
      ServerGreets c m checked server [request c]

/-- The PIN has been taken, and the two sides have keys that are equal if their PINs are. -/
structure Exchanged (c : PairingCeremony lib) (checked taken : PinManager) (key key' : lib.Key) :
    Prop where
  took : ∃ later fresh, taken = checked.currentPin later fresh
  derived : c.ClientKey key
  agree : key = key' ↔ c.pin = taken.pin

/-- The client waits for an answer that is on its way, or has returned on it. -/
inductive Answered (c : PairingCeremony lib) (key : lib.Key) (answer : Message)
    (result : Except PairError PairedMaterial) : ClientPhase lib → List UInt8 → Prop
  | waits : Answered c key answer result (.readResult key c.keyPem) (writeFrames [answer])
  | returned : Answered c key answer result (.returned result) []

/-- The server from the written result on. -/
inductive ServerSucceeds (c : PairingCeremony lib) (taken : PinManager) : PairingRun lib → Prop
  | counting {server} (h : ServerAt server taken (.countSuccess c.deviceName c.fingerprint)
      [taken.pin] [c.certPem] []) : ServerSucceeds c taken server
  | recording {server later fresh} (h : ServerAt server (taken.recordSuccess later fresh)
      (.sendPaired c.deviceName c.fingerprint) [taken.pin] [c.certPem] []) :
      ServerSucceeds c taken server
  | done {server later fresh unixTime} (h : ServerAt server (taken.recordSuccess later fresh)
      .done [taken.pin] [c.certPem] [⟨c.deviceName, c.fingerprint, unixTime⟩]) :
      ServerSucceeds c taken server

/-- What the client returns when the PINs are equal. -/
def material (c : PairingCeremony lib) : PairedMaterial :=
  ⟨c.certPem, c.keyPem, c.config.caCertPem⟩

/-- What the server tells a client with another PIN. -/
def refusal (lib : PairingLib) : Message :=
  .pairError ((PairingError.pinVerification .authentication).reason lib)

/-- The stages of an honest dialogue that starts with the manager `m`, which is `checked` after
the lock check. -/
inductive Stage (c : PairingCeremony lib) (m checked : PinManager) : PairingDialogue lib → Prop
  | greeting {client server consumed pending}
      (hclient : ClientGreets c client (consumed ++ pending))
      (hserver : ServerGreets c m checked server consumed) :
      Stage c m checked ⟨client, server, writeFrames pending, []⟩
  | exchanging {server seed}
      (hserver : ServerAt server checked (.takePin c.deviceName (lib.start c.pin seed).2)
        [] [] []) :
      Stage c m checked ⟨.readSpake (lib.start c.pin seed).1, server, [], []⟩
  | taken {server seed seed' later fresh x} (hspake : x.clientSpake = (lib.start c.pin seed).2)
      (hserver : ServerAt server (checked.currentPin later fresh)
        (.writeSpake x (lib.start (checked.currentPin later fresh).pin seed').1
          (lib.start (checked.currentPin later fresh).pin seed').2)
        [(checked.currentPin later fresh).pin] [] []) :
      Stage c m checked ⟨.readSpake (lib.start c.pin seed).1, server, [], []⟩
  | keyed {server exchange spake key key' taken x} (hkeys : Exchanged c checked taken key key')
      (hfinish : lib.finish exchange spake = .ok key) (hfits : (Message.pairSpake spake).Fits)
      (hserver : ServerAt server taken (.readConfirm x key') [taken.pin] [] []) :
      Stage c m checked ⟨.readSpake exchange, server, [], writeFrames [.pairSpake spake]⟩
  | confirming {server key key' taken x nonce ciphertext}
      (hkeys : Exchanged c checked taken key key')
      (hsealed : Sealed key c.requestBytes nonce ciphertext)
      (hserver : ServerAt server taken (.readConfirm x key') [taken.pin] [] []) :
      Stage c m checked ⟨.writeConfirm key c.keyPem nonce ciphertext, server, [], []⟩
  | confirmed {server key key' taken x nonce ciphertext}
      (hkeys : Exchanged c checked taken key key')
      (hsealed : Sealed key c.requestBytes nonce ciphertext)
      (hserver : ServerAt server taken (.readConfirm x key') [taken.pin] [] []) :
      Stage c m checked
        ⟨.readResult key c.keyPem, server, writeFrames [.pairConfirm nonce ciphertext], []⟩
  | opening {server key key' taken x nonce ciphertext}
      (hkeys : Exchanged c checked taken key key')
      (hsealed : Sealed key c.requestBytes nonce ciphertext)
      (hserver : ServerAt server taken (.openConfirm x key' nonce ciphertext) [taken.pin] [] []) :
      Stage c m checked ⟨.readResult key c.keyPem, server, [], []⟩
  | signing {server key taken x} (hkeys : Exchanged c checked taken key key)
      (hserver : ServerAt server taken (.sign x key c.requestBytes) [taken.pin] [] []) :
      Stage c m checked ⟨.readResult key c.keyPem, server, [], []⟩
  | answering {server key taken nonce ciphertext} (hkeys : Exchanged c checked taken key key)
      (hsealed : Sealed key c.responseBytes nonce ciphertext)
      (hserver : ServerAt server taken (.writeResult c.deviceName c.fingerprint nonce ciphertext)
        [taken.pin] [c.certPem] []) :
      Stage c m checked ⟨.readResult key c.keyPem, server, [], []⟩
  | accepted {client server key taken nonce ciphertext toClient}
      (hkeys : Exchanged c checked taken key key)
      (hsealed : Sealed key c.responseBytes nonce ciphertext)
      (hclient : Answered c key (.pairResult nonce ciphertext) (.ok (material c)) client toClient)
      (hserver : ServerSucceeds c taken server) :
      Stage c m checked ⟨client, server, [], toClient⟩
  | refusing {server key key' taken} (hkeys : Exchanged c checked taken key key')
      (hdiffer : key ≠ key')
      (hserver : ServerAt server taken (.countFailure .authentication) [taken.pin] [] []) :
      Stage c m checked ⟨.readResult key c.keyPem, server, [], []⟩
  | refused {server key key' taken later} (hkeys : Exchanged c checked taken key key')
      (hdiffer : key ≠ key')
      (hserver : ServerAt server (taken.recordFailure later)
        (.failed (.pinVerification .authentication)) [taken.pin] [] []) :
      Stage c m checked ⟨.readResult key c.keyPem, server, [], []⟩
  | rejected {client server key key' taken later toClient}
      (hkeys : Exchanged c checked taken key key') (hdiffer : key ≠ key')
      (hclient : Answered c key (refusal lib) (.error .badPin) client toClient)
      (hserver : ServerAt server (taken.recordFailure later) .closed [taken.pin] [] []) :
      Stage c m checked ⟨client, server, [], toClient⟩

variable {c : PairingCeremony lib} {m checked : PinManager} {now : ℕ} {client : ClientPhase lib}
  {server : PairingRun lib} {toServer toClient : List UInt8} {s : PairingDialogue lib}

/-- Nothing was written. -/
theorem writeFrames_nil : writeFrames [] = [] := rfl

/-- Messages written later come after the others. -/
theorem writeFrames_append (sent more : List Message) :
    writeFrames (sent ++ more) = writeFrames sent ++ writeFrames more := List.flatMap_append

/-! ### The client's sections -/

/-- A greeting client sends its next message, or waits. -/
theorem ClientGreets.step {sent : List Message} (h : ClientGreets c client sent)
    (input : ClientInput lib) :
    ∃ client' wrote, step c ⟨client, server, toServer, []⟩ (.client input) =
        ⟨client', server, toServer ++ writeFrames wrote, []⟩ ∧
      ClientGreets c client' (sent ++ wrote) := by
  cases h with
  | begins =>
    have harrival : arrival (ClientPhase.writeRequest : ClientPhase lib).reads [] =
        some (.ok none, []) := rfl
    exact ⟨.writeSpake, [request c], step_client harrival rfl, .requested⟩
  | requested =>
    have harrival : arrival (ClientPhase.writeSpake : ClientPhase lib).reads [] =
        some (.ok none, []) := rfl
    exact ⟨_, _, step_client harrival rfl, .waits input.seed⟩
  | waits seed =>
    have harrival : arrival (ClientPhase.readSpake (lib.start c.pin seed).1).reads [] = none := rfl
    refine ⟨.readSpake (lib.start c.pin seed).1, [], ?_, .waits seed⟩
    rw [step_client_waits harrival, writeFrames_nil, List.append_nil]

/-- A client that waits for its answer returns on it. -/
theorem Answered.step {key : lib.Key} {answer : Message}
    {result : Except PairError PairedMaterial} (h : Answered c key answer result client toClient)
    (hfit : answer.Fits)
    (hresult : ∀ input : ClientInput lib, input.read = .ok (some answer) →
      pairWithServer c.pin c.deviceName input (.readResult key c.keyPem) = ⟨.returned result, []⟩)
    (input : ClientInput lib) :
    ∃ client' toClient', step c ⟨client, server, [], toClient⟩ (.client input) =
        ⟨client', server, [], toClient'⟩ ∧ Answered c key answer result client' toClient' := by
  cases h with
  | waits =>
    have harrival : arrival (ClientPhase.readResult key c.keyPem).reads (writeFrames [answer]) =
        some (.ok (some answer), []) := arrival_writeFrames hfit []
    exact ⟨.returned result, [], step_client harrival (hresult _ rfl), .returned⟩
  | returned =>
    have harrival : arrival (ClientPhase.returned result : ClientPhase lib).reads [] =
        some (.ok none, []) := rfl
    exact ⟨.returned result, [], step_client harrival rfl, .returned⟩

/-- The client reads the server's SPAKE2 message and seals its request. -/
theorem pairWithServer_readSpake {exchange : lib.Exchange} {spake ciphertext : List UInt8}
    {key : lib.Key} {input : ClientInput lib} (hread : input.read = .ok (some (.pairSpake spake)))
    (hfinish : lib.finish exchange spake = .ok key) (hcsr : input.csr = .ok (c.csrPem, c.keyPem))
    (hsealed : Sealed key c.requestBytes input.nonce.toList ciphertext) :
    pairWithServer c.pin c.deviceName input (.readSpake exchange) =
      ⟨.writeConfirm key c.keyPem input.nonce.toList ciphertext, []⟩ := by
  have hencrypt := hsealed.encrypted
  rw [PairingCeremony.requestBytes] at hencrypt
  simp only [pairWithServer, hread, hfinish, hcsr, hencrypt]

/-- The client opens the response. -/
theorem pairWithServer_readResult {key : lib.Key} {nonce ciphertext : List UInt8}
    {input : ClientInput lib} (hread : input.read = .ok (some (.pairResult nonce ciphertext)))
    (hopen : lib.openPayload key nonce ciphertext = .ok c.responseBytes)
    (hlength : c.responseBytes.length ≤ maxPayloadSize.toNat) :
    pairWithServer c.pin c.deviceName input (.readResult key c.keyPem) =
      ⟨.returned (.ok (material c)), []⟩ := by
  have hmax : maxPayloadSize.toNat = 16777216 := rfl
  have hdecode : ProvisionResponse.decode c.responseBytes =
      .ok ⟨c.certPem, c.config.caCertPem⟩ := ProvisionResponse.decode_encode (by
    rw [PairingCeremony.responseBytes] at hlength
    omega)
  simp only [pairWithServer, hread, hopen, hdecode]
  rfl

/-- The client takes the refusal for a wrong PIN. -/
theorem pairWithServer_refusal {key : lib.Key} {input : ClientInput lib}
    (hread : input.read = .ok (some (refusal lib))) :
    pairWithServer c.pin c.deviceName input (.readResult key c.keyPem) =
      ⟨.returned (.error .badPin), []⟩ := by
  have hreason : (PairingError.pinVerification .authentication).reason lib =
      "PIN verification failed: provisioning payload could not be authenticated" := rfl
  have hpin : mentionsPin
      "PIN verification failed: provisioning payload could not be authenticated" = true := by
    decide +kernel
  rw [refusal, hreason] at hread
  simp only [pairWithServer, hread, hpin, if_true]
  rfl

/-- The refusal fits in a frame. -/
theorem refusal_fits (lib : PairingLib) : (refusal lib).Fits := by
  have hreason : (PairingError.pinVerification .authentication).reason lib =
      "PIN verification failed: provisioning payload could not be authenticated" := rfl
  rw [refusal, hreason]
  decide +kernel

/-- A client that waits stays at its stage. -/
theorem Stage.client_waits (hreads : s.client.reads = true) (hempty : s.toClient = [])
    (h : Stage c m checked s) {input : ClientInput lib} :
    Stage c m checked (step c s (.client input)) := by
  have harrival : arrival s.client.reads s.toClient = none := by
    rw [hreads, hempty]
    exact arrival_nil
  rw [step_client_waits harrival]
  exact h

/-- A client that does not wait comes to the stage with its next phase. -/
theorem Stage.client_moves {input : ClientInput lib}
    {read : Except ReadFailure (Option Message)} {rest : List UInt8}
    (harrival : arrival s.client.reads s.toClient = some (read, rest))
    {client' : ClientPhase lib} {wrote : List Message}
    (hresult : pairWithServer c.pin c.deviceName
      { input with read := read, written := true } s.client = ⟨client', wrote⟩)
    (h : Stage c m checked ⟨client', s.server, s.toServer ++ writeFrames wrote, rest⟩) :
    Stage c m checked (step c s (.client input)) := by
  rw [step_client harrival hresult]
  exact h

/-- A section of the client keeps the stage or takes the dialogue to the next. -/
theorem Stage.step_client (hideal : IdealCrypto lib) (hfits : c.FitsFrames)
    (h : Stage c m checked s) {input : ClientInput lib}
    (hcsr : input.csr = .ok (c.csrPem, c.keyPem)) :
    Stage c m checked (step c s (.client input)) := by
  cases h with
  | greeting hclient hserver =>
    obtain ⟨client', wrote, hstep, hgreets⟩ := hclient.step input
    rw [hstep, ← writeFrames_append]
    rw [List.append_assoc] at hgreets
    exact .greeting hgreets hserver
  | exchanging hserver => exact client_waits rfl rfl (.exchanging hserver)
  | taken hspake hserver => exact client_waits rfl rfl (.taken hspake hserver)
  | keyed hkeys hfinish hfit hserver =>
    obtain ⟨ciphertext, hsealed⟩ := exists_sealed hideal _ input.nonce hfits.requestBytes
    exact client_moves (arrival_writeFrames hfit [])
      (pairWithServer_readSpake rfl hfinish hcsr hsealed) (.confirming hkeys hsealed hserver)
  | confirming hkeys hsealed hserver =>
    exact client_moves (arrival_false []) rfl (.confirmed hkeys hsealed hserver)
  | confirmed hkeys hsealed hserver =>
    exact client_waits rfl rfl (.confirmed hkeys hsealed hserver)
  | opening hkeys hsealed hserver => exact client_waits rfl rfl (.opening hkeys hsealed hserver)
  | signing hkeys hserver => exact client_waits rfl rfl (.signing hkeys hserver)
  | answering hkeys hsealed hserver =>
    exact client_waits rfl rfl (.answering hkeys hsealed hserver)
  | accepted hkeys hsealed hclient hserver =>
    obtain ⟨client', toClient', hstep, hanswered⟩ :=
      hclient.step (hfits.result _ _ _ hkeys.derived hsealed)
        (fun input hread => pairWithServer_readResult hread
          (hsealed.openPayload hideal hfits.responseBytes).1 hfits.responseBytes) input
    rw [hstep]
    exact .accepted hkeys hsealed hanswered hserver
  | refusing hkeys hdiffer hserver =>
    exact client_waits rfl rfl (.refusing hkeys hdiffer hserver)
  | refused hkeys hdiffer hserver => exact client_waits rfl rfl (.refused hkeys hdiffer hserver)
  | rejected hkeys hdiffer hclient hserver =>
    obtain ⟨client', toClient', hstep, hanswered⟩ :=
      hclient.step (refusal_fits lib) (fun input hread => pairWithServer_refusal hread) input
    rw [hstep]
    exact .rejected hkeys hdiffer hanswered hserver

/-! ### The server's sections -/

/-- A section that takes no PIN, signs nothing and sends no record keeps this part of the
summary. -/
theorem summary_kept {pins certs : List String} {clients : List PairedClient}
    (did : PairingSummary) (hpins : did.pins = pins) (hcerts : did.certs = certs)
    (hclients : did.clients = clients) :
    did.pins = pins ∧ did.certs = certs ∧ did.clients = clients :=
  ⟨hpins, hcerts, hclients⟩

section Server

variable {phase phase' : PairingPhase lib} {manager manager' : PinManager}
  {pins pins' certs certs' : List String} {clients clients' : List PairedClient}

/-- A server that waits stays at its stage. -/
theorem Stage.server_waits (hserver : ServerAt server manager phase pins certs clients)
    (hreads : phase.reads = true) (h : Stage c m checked ⟨client, server, [], toClient⟩)
    {later : ℕ} {input : PairingInput lib} :
    Stage c m checked (step c ⟨client, server, [], toClient⟩ (.server later input)) := by
  have harrival : arrival phase.reads [] = none := by
    rw [hreads]
    exact arrival_nil
  rw [step_server_waits hserver harrival]
  exact h

/-- A server that does not wait comes to the stage with its next phase. -/
theorem Stage.server_moves (hserver : ServerAt server manager phase pins certs clients)
    {later : ℕ} {input : PairingInput lib} {read : Except ReadFailure (Option Message)}
    {rest : List UInt8} (harrival : arrival phase.reads toServer = some (read, rest))
    {observed : List PairingObs}
    (hresult : handlePairing c.config later { input with read := read, written := true } manager
      phase = ⟨manager', phase', observed⟩)
    {sent : List Message} (hsent : observed.filterMap PairingObs.written? = sent)
    (hdid : ∀ did : PairingSummary, did.pins = pins → did.certs = certs → did.clients = clients →
      (observed.foldl PairingSummary.add did).pins = pins' ∧
        (observed.foldl PairingSummary.add did).certs = certs' ∧
        (observed.foldl PairingSummary.add did).clients = clients')
    (hnext : ∀ {server'}, ServerAt server' manager' phase' pins' certs' clients' →
      Stage c m checked ⟨client, server', rest, toClient ++ writeFrames sent⟩) :
    Stage c m checked (step c ⟨client, server, toServer, toClient⟩ (.server later input)) := by
  obtain ⟨server', hstep, hserver'⟩ := step_server hserver harrival hresult hsent hdid
  rw [hstep]
  exact hnext hserver'

/-- A server that writes nothing leaves the bytes for the client as they are. -/
theorem Stage.server_silent (hserver : ServerAt server manager phase pins certs clients)
    {later : ℕ} {input : PairingInput lib} {read : Except ReadFailure (Option Message)}
    {rest : List UInt8} (harrival : arrival phase.reads toServer = some (read, rest))
    {observed : List PairingObs}
    (hresult : handlePairing c.config later { input with read := read, written := true } manager
      phase = ⟨manager', phase', observed⟩)
    (hsilent : observed.filterMap PairingObs.written? = [])
    (hdid : ∀ did : PairingSummary, did.pins = pins → did.certs = certs → did.clients = clients →
      (observed.foldl PairingSummary.add did).pins = pins' ∧
        (observed.foldl PairingSummary.add did).certs = certs' ∧
        (observed.foldl PairingSummary.add did).clients = clients')
    (hnext : ∀ {server'}, ServerAt server' manager' phase' pins' certs' clients' →
      Stage c m checked ⟨client, server', rest, toClient⟩) :
    Stage c m checked (step c ⟨client, server, toServer, toClient⟩ (.server later input)) := by
  refine server_moves hserver harrival hresult hsilent hdid fun hserver' => ?_
  rw [writeFrames_nil, List.append_nil]
  exact hnext hserver'

end Server

/-- The lock check lets the attempt through. -/
theorem handlePairing_checkLock {later : ℕ} (hlock : m.isLocked later = (false, checked))
    (config : PairingServerConfig) (input : PairingInput lib) :
    handlePairing config later input m .checkLock =
      ⟨checked, .readRequest, if m.lockedUntil = none then [] else [.lockExpired]⟩ := by
  simp only [handlePairing, hlock]
  rfl

/-- The lock check writes nothing. -/
theorem lockExpired_written : (if m.lockedUntil = none then [] else
    [PairingObs.lockExpired]).filterMap PairingObs.written? = [] := by
  split <;> rfl

/-- The lock check leaves the summary as it is. -/
theorem lockExpired_summary (did : PairingSummary) : (if m.lockedUntil = none then [] else
    [PairingObs.lockExpired]).foldl PairingSummary.add did = did := by
  split <;> rfl

/-- A client whose request was read has sent its SPAKE2 message next, if anything. -/
theorem ClientGreets.of_request {pending : List Message}
    (h : ClientGreets c client (request c :: pending)) :
    (client = .writeSpake ∧ pending = []) ∨ ∃ seed, client = .readSpake (lib.start c.pin seed).1 ∧
      pending = [.pairSpake (lib.start c.pin seed).2] := by
  cases h with
  | requested => exact .inl ⟨rfl, rfl⟩
  | waits seed => exact .inr ⟨seed, rfl, rfl⟩

/-- A greeting server checks the lock and reads the greetings of the client. -/
theorem Stage.server_greets (hfits : c.FitsFrames)
    (hlock : ∀ later, now ≤ later → m.isLocked later = (false, checked))
    {consumed pending : List Message} (hclient : ClientGreets c client (consumed ++ pending))
    (hserver : ServerGreets c m checked server consumed) {later : ℕ} (hlater : now ≤ later)
    {input : PairingInput lib} :
    Stage c m checked
      (step c ⟨client, server, writeFrames pending, []⟩ (.server later input)) := by
  cases hserver with
  | lock hserver =>
    refine .server_moves hserver (arrival_false _)
      (handlePairing_checkLock (hlock later hlater) _ _) lockExpired_written ?_
      fun hserver' => .greeting hclient (.request hserver')
    intro did hpins hcerts hclients
    rw [lockExpired_summary]
    exact ⟨hpins, hcerts, hclients⟩
  | request hserver =>
    cases hclient with
    | begins => exact .server_waits hserver rfl (.greeting .begins (.request hserver))
    | requested =>
      exact .server_moves hserver (arrival_writeFrames hfits.request []) rfl rfl summary_kept
        fun hserver' => .greeting .requested (.spake hserver')
    | waits seed =>
      exact .server_moves hserver (arrival_writeFrames hfits.request _) rfl rfl summary_kept
        fun hserver' => .greeting (.waits seed) (.spake hserver')
  | spake hserver =>
    rcases hclient.of_request with ⟨rfl, rfl⟩ | ⟨seed, rfl, rfl⟩
    · exact .server_waits hserver rfl (.greeting .requested (.spake hserver))
    · exact .server_moves hserver (arrival_writeFrames (hfits.spake _ _) []) rfl rfl summary_kept
        fun hserver' => .exchanging hserver'

/-- The server takes its PIN. -/
theorem Stage.server_takes {seed : lib.Seed}
    (hserver : ServerAt server checked (.takePin c.deviceName (lib.start c.pin seed).2) [] [] [])
    {later : ℕ} {input : PairingInput lib} :
    Stage c m checked (step c ⟨.readSpake (lib.start c.pin seed).1, server, [], []⟩
      (.server later input)) := by
  have hsent : ∀ pin generation, ((if checked.Expired later then
      [PairingObs.rotated generation] else []) ++ [PairingObs.tookPin pin generation]).filterMap
        PairingObs.written? = [] := by
    intro pin generation
    split <;> rfl
  refine .server_moves hserver (arrival_false _) rfl (hsent _ _) ?_
    fun hserver' => .taken rfl hserver'
  intro did hpins hcerts hclients
  have hrotated : ∀ rotated : List PairingObs, rotated = [] ∨ (∃ g, rotated = [.rotated g]) →
      rotated.foldl PairingSummary.add did = did := by
    rintro _ (rfl | ⟨_, rfl⟩) <;> rfl
  rw [List.foldl_append, hrotated _ (by split <;> simp)]
  exact ⟨congrArg (· ++ [_]) hpins, hcerts, hclients⟩

/-- The server has its key when its SPAKE2 message is written. -/
theorem handlePairing_writeSpake {now : ℕ} {x : PairingSession} {exchange : lib.Exchange}
    {spake : List UInt8} {key : lib.Key} {input : PairingInput lib}
    (hwritten : input.written = true)
    (hfinish : lib.finish exchange x.clientSpake = .ok key) :
    handlePairing c.config now input m (.writeSpake x exchange spake) =
      ⟨m, .readConfirm x key, [.wrote (.pairSpake spake)]⟩ := by
  simp only [handlePairing, hwritten, if_true, hfinish]

/-- The server opens the confirmation if its key is that of the client. -/
theorem handlePairing_openConfirm (hideal : IdealCrypto lib) {key : lib.Key}
    {plaintext nonce ciphertext : List UInt8} (hsealed : Sealed key plaintext nonce ciphertext)
    (hlength : plaintext.length ≤ maxPayloadSize.toNat) (key' : lib.Key) (now : ℕ)
    (x : PairingSession) (input : PairingInput lib) :
    (key = key' → handlePairing c.config now input m (.openConfirm x key' nonce ciphertext) =
      ⟨m, .sign x key plaintext, [.opened x.clientSpake x.pin true]⟩) ∧
    (key ≠ key' → handlePairing c.config now input m (.openConfirm x key' nonce ciphertext) =
      ⟨m, .countFailure .authentication, [.opened x.clientSpake x.pin false]⟩) := by
  obtain ⟨hopen, hother⟩ := hsealed.openPayload hideal hlength
  constructor
  · rintro rfl
    simp only [handlePairing, hopen]
  · intro hdiffer
    simp only [handlePairing, hother key' (Ne.symm hdiffer)]

/-- The server signs the request and seals the response. -/
theorem handlePairing_sign {key : lib.Key} {ciphertext : List UInt8} (input : PairingInput lib)
    (hlength : c.requestBytes.length ≤ maxPayloadSize.toNat)
    (hsealed : Sealed key c.responseBytes input.nonce.toList ciphertext) (now : ℕ)
    (x : PairingSession) :
    handlePairing c.config now input m (.sign x key c.requestBytes) =
      ⟨m, .writeResult c.deviceName c.fingerprint input.nonce.toList ciphertext,
        [.signed x.generation c.certPem]⟩ := by
  have hmax : maxPayloadSize.toNat = 16777216 := rfl
  have hdecode : ProvisionRequest.decode c.requestBytes = .ok ⟨c.csrPem, some c.deviceName⟩ :=
    ProvisionRequest.decode_encode (by
      rw [PairingCeremony.requestBytes] at hlength
      omega)
  have hencrypt := hsealed.encrypted
  rw [PairingCeremony.responseBytes] at hencrypt
  simp only [handlePairing, hdecode, c.signed, c.printed, hencrypt, Option.getD_some]

/-- The server counts the success and sends its record. -/
theorem Stage.server_records {key : lib.Key} {taken : PinManager} {nonce ciphertext : List UInt8}
    (hkeys : Exchanged c checked taken key key)
    (hsealed : Sealed key c.responseBytes nonce ciphertext)
    (hclient : Answered c key (.pairResult nonce ciphertext) (.ok (material c)) client toClient)
    (hserver : ServerSucceeds c taken server) {later : ℕ} {input : PairingInput lib} :
    Stage c m checked (step c ⟨client, server, [], toClient⟩ (.server later input)) := by
  cases hserver with
  | counting hserver =>
    exact .server_silent hserver (arrival_false _) rfl rfl summary_kept
      fun hserver' => .accepted hkeys hsealed hclient (.recording hserver')
  | recording hserver =>
    exact .server_silent hserver (arrival_false _) rfl rfl
      (fun _ hpins hcerts hclients => ⟨hpins, hcerts, congrArg (· ++ [_]) hclients⟩)
      fun hserver' => .accepted hkeys hsealed hclient (.done hserver')
  | done hserver =>
    exact .server_silent hserver (arrival_false _) rfl rfl summary_kept
      fun hserver' => .accepted hkeys hsealed hclient (.done hserver')

/-- A section of the server keeps the stage or takes the dialogue to the next. -/
theorem Stage.step_server (hideal : IdealCrypto lib) (hfits : c.FitsFrames)
    (hlock : ∀ later, now ≤ later → m.isLocked later = (false, checked))
    (h : Stage c m checked s) {later : ℕ} (hlater : now ≤ later) {input : PairingInput lib} :
    Stage c m checked (step c s (.server later input)) := by
  cases h with
  | greeting hclient hserver => exact server_greets hfits hlock hclient hserver hlater
  | exchanging hserver => exact server_takes hserver
  | @taken _ seed seed' at' fresh x hspake hserver =>
    obtain ⟨key, key', hkey, hkey', hagree⟩ :=
      hideal.agree c.pin (checked.currentPin at' fresh).pin seed seed'
    rw [← hspake] at hkey'
    exact .server_moves hserver (arrival_false _) (handlePairing_writeSpake rfl hkey') rfl
      summary_kept
      fun hserver' =>
        .keyed ⟨⟨at', fresh, rfl⟩, ⟨seed, _, hkey⟩, hagree⟩ hkey (hfits.spake _ _) hserver'
  | keyed hkeys hfinish hfit hserver =>
    exact .server_waits hserver rfl (.keyed hkeys hfinish hfit hserver)
  | confirming hkeys hsealed hserver =>
    exact .server_waits hserver rfl (.confirming hkeys hsealed hserver)
  | confirmed hkeys hsealed hserver =>
    exact .server_moves hserver (arrival_writeFrames
      (hfits.confirm _ _ _ hkeys.derived hsealed) []) rfl rfl summary_kept
      fun hserver' => .opening hkeys hsealed hserver'
  | @opening _ key key' taken x _ _ hkeys hsealed hserver =>
    obtain ⟨hopens, hfails⟩ := handlePairing_openConfirm (c := c) (m := taken) hideal hsealed
      hfits.requestBytes key' later x { input with read := .ok none, written := true }
    by_cases hsame : key = key'
    · subst hsame
      exact .server_moves hserver (arrival_false _) (hopens rfl) rfl summary_kept
        fun hserver' => .signing hkeys hserver'
    · exact .server_moves hserver (arrival_false _) (hfails hsame) rfl summary_kept
        fun hserver' => .refusing hkeys hsame hserver'
  | @signing _ key taken x hkeys hserver =>
    obtain ⟨ciphertext, hsealed⟩ := exists_sealed hideal key input.nonce hfits.responseBytes
    have hresult := handlePairing_sign (m := taken)
      { input with read := .ok none, written := true } hfits.requestBytes hsealed later x
    exact .server_moves hserver (arrival_false _) hresult rfl
      (fun _ hpins hcerts hclients => ⟨hpins, congrArg (· ++ [_]) hcerts, hclients⟩)
      fun hserver' => .answering hkeys hsealed hserver'
  | answering hkeys hsealed hserver =>
    exact .server_moves hserver (arrival_false _) rfl rfl summary_kept
      fun hserver' => .accepted hkeys hsealed .waits (.counting hserver')
  | accepted hkeys hsealed hclient hserver => exact server_records hkeys hsealed hclient hserver
  | refusing hkeys hdiffer hserver =>
    exact .server_moves hserver (arrival_false _) rfl rfl summary_kept
      fun hserver' => .refused hkeys hdiffer hserver'
  | refused hkeys hdiffer hserver =>
    exact .server_moves hserver (arrival_false _) rfl rfl summary_kept
      fun hserver' => .rejected hkeys hdiffer .waits hserver'
  | rejected hkeys hdiffer hclient hserver =>
    exact .server_silent hserver (arrival_false _) rfl rfl summary_kept
      fun hserver' => .rejected hkeys hdiffer hclient hserver'

end PairingDialogue

end SuperShare
