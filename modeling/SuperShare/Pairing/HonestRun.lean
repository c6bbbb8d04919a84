import SuperShare.Clipboard.Limits
import SuperShare.Pairing.DialogueStages

/-!
# An honest pairing

Every dialogue of two honest sides can come to its end, and its end is a pairing if the PINs are
equal, and a refusal that is counted otherwise. The messages have to fit in frames: a device
name that is too long for one is refused before any PIN is used.
-/

namespace SuperShare

open Bincode

variable {lib : PairingLib}

namespace PairingDialogue

variable {c : PairingCeremony lib} {m checked : PinManager} {now : ℕ} {client : ClientPhase lib}
  {s : PairingDialogue lib}

/-- A dialogue that has started is at a stage. -/
theorem Stage.start (c : PairingCeremony lib) (m checked : PinManager) :
    Stage c m checked (start m) := by
  have hserver : ServerGreets c m checked (.start m) [] := .lock ⟨rfl, rfl, rfl, rfl, rfl⟩
  exact (Stage.greeting .begins hserver : Stage c m checked ⟨_, _, writeFrames [], []⟩)

/-- A greeting client has not returned. -/
theorem ClientGreets.not_returned {sent : List Message} (h : ClientGreets c client sent)
    {result : Except PairError PairedMaterial} : client ≠ .returned result := by
  cases h <;> simp

/-- A finished dialogue has taken a PIN. It has succeeded if this is the client's, and is refused
otherwise. -/
theorem Stage.outcome (hunlocked : checked.lockedUntil = none) (h : Stage c m checked s)
    (hfinished : Finished s) :
    ∃ later fresh, s.server.did.pins = [(checked.currentPin later fresh).pin] ∧
      (c.pin = (checked.currentPin later fresh).pin →
        Succeeded c (checked.currentPin later fresh) s) ∧
      (c.pin ≠ (checked.currentPin later fresh).pin →
        Refused checked (checked.currentPin later fresh) s) := by
  obtain ⟨⟨result, hreturned⟩, hended⟩ := hfinished
  cases h with
  | greeting hclient hserver => exact absurd hreturned hclient.not_returned
  | accepted hkeys hsealed hclient hserver =>
    obtain ⟨⟨at', fresh, rfl⟩, -, hagree⟩ := hkeys
    have hpin := hagree.mp rfl
    cases hclient with
    | waits => exact absurd hreturned (by simp)
    | returned =>
      cases hserver with
      | counting hserver => rw [hserver.phase] at hended; simp at hended
      | recording hserver => rw [hserver.phase] at hended; simp at hended
      | @done later fresh' unixTime hserver =>
        refine ⟨at', fresh, hserver.pins, fun _ => ?_, fun hne => absurd hpin hne⟩
        exact ⟨rfl, hserver.certs, ⟨unixTime, hserver.clients⟩, by rw [hserver.manager]; rfl,
          by rw [hserver.manager]; rfl, fresh', by rw [hserver.manager]; rfl,
          by rw [hserver.manager]; rfl⟩
  | rejected hkeys hdiffer hclient hserver =>
    obtain ⟨⟨at', fresh, rfl⟩, -, hagree⟩ := hkeys
    have hpin : c.pin ≠ (checked.currentPin at' fresh).pin := fun hpin => hdiffer (hagree.mpr hpin)
    cases hclient with
    | waits => exact absurd hreturned (by simp)
    | returned =>
      have hnone : (checked.currentPin at' fresh).lockedUntil = none := by simpa using hunlocked
      refine ⟨at', fresh, hserver.pins, fun hsame => absurd hsame hpin, fun _ => ?_⟩
      refine ⟨rfl, hserver.certs, hserver.clients, by simp [hserver.manager], ?_⟩
      rw [hserver.manager, PinManager.recordFailure_failures, PinManager.failures_succ _ hnone,
        PinManager.currentPin_failures]
  | _ => exact absurd hreturned (by simp)

end PairingDialogue

/-- Sections until the client has returned, at most. -/
def ClientPhase.remaining : ClientPhase lib → ℕ
  | writeRequest => 5
  | writeSpake => 4
  | readSpake _ => 3
  | writeConfirm .. => 2
  | readResult _ _ => 1
  | returned _ => 0

/-- Sections until the server is at its end, at most. -/
def PairingPhase.remaining : PairingPhase lib → ℕ
  | checkLock => 11
  | readRequest => 10
  | readSpake _ => 9
  | takePin _ _ => 8
  | writeSpake .. => 7
  | readConfirm _ _ => 6
  | openConfirm .. => 5
  | sign .. => 4
  | writeResult .. => 3
  | countSuccess _ _ | countFailure _ => 2
  | sendPaired _ _ | failed _ => 1
  | done | closed => 0

/-- Every section brings the client nearer to its end. -/
theorem pairWithServer_remaining (pin deviceName : String) (input : ClientInput lib)
    {phase : ClientPhase lib} (h : 0 < phase.remaining) :
    (pairWithServer pin deviceName input phase).phase.remaining < phase.remaining := by
  cases phase with
  | returned result => exact absurd h (Nat.lt_irrefl 0)
  | _ =>
    simp only [pairWithServer]
    repeat' split
    all_goals simp [ClientResult.return, ClientPhase.remaining]

/-- Every section brings the server nearer to its end. -/
theorem handlePairing_remaining (config : PairingServerConfig) (now : ℕ) (input : PairingInput lib)
    (m : PinManager) {phase : PairingPhase lib} (h : 0 < phase.remaining) :
    (handlePairing config now input m phase).phase.remaining < phase.remaining := by
  cases phase with
  | done | closed => exact absurd h (Nat.lt_irrefl 0)
  | _ =>
    simp only [handlePairing]
    repeat' split
    all_goals simp [PairingPhase.remaining]

namespace PairingDialogue

variable {c : PairingCeremony lib} {m checked : PinManager} {now : ℕ} {s : PairingDialogue lib}

/-- Sections until both sides are at their ends, at most. -/
def remaining (s : PairingDialogue lib) : ℕ := s.client.remaining + s.server.phase.remaining

/-- Without a section left both sides are at their ends. -/
theorem finished_of_remaining (h : s.remaining = 0) : Finished s := by
  obtain ⟨hclient, hserver⟩ : s.client.remaining = 0 ∧ s.server.phase.remaining = 0 :=
    Nat.add_eq_zero_iff.mp h
  constructor
  · cases hphase : s.client <;> rw [hphase] at hclient <;>
      first | exact ⟨_, rfl⟩ | exact absurd hclient (Nat.succ_ne_zero _)
  · cases hphase : s.server.phase <;> rw [hphase] at hserver <;>
      first | exact .inl rfl | exact .inr rfl | exact absurd hserver (Nat.succ_ne_zero _)

/-- The side can take a section that is not its last. -/
structure Ready (reads : Bool) (remaining : ℕ) (bytes : List UInt8) : Prop where
  arrived : ∃ read rest, arrival reads bytes = some (read, rest)
  remaining : 0 < remaining

/-- A section of a client that is ready. -/
theorem remaining_client (h : Ready s.client.reads s.client.remaining s.toClient)
    (c : PairingCeremony lib) (input : ClientInput lib) :
    (step c s (.client input)).remaining < s.remaining := by
  obtain ⟨⟨read, rest, harrival⟩, hpos⟩ := h
  have hless := pairWithServer_remaining c.pin c.deviceName
    { input with read := read, written := true } hpos
  simp only [step, harrival, remaining]
  omega

/-- A section of a server that is ready. -/
theorem remaining_server (h : Ready s.server.phase.reads s.server.phase.remaining s.toServer)
    (c : PairingCeremony lib) (now : ℕ) (input : PairingInput lib) :
    (step c s (.server now input)).remaining < s.remaining := by
  obtain ⟨⟨read, rest, harrival⟩, hpos⟩ := h
  have hless := handlePairing_remaining c.config now
    { input with read := read, written := true } s.server.manager hpos
  simp only [step, harrival, remaining, PairingRun.step]
  omega

/-- A side that does not read is ready before its end. -/
theorem ready_of_not_reads {reads : Bool} {remaining : ℕ} (hreads : reads = false)
    (hpos : 0 < remaining) (bytes : List UInt8) : Ready reads remaining bytes := by
  subst hreads
  exact ⟨⟨_, _, arrival_false bytes⟩, hpos⟩

/-- A side that has a frame to read is ready. -/
theorem ready_of_frame {reads : Bool} {remaining : ℕ} (hreads : reads = true)
    (hpos : 0 < remaining) {msg : Message} (hfit : msg.Fits) (pending : List Message) :
    Ready reads remaining (writeFrames (msg :: pending)) := by
  subst hreads
  exact ⟨⟨_, _, arrival_writeFrames hfit pending⟩, hpos⟩

/-- While the two sides greet each other one of them is ready. -/
theorem ClientGreets.progress {client : ClientPhase lib} {server : PairingRun lib}
    {consumed pending : List Message} (hclient : ClientGreets c client (consumed ++ pending))
    (hfits : c.FitsFrames) (hserver : ServerGreets c m checked server consumed) :
    Ready client.reads client.remaining [] ∨
      Ready server.phase.reads server.phase.remaining (writeFrames pending) := by
  cases hserver with
  | lock hserver =>
    rw [hserver.phase]
    exact .inr (ready_of_not_reads rfl (Nat.succ_pos _) _)
  | request hserver =>
    rw [hserver.phase]
    cases hclient with
    | begins => exact .inl (ready_of_not_reads rfl (Nat.succ_pos _) _)
    | requested => exact .inl (ready_of_not_reads rfl (Nat.succ_pos _) _)
    | waits seed => exact .inr (ready_of_frame rfl (Nat.succ_pos _) hfits.request _)
  | spake hserver =>
    rw [hserver.phase]
    rcases hclient.of_request with ⟨rfl, rfl⟩ | ⟨seed, rfl, rfl⟩
    · exact .inl (ready_of_not_reads rfl (Nat.succ_pos _) _)
    · exact .inr (ready_of_frame rfl (Nat.succ_pos _) (hfits.spake _ _) [])

/-- At every stage the dialogue is finished, or one of the sides is ready: neither waits for the
other for ever. -/
theorem Stage.progress (hfits : c.FitsFrames) (h : Stage c m checked s) :
    Finished s ∨ Ready s.client.reads s.client.remaining s.toClient ∨
      Ready s.server.phase.reads s.server.phase.remaining s.toServer := by
  have hserver_ready : ∀ {server : PairingRun lib} {manager : PinManager} {phase : PairingPhase lib}
      {pins certs : List String} {clients : List PairedClient} {bytes : List UInt8},
      ServerAt server manager phase pins certs clients → Ready phase.reads phase.remaining bytes →
        Ready server.phase.reads server.phase.remaining bytes := by
    intro server manager phase pins certs clients bytes hserver hready
    rw [hserver.phase]
    exact hready
  cases h with
  | greeting hclient hserver => exact .inr (hclient.progress hfits hserver)
  | exchanging hserver =>
    exact .inr (.inr (hserver_ready hserver (ready_of_not_reads rfl (Nat.succ_pos _) _)))
  | taken hspake hserver =>
    exact .inr (.inr (hserver_ready hserver (ready_of_not_reads rfl (Nat.succ_pos _) _)))
  | keyed hkeys hfinish hfit hserver =>
    exact .inr (.inl (ready_of_frame rfl (Nat.succ_pos _) hfit []))
  | confirming hkeys hsealed hserver =>
    exact .inr (.inl (ready_of_not_reads rfl (Nat.succ_pos _) _))
  | confirmed hkeys hsealed hserver =>
    exact .inr (.inr (hserver_ready hserver
      (ready_of_frame rfl (Nat.succ_pos _)
        (hfits.confirm _ _ _ hkeys.derived hsealed) [])))
  | opening hkeys hsealed hserver =>
    exact .inr (.inr (hserver_ready hserver (ready_of_not_reads rfl (Nat.succ_pos _) _)))
  | signing hkeys hserver =>
    exact .inr (.inr (hserver_ready hserver (ready_of_not_reads rfl (Nat.succ_pos _) _)))
  | answering hkeys hsealed hserver =>
    exact .inr (.inr (hserver_ready hserver (ready_of_not_reads rfl (Nat.succ_pos _) _)))
  | accepted hkeys hsealed hclient hserver =>
    cases hclient with
    | waits =>
      have hfit := hfits.result _ _ _ hkeys.derived hsealed
      exact .inr (.inl (ready_of_frame rfl (Nat.succ_pos _) hfit []))
    | returned =>
      cases hserver with
      | counting hserver =>
        exact .inr (.inr (hserver_ready hserver (ready_of_not_reads rfl (Nat.succ_pos _) _)))
      | recording hserver =>
        exact .inr (.inr (hserver_ready hserver (ready_of_not_reads rfl (Nat.succ_pos _) _)))
      | done hserver => exact .inl ⟨⟨_, rfl⟩, .inl hserver.phase⟩
  | refusing hkeys hdiffer hserver =>
    exact .inr (.inr (hserver_ready hserver (ready_of_not_reads rfl (Nat.succ_pos _) _)))
  | refused hkeys hdiffer hserver =>
    exact .inr (.inr (hserver_ready hserver (ready_of_not_reads rfl (Nat.succ_pos _) _)))
  | rejected hkeys hdiffer hclient hserver =>
    cases hclient with
    | waits => exact .inr (.inl (ready_of_frame rfl (Nat.succ_pos _) (refusal_fits lib) []))
    | returned => exact .inl ⟨⟨_, rfl⟩, .inr hserver.phase⟩

/-- From every stage the dialogue can be finished. -/
theorem Stage.exists_finished (hideal : IdealCrypto lib) (hfits : c.FitsFrames)
    (hlock : ∀ later, now ≤ later → m.isLocked later = (false, checked)) (seed : lib.Seed)
    (h : Stage c m checked s) :
    ∃ more : List (DialogueEvent lib),
      (∀ event ∈ more, Honest c now event) ∧ Finished (more.foldl (step c) s) := by
  induction hn : s.remaining using Nat.strong_induction_on generalizing s with
  | _ n ih =>
    have hnext : ∀ event, Honest c now event → Stage c m checked (step c s event) →
        (step c s event).remaining < s.remaining → ∃ more : List (DialogueEvent lib),
          (∀ event ∈ more, Honest c now event) ∧ Finished (more.foldl (step c) s) := by
      intro event hhonest hstage hless
      obtain ⟨more, hmore, hfinished⟩ := ih _ (hn ▸ hless) hstage rfl
      exact ⟨event :: more, List.forall_mem_cons.mpr ⟨hhonest, hmore⟩, hfinished⟩
    rcases h.progress hfits with hfinished | hclient | hserver
    · exact ⟨[], by simp, hfinished⟩
    · let input : ClientInput lib :=
        ⟨.ok none, true, seed, .ok (c.csrPem, c.keyPem), Vector.replicate 12 0⟩
      exact hnext (.client input) rfl (h.step_client hideal hfits rfl)
        (remaining_client hclient c input)
    · let input : PairingInput lib := ⟨.ok none, true, seed, 0, Vector.replicate 12 0, 0⟩
      exact hnext (.server now input) (Nat.le_refl now)
        (h.step_server hideal hfits hlock (Nat.le_refl now)) (remaining_server hserver c now input)

/-- A manager that is not locked is not locked later. -/
theorem isLocked_later (h : (m.isLocked now).1 = false) {later : ℕ} (hlater : now ≤ later) :
    m.isLocked later = (false, (m.isLocked now).2) := by
  unfold PinManager.isLocked at h ⊢
  cases hlocked : m.lockedUntil with
  | none => rfl
  | some t =>
    rw [hlocked] at h
    by_cases ht : now < t
    · simp [ht] at h
    · simp only [if_neg ht, if_neg (show ¬ later < t by omega)]

/-- Every honest section keeps the stage or takes the dialogue to the next. -/
theorem Stage.step (hideal : IdealCrypto lib) (hfits : c.FitsFrames)
    (hlock : ∀ later, now ≤ later → m.isLocked later = (false, checked))
    (h : Stage c m checked s) {event : DialogueEvent lib} (hhonest : Honest c now event) :
    Stage c m checked (step c s event) := by
  cases event with
  | client input => exact h.step_client hideal hfits hhonest
  | server later input => exact h.step_server hideal hfits hlock hhonest

/-- **An honest pairing.** Whatever the two PINs, the device name and the order of the sections,
an honest dialogue with a manager that is not locked can always be finished. When it is, one PIN
was taken. If the client has the same, it has its material, and exactly one client with its name
and the fingerprint of its certificate was sent, failures and lock are cleared and the PIN is
new. Otherwise the client is told so, nothing was signed, and the failure was counted. -/
theorem honest_finishes (hideal : IdealCrypto lib) (hfits : c.FitsFrames)
    (hunlocked : (m.isLocked now).1 = false) (seed : lib.Seed) {events : List (DialogueEvent lib)}
    (hhonest : ∀ event ∈ events, Honest c now event) :
    (∃ more : List (DialogueEvent lib), (∀ event ∈ more, Honest c now event) ∧
      Finished (more.foldl (step c) (events.foldl (step c) (start m)))) ∧
    (Finished (events.foldl (step c) (start m)) → ∃ later fresh,
      let taken := (m.isLocked now).2.currentPin later fresh
      (events.foldl (step c) (start m)).server.did.pins = [taken.pin] ∧
        (c.pin = taken.pin → Succeeded c taken (events.foldl (step c) (start m))) ∧
        (c.pin ≠ taken.pin →
          Refused (m.isLocked now).2 taken (events.foldl (step c) (start m)))) := by
  have hlock : ∀ later, now ≤ later → m.isLocked later = (false, (m.isLocked now).2) :=
    fun later hlater => isLocked_later hunlocked hlater
  have hstage : Stage c m (m.isLocked now).2 (events.foldl (step c) (start m)) :=
    List.foldlRecOn events (step c) (.start c m _)
      fun s h event hevent => h.step hideal hfits hlock (hhonest event hevent)
  exact ⟨hstage.exists_finished hideal hfits hlock seed,
    hstage.outcome (m.lockedUntil_of_isLocked now hunlocked)⟩

/-- A frame that is too large is not read. -/
theorem arrival_oversized {msg : Message} (hlarge : ¬ msg.Fits) (hlt : msg.encode.length < 2 ^ 32) :
    arrival true (writeFrames [msg]) =
      some (.error (.frame (.payloadTooLarge (UInt32.ofNat msg.encode.length))),
        msg.encode ++ []) := by
  have hread := readFrame_attempt_oversized hlarge hlt []
  rw [writeFrames_cons, writeFrames_nil, arrival, if_pos rfl, hread]
  rfl

/-- A device name too long for a frame is refused before any PIN is used: the server does not
read the request, and the client is told so. -/
theorem oversized_rejected (hlarge : ¬ (request c).Fits) (hlt : (request c).encode.length < 2 ^ 32)
    (hunlocked : (m.isLocked now).1 = false) (seed : lib.Seed)
    (hreason : (Message.pairError (lib.frameText
      (.payloadTooLarge (UInt32.ofNat (request c).encode.length)))).Fits) :
    ∃ events : List (DialogueEvent lib), (∀ event ∈ events, Honest c now event) ∧
      Finished (events.foldl (step c) (start m)) ∧
      (events.foldl (step c) (start m)).server.did.pins = [] ∧
      (events.foldl (step c) (start m)).client = .returned (.error (.rejected
        (lib.frameText (.payloadTooLarge (UInt32.ofNat (request c).encode.length))))) := by
  let input : ClientInput lib :=
    ⟨.ok none, true, seed, .ok (c.csrPem, c.keyPem), Vector.replicate 12 0⟩
  let input' : PairingInput lib := ⟨.ok none, true, seed, 0, Vector.replicate 12 0, 0⟩
  let reason := lib.frameText (.payloadTooLarge (UInt32.ofNat (request c).encode.length))
  have hlock : m.isLocked now = (false, (m.isLocked now).2) :=
    isLocked_later hunlocked (Nat.le_refl now)
  have hstart : ServerAt (.start m : PairingRun lib) m .checkLock [] [] [] :=
    ⟨rfl, rfl, rfl, rfl, rfl⟩
  -- The client sends its request, and the server finds the frame too large.
  have hfirst : step c (start m) (.client input) =
      ⟨.writeSpake, .start m, writeFrames [request c], []⟩ := rfl
  obtain ⟨server1, hsecond, hread⟩ : ∃ server1,
      step c ⟨.writeSpake, .start m, writeFrames [request c], []⟩ (.server now input') =
        ⟨.writeSpake, server1, writeFrames [request c], []⟩ ∧
      ServerAt server1 (m.isLocked now).2 .readRequest [] [] [] :=
    step_server hstart (arrival_false _) (handlePairing_checkLock hlock _ _) lockExpired_written
      fun did hpins hcerts hclients => by
        rw [lockExpired_summary]
        exact ⟨hpins, hcerts, hclients⟩
  obtain ⟨server2, hthird, hfailed⟩ : ∃ server2,
      step c ⟨.writeSpake, server1, writeFrames [request c], []⟩ (.server now input') =
        ⟨.writeSpake, server2, (request c).encode ++ [], []⟩ ∧
      ServerAt server2 (m.isLocked now).2 (.failed (.read (.frame
        (.payloadTooLarge (UInt32.ofNat (request c).encode.length))))) [] [] [] :=
    step_server hread (arrival_oversized hlarge hlt) rfl rfl summary_kept
  -- The server says so and ends, and the client reads it in place of a SPAKE2 message.
  obtain ⟨server3, hfourth, hclosed⟩ : ∃ server3,
      step c ⟨.writeSpake, server2, (request c).encode ++ [], []⟩ (.server now input') =
        ⟨.writeSpake, server3, (request c).encode ++ [], writeFrames [.pairError reason]⟩ ∧
      ServerAt server3 (m.isLocked now).2 .closed [] [] [] :=
    step_server hfailed (arrival_false _) rfl rfl summary_kept
  have hfifth : step c ⟨.writeSpake, server3, (request c).encode ++ [],
      writeFrames [.pairError reason]⟩ (.client input) = ⟨.readSpake (lib.start c.pin seed).1,
        server3, ((request c).encode ++ []) ++ writeFrames [.pairSpake (lib.start c.pin seed).2],
        writeFrames [.pairError reason]⟩ := rfl
  have harrival : arrival (ClientPhase.readSpake (lib.start c.pin seed).1).reads
      (writeFrames [.pairError reason]) = some (.ok (some (.pairError reason)), []) :=
    arrival_writeFrames hreason []
  have hsixth : step c ⟨.readSpake (lib.start c.pin seed).1, server3,
      ((request c).encode ++ []) ++ writeFrames [.pairSpake (lib.start c.pin seed).2],
      writeFrames [.pairError reason]⟩ (.client input) = ⟨.returned (.error (.rejected reason)),
        server3, (((request c).encode ++ []) ++
          writeFrames [.pairSpake (lib.start c.pin seed).2]) ++ writeFrames [], []⟩ :=
    step_client harrival rfl
  refine ⟨[.client input, .server now input', .server now input', .server now input',
    .client input, .client input], ?_, ?_⟩
  · simp [Honest, input]
  · simp only [List.foldl_cons, List.foldl_nil, hfirst, hsecond, hthird, hfourth, hfifth, hsixth]
    exact ⟨⟨⟨_, rfl⟩, .inr hclosed.phase⟩, hclosed.pins, rfl⟩

end PairingDialogue

/-- The ciphertext of a key's bytes: each is preceded by a one, and a zero ends them. -/
def tagged : List UInt8 → List UInt8 → List UInt8
  | [], plaintext => 0 :: plaintext
  | byte :: key, plaintext => 1 :: byte :: tagged key plaintext

/-- The plaintext, if the ciphertext has the bytes of the key. -/
def untagged : List UInt8 → List UInt8 → Option (List UInt8)
  | [], 0 :: plaintext => some plaintext
  | byte :: key, 1 :: byte' :: ciphertext => if byte = byte' then untagged key ciphertext else none
  | _, _ => none

/-- The key's own ciphertext opens. -/
theorem untagged_tagged (key plaintext : List UInt8) :
    untagged key (tagged key plaintext) = some plaintext := by
  induction key with
  | nil => rfl
  | cons byte key ih => rw [tagged, untagged, if_pos rfl, ih]

/-- Another key's ciphertext does not open. -/
theorem untagged_tagged_of_ne {key other : List UInt8} (hne : other ≠ key)
    (plaintext : List UInt8) : untagged other (tagged key plaintext) = none := by
  induction key generalizing other with
  | nil =>
    cases other with
    | nil => exact absurd rfl hne
    | cons byte other => rfl
  | cons byte key ih =>
    cases other with
    | nil => rfl
    | cons byte' other =>
      rw [tagged, untagged]
      by_cases hbyte : byte' = byte
      · rw [if_pos hbyte]
        exact ih fun hsame => hne (by rw [hbyte, hsame])
      · rw [if_neg hbyte]

/-- An ideal instance of the third-party functions: a key is the PIN it comes from, and a
ciphertext opens under the key whose bytes it starts with. -/
def PairingLib.ideal : PairingLib where
  Seed := Unit
  Exchange := String
  Key := String
  start pin _ := (pin, List.replicate 33 0)
  finish pin _ := .ok pin
  decrypt key _ ciphertext := untagged key.toByteArray.data.toList ciphertext
  encrypt key _ plaintext := .ok (tagged key.toByteArray.data.toList plaintext)
  signClientCert _ _ csrPem := .ok ("signed " ++ csrPem)
  certFingerprint certPem := .ok ("fingerprint of " ++ certPem)
  frameText _ := "Frame payload too large"
  ioText := "connection reset"
  bincodeText _ := "invalid payload"
  debugText _ := "another message"

/-- The instance is ideal. -/
theorem idealCrypto_ideal : IdealCrypto .ideal where
  agree pin pin' _ _ := ⟨pin, pin', rfl, rfl, Iff.rfl⟩
  seals key nonce plaintext _ := by
    refine ⟨_, rfl, untagged_tagged _ _, fun other hne => untagged_tagged_of_ne ?_ _⟩
    intro hsame
    exact hne (String.toByteArray_inj.mp (ByteArray.ext (Array.toList_inj.mp hsame)))

/-- A device of this name asks for a certificate with this PIN. -/
def idealCeremony (deviceName pin : String) : PairingCeremony .ideal where
  config := ⟨"ca", "key"⟩
  deviceName := deviceName
  pin := pin
  csrPem := "csr"
  keyPem := "device key"
  certPem := "signed csr"
  fingerprint := "fingerprint of signed csr"
  signed := by decide
  printed := by decide

/-- The messages of a device with a short name fit. -/
theorem idealCeremony_fits : (idealCeremony "laptop" "123456").FitsFrames where
  request := by decide +kernel
  spake pin seed := by
    have hspake : ((PairingLib.ideal.start pin seed).2).length = 33 := rfl
    simp only [Message.Fits, Message.encode, List.length_append, encodeU32_length,
      encodeVec_length, hspake]
    decide
  requestBytes := by decide +kernel
  confirm := by
    rintro key nonce ciphertext ⟨seed, spake, hkey⟩ ⟨hnonce, hsealed⟩
    obtain rfl : "123456" = key := Except.ok.inj hkey
    obtain rfl := Except.ok.inj hsealed
    simp only [Message.Fits, Message.encode, List.length_append, encodeU32_length,
      encodeVec_length, hnonce]
    decide +kernel
  responseBytes := by decide +kernel
  result := by
    rintro key nonce ciphertext ⟨seed, spake, hkey⟩ ⟨hnonce, hsealed⟩
    obtain rfl : "123456" = key := Except.ok.inj hkey
    obtain rfl := Except.ok.inj hsealed
    simp only [Message.Fits, Message.encode, List.length_append, encodeU32_length,
      encodeVec_length, hnonce]
    decide +kernel

namespace PairingDialogue

/-- A whole dialogue of a device: the client greets, the server answers, the client confirms, the
server signs, and the client has its result. -/
def laptopEvents : List (DialogueEvent .ideal) :=
  let client := DialogueEvent.client
    ⟨.ok none, true, (), .ok ("csr", "device key"), Vector.replicate 12 0⟩
  let server := DialogueEvent.server 0
    ⟨.ok none, true, (), ⟨654321, by decide⟩, Vector.replicate 12 0, 0⟩
  [client, client] ++ List.replicate 5 server ++ [client, client] ++ List.replicate 6 server ++
    [client]

/-- An honest dialogue with the PIN of the server. -/
theorem honest_finishes_laptop :
    ∃ later fresh, let taken := (PinManager.withParams 180 5 60 0 123456).currentPin later fresh
      (laptopEvents.foldl (step (idealCeremony "laptop" "123456"))
        (start (.withParams 180 5 60 0 123456))).server.did.pins = [taken.pin] ∧
        ("123456" = taken.pin → Succeeded (idealCeremony "laptop" "123456") taken
          (laptopEvents.foldl (step (idealCeremony "laptop" "123456"))
            (start (.withParams 180 5 60 0 123456)))) ∧
        ("123456" ≠ taken.pin → Refused (.withParams 180 5 60 0 123456) taken
          (laptopEvents.foldl (step (idealCeremony "laptop" "123456"))
            (start (.withParams 180 5 60 0 123456)))) := by
  have hunlocked : ((PinManager.withParams 180 5 60 0 123456).isLocked 0).1 = false := rfl
  have hhonest : ∀ event ∈ laptopEvents, Honest (idealCeremony "laptop" "123456") 0 event := by
    simp [laptopEvents, Honest, idealCeremony]
  have hremaining : (laptopEvents.foldl (step (idealCeremony "laptop" "123456"))
      (start (.withParams 180 5 60 0 123456))).remaining = 0 := by decide +kernel
  exact (honest_finishes idealCrypto_ideal idealCeremony_fits hunlocked () hhonest).2
    (finished_of_remaining hremaining)

/-- A device name of 16 MiB is refused, although the PIN is that of the server. -/
theorem longName_rejected :
    IdealCrypto .ideal ∧ ∃ events : List (DialogueEvent .ideal),
      let c := idealCeremony (letters 16777216) "123456"
      let m := PinManager.withParams 180 5 60 0 123456
      let s := events.foldl (step c) (start m)
      (∀ event ∈ events, Honest c 0 event) ∧ Finished s ∧ (m.isLocked 0).1 = false ∧
        c.pin = m.pin ∧ s.client = .returned (.error (.rejected "Frame payload too large")) := by
  have hname := length_utf8_letters 16777216
  rw [utf8] at hname
  generalize letters 16777216 = name at hname ⊢
  have hmax : maxPayloadSize.toNat = 16777216 := rfl
  have hlength : (request (idealCeremony name "123456")).encode.length = 16777229 := by
    simp only [request, idealCeremony, Message.encode, List.length_append, encodeU32_length,
      encodeString_length, hname]
    rfl
  have hlarge : ¬ (request (idealCeremony name "123456")).Fits := by
    rw [Message.Fits]
    omega
  have hunlocked : ((PinManager.withParams 180 5 60 0 123456).isLocked 0).1 = false := rfl
  have hreason : (Message.pairError "Frame payload too large").Fits := by decide +kernel
  obtain ⟨events, hhonest, hfinished, -, hclient⟩ :=
    oversized_rejected hlarge (by omega) hunlocked () hreason
  exact ⟨idealCrypto_ideal, events, hhonest, hfinished, hunlocked, rfl, hclient⟩

end PairingDialogue

end SuperShare
