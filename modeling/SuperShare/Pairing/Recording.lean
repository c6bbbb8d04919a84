import SuperShare.Pairing.Attempts
import SuperShare.Pairing.Client

/-!
# Certificates and their records

`handle_pairing` signs, fingerprints, seals and writes, and only then rotates the PIN and sends
the record of the client. Each of these steps is left by its error. The main result says which
steps have to succeed so that every certificate that is signed is recorded.
-/

namespace SuperShare

variable {lib : PairingLib}

/-- The run is between signing and recording. -/
def PairingPhase.recording : PairingPhase lib → Bool
  | writeResult .. | countSuccess _ _ | sendPaired _ _ => true
  | _ => false

/-- Every certificate that was signed is recorded: the PIN was rotated to a later one than that of
the signature, and a client with the fingerprint of the certificate was sent. -/
def Recorded (lib : PairingLib) (trace : List PairingObs) : Prop :=
  ∀ generation certPem, .signed generation certPem ∈ trace →
    (∃ next, generation < next ∧ .rotated next ∈ trace) ∧
      ∃ client, .pairedSent client ∈ trace ∧
        lib.certFingerprint certPem = .ok client.certFingerprint

/-- A certificate that is signed can be fingerprinted and its response sealed, and the write of
the response reports success. -/
def RecordingSucceeds (config : PairingServerConfig) (r : PairingRun lib)
    (event : ℕ × PairingInput lib) : Prop :=
  match r.phase with
  | .sign _ key plaintext => ∀ provision certPem,
      ProvisionRequest.decode plaintext = .ok provision →
      lib.signClientCert config.caCertPem config.caKeyPem provision.csrPem = .ok certPem →
        (∃ fingerprint, lib.certFingerprint certPem = .ok fingerprint) ∧
          ∃ ciphertext, lib.encrypt key event.2.nonce.toList
            (encodeProvisionResponse certPem config.caCertPem) = .ok ciphertext
  | .writeResult .. => event.2.written = true
  | _ => True

/-- Neither a certificate was signed nor a client sent. -/
def Blank (trace : List PairingObs) : Prop :=
  ∀ o ∈ trace, (∀ generation certPem, o ≠ .signed generation certPem) ∧
    ∀ client, o ≠ .pairedSent client

/-- One certificate was signed, and no client sent. -/
def SignedOnce (lib : PairingLib) (generation : ℕ) (fingerprint : String)
    (trace : List PairingObs) : Prop :=
  ∃ before certPem after, trace = before ++ .signed generation certPem :: after ∧
    Blank before ∧ Blank after ∧ lib.certFingerprint certPem = .ok fingerprint

/-- What is known of a run by the section it stands at, while every certificate is recorded. -/
def RecordFacts (lib : PairingLib) (m : PinManager) (trace : List PairingObs) :
    PairingPhase lib → Prop
  | .writeSpake x _ _ | .readConfirm x _ | .openConfirm x _ _ _ | .sign x _ _ =>
      x.generation = m.generation ∧ Blank trace
  | .writeResult _ fingerprint _ _ | .countSuccess _ fingerprint =>
      SignedOnce lib m.generation fingerprint trace
  | .sendPaired _ fingerprint => ∃ generation, SignedOnce lib generation fingerprint trace ∧
      ∃ next, generation < next ∧ .rotated next ∈ trace
  | .done => Recorded lib trace
  | _ => Blank trace

/-- A certificate was signed, and its run has failed before it was recorded. -/
def Lost (r : PairingRun lib) : Prop :=
  ((∃ e, r.phase = .failed e) ∨ r.phase = .closed) ∧
    (∃ generation certPem, .signed generation certPem ∈ r.trace) ∧
      ∀ client, .pairedSent client ∉ r.trace

/-- A blank record stays blank with a blank addition. -/
theorem Blank.append {trace more : List PairingObs} (h : Blank trace) (hmore : Blank more) :
    Blank (trace ++ more) := by
  intro o ho
  rcases List.mem_append.mp ho with ho | ho
  · exact h o ho
  · exact hmore o ho

/-- No client was sent once a certificate was signed. -/
theorem SignedOnce.unsent {generation : ℕ} {fingerprint : String} {trace : List PairingObs}
    (h : SignedOnce lib generation fingerprint trace) (client : PairedClient) :
    .pairedSent client ∉ trace := by
  obtain ⟨before, certPem, after, rfl, hbefore, hafter, -⟩ := h
  intro hmem
  rcases List.mem_append.mp hmem with hmem | hmem
  · exact (hbefore _ hmem).2 client rfl
  · rcases List.mem_cons.mp hmem with hsigned | hmem
    · exact absurd hsigned (by simp)
    · exact (hafter _ hmem).2 client rfl

/-- The certificate that was signed is the only one. -/
theorem SignedOnce.eq {generation : ℕ} {fingerprint : String} {trace : List PairingObs}
    (h : SignedOnce lib generation fingerprint trace) {generation' : ℕ} {certPem : String}
    (hsigned : .signed generation' certPem ∈ trace) :
    generation' = generation ∧ lib.certFingerprint certPem = .ok fingerprint := by
  obtain ⟨before, certPem', after, rfl, hbefore, hafter, hfingerprint⟩ := h
  rcases List.mem_append.mp hsigned with hmem | hmem
  · exact absurd rfl ((hbefore _ hmem).1 _ _)
  · rcases List.mem_cons.mp hmem with hsame | hmem
    · obtain ⟨rfl, rfl⟩ := PairingObs.signed.inj hsame
      exact ⟨rfl, hfingerprint⟩
    · exact absurd rfl ((hafter _ hmem).1 _ _)

/-- A blank addition keeps what was signed. -/
theorem SignedOnce.append {generation : ℕ} {fingerprint : String} {trace more : List PairingObs}
    (h : SignedOnce lib generation fingerprint trace) (hmore : Blank more) :
    SignedOnce lib generation fingerprint (trace ++ more) := by
  obtain ⟨before, certPem, after, rfl, hbefore, hafter, hfingerprint⟩ := h
  exact ⟨before, certPem, after ++ more, by simp, hbefore, hafter.append hmore, hfingerprint⟩

/-- Nothing signed, nothing to record. -/
theorem Blank.recorded {trace : List PairingObs} (h : Blank trace) : Recorded lib trace := by
  intro generation certPem hsigned
  exact absurd rfl ((h _ hsigned).1 _ _)

variable {config : PairingServerConfig} {m : PinManager} {trace : List PairingObs}

/-- A section that may not lose a certificate keeps the facts. -/
theorem RecordFacts.step {phase : PairingPhase lib} (h : RecordFacts lib m trace phase) {now : ℕ}
    {input : PairingInput lib}
    (hok : RecordingSucceeds config ⟨m, phase, trace⟩ (now, input)) :
    RecordFacts lib (handlePairing config now input m phase).manager
      (trace ++ (handlePairing config now input m phase).observed)
      (handlePairing config now input m phase).phase := by
  cases phase with
  | checkLock =>
    simp only [handlePairing]
    split
    · exact h.append (by simp [Blank])
    · exact h.append (by split <;> simp [Blank])
  | readRequest =>
    simp only [handlePairing]
    split
    · exact h.append (by simp [Blank])
    · split
      · split <;> exact h.append (by simp [Blank])
      · exact h.append (by simp [Blank])
  | readSpake clientName =>
    simp only [handlePairing]
    split
    · exact h.append (by simp [Blank])
    · split <;> exact h.append (by simp [Blank])
  | takePin clientName clientSpake =>
    refine ⟨rfl, h.append ?_⟩
    simp only [handlePairing]
    split <;> simp [Blank]
  | writeSpake x exchange ourSpake =>
    simp only [handlePairing]
    split
    · split
      · exact h.2.append (by simp [Blank])
      · exact ⟨h.1, h.2.append (by simp [Blank])⟩
    · exact h.2.append (by simp [Blank])
  | readConfirm x key =>
    simp only [handlePairing]
    split
    · exact h.2.append (by simp [Blank])
    · split
      · exact ⟨h.1, h.2.append (by simp [Blank])⟩
      · exact h.2.append (by simp [Blank])
  | openConfirm x key nonce ciphertext =>
    simp only [handlePairing]
    split
    · exact h.2.append (by simp [Blank])
    · exact ⟨h.1, h.2.append (by simp [Blank])⟩
  | countFailure e => exact Blank.append h (by simp [handlePairing, Blank])
  | sign x key plaintext =>
    obtain ⟨hgeneration, hblank⟩ := h
    simp only [handlePairing]
    cases hdecode : ProvisionRequest.decode plaintext with
    | error kind =>
      rw [List.append_nil]
      exact hblank
    | ok provision =>
      cases hsign : lib.signClientCert config.caCertPem config.caKeyPem provision.csrPem with
      | error text =>
        simp only [hsign, List.append_nil]
        exact hblank
      | ok certPem =>
        obtain ⟨⟨fingerprint, hfingerprint⟩, ciphertext, hencrypt⟩ :=
          hok provision certPem hdecode hsign
        simp only [hsign, hfingerprint, hencrypt]
        exact ⟨trace, certPem, [], by rw [hgeneration], hblank, by simp [Blank], hfingerprint⟩
  | writeResult name fingerprint nonce ciphertext =>
    have hwritten : input.written = true := hok
    simp only [handlePairing, hwritten, if_true]
    exact SignedOnce.append h (by simp [Blank])
  | countSuccess name fingerprint =>
    refine ⟨m.generation, SignedOnce.append h (by simp [handlePairing, Blank]), m.generation + 1,
      by omega, ?_⟩
    simp [handlePairing]
  | sendPaired name fingerprint =>
    obtain ⟨generation, hsigned, next, hnext, hrotated⟩ := h
    intro generation' certPem hmem
    have hmem' : .signed generation' certPem ∈ trace := by simpa [handlePairing] using hmem
    obtain ⟨rfl, hfingerprint⟩ := hsigned.eq hmem'
    refine ⟨⟨next, hnext, List.mem_append_left _ hrotated⟩, ⟨name, fingerprint, input.unixTime⟩, ?_,
      hfingerprint⟩
    simp [handlePairing]
  | done => simpa [handlePairing, RecordFacts] using h
  | failed e =>
    simp only [handlePairing]
    split <;> exact Blank.append h (by simp [Blank])
  | closed => simpa [handlePairing, RecordFacts] using h

/-- A section that loses a certificate fails after the signature. -/
theorem RecordFacts.lost {phase : PairingPhase lib} (h : RecordFacts lib m trace phase) {now : ℕ}
    {input : PairingInput lib}
    (hfails : ¬ RecordingSucceeds config ⟨m, phase, trace⟩ (now, input)) :
    Lost (PairingRun.step config ⟨m, phase, trace⟩ (now, input)) := by
  cases phase with
  | sign x key plaintext =>
    obtain ⟨-, hblank⟩ := h
    simp only [RecordingSucceeds, not_forall] at hfails
    obtain ⟨provision, certPem, hdecode, hsign, hfails⟩ := hfails
    have hunsent : ∀ client, .pairedSent client ∉ trace ++ [.signed x.generation certPem] := by
      intro client hmem
      rcases List.mem_append.mp hmem with hmem | hmem
      · exact (hblank _ hmem).2 client rfl
      · exact absurd hmem (by simp)
    simp only [PairingRun.step, handlePairing, hdecode, hsign]
    cases hfingerprint : lib.certFingerprint certPem with
    | error text => exact ⟨.inl ⟨_, rfl⟩, ⟨x.generation, certPem, by simp⟩, hunsent⟩
    | ok fingerprint =>
      cases hencrypt : lib.encrypt key input.nonce.toList
          (encodeProvisionResponse certPem config.caCertPem) with
      | error text => exact ⟨.inl ⟨_, rfl⟩, ⟨x.generation, certPem, by simp⟩, hunsent⟩
      | ok ciphertext =>
        exact absurd ⟨⟨fingerprint, hfingerprint⟩, ciphertext, hencrypt⟩ hfails
  | writeResult name fingerprint nonce ciphertext =>
    have hwritten : input.written = false := Bool.eq_false_of_not_eq_true hfails
    have hunsent := SignedOnce.unsent h
    obtain ⟨before, certPem, after, rfl, -⟩ := h
    simp only [PairingRun.step, handlePairing, hwritten, Bool.false_eq_true, if_false,
      List.append_nil]
    exact ⟨.inl ⟨_, rfl⟩, ⟨m.generation, certPem, by simp⟩, hunsent⟩
  | _ => exact absurd trivial hfails

/-- A lost certificate stays lost. -/
theorem Lost.step {r : PairingRun lib} (h : Lost r) (event : ℕ × PairingInput lib) :
    Lost (r.step config event) := by
  obtain ⟨m, phase, trace⟩ := r
  obtain ⟨hphase, ⟨generation, certPem, hsigned⟩, hunsent⟩ := h
  rcases hphase with ⟨e, hphase⟩ | hphase
  · obtain rfl : phase = .failed e := hphase
    refine ⟨.inr rfl, ⟨generation, certPem, List.mem_append_left _ hsigned⟩, fun client hmem => ?_⟩
    rcases List.mem_append.mp hmem with hmem | hmem
    · exact hunsent client hmem
    · simp only [handlePairing] at hmem
      split at hmem <;> exact absurd hmem (by simp)
  · obtain rfl : phase = .closed := hphase
    refine ⟨.inr rfl, ⟨generation, certPem, List.mem_append_left _ hsigned⟩, fun client hmem => ?_⟩
    rcases List.mem_append.mp hmem with hmem | hmem
    · exact hunsent client hmem
    · exact absurd hmem List.not_mem_nil

/-- Where the facts hold every certificate is recorded, or about to be. -/
theorem RecordFacts.recorded {phase : PairingPhase lib} (h : RecordFacts lib m trace phase)
    (hsettled : phase.recording = false) : Recorded lib trace := by
  cases phase with
  | writeSpake | readConfirm | openConfirm | sign => exact h.2.recorded
  | writeResult | countSuccess | sendPaired =>
    exact absurd hsettled (by simp [PairingPhase.recording])
  | done => exact h
  | _ => exact Blank.recorded h

/-- A lost certificate is not recorded, and is not about to be. -/
theorem Lost.not_recorded {r : PairingRun lib} (h : Lost r) :
    ¬ (r.phase.recording = false → Recorded lib r.trace) := by
  obtain ⟨hphase, ⟨generation, certPem, hsigned⟩, hunsent⟩ := h
  intro hrecorded
  have hsettled : r.phase.recording = false := by
    rcases hphase with ⟨e, hphase⟩ | hphase <;> rw [hphase] <;> rfl
  obtain ⟨-, client, hsent, -⟩ := hrecorded hsettled generation certPem hsigned
  exact hunsent client hsent

/-- **Records of certificates.** Whatever the peer sends and whichever reads and writes fail, once
the run is not between signing and recording, every certificate that it has signed is followed by
a new PIN and the record of its fingerprint. This is so exactly if no signature was followed by a
failure to fingerprint the certificate, to seal the response, or to write it. -/
theorem recorded_iff_succeeds (config : PairingServerConfig) (m : PinManager)
    (events : List (ℕ × PairingInput lib)) :
    ((events.foldl (PairingRun.step config) (.start m)).phase.recording = false →
        Recorded lib (events.foldl (PairingRun.step config) (.start m)).trace) ↔
      Run.Along (PairingRun.step config) (RecordingSucceeds config) (.start m) events := by
  have hstart : RecordFacts lib m [] (.checkLock : PairingPhase lib) := by simp [RecordFacts, Blank]
  exact Run.foldl_iff_along
    (fun r : PairingRun lib => r.phase.recording = false → Recorded lib r.trace)
    (fun r => RecordFacts lib r.manager r.trace r.phase) Lost
    (fun r event hok h => h.step hok) (fun r event hfails h => h.lost hfails)
    (fun r event h => h.step event) (fun r h => h.recorded) (fun r h => h.not_recorded) hstart
    events

/-- The server signs, and the write of the result reports an error. The peer is told so. -/
def lateFailure : List (ℕ × PairingInput .symbolic) :=
  let spake := "123456".toList.map fun c => UInt8.ofNat c.toNat
  let provision := Bincode.encodeString "csr" ++ [0]
  ([.heartbeat, .pairRequest 1 "laptop", .pairSpake spake, .heartbeat, .heartbeat,
    .pairConfirm (List.replicate 12 0) provision, .heartbeat, .heartbeat].map
      fun msg => (0, symbolicInput msg)) ++
    [(0, { symbolicInput .heartbeat with written := false }), (0, symbolicInput .heartbeat)]

/-- A client that the bytes have reached before the write reports its error has a certificate that
the server has not recorded. -/
theorem lateFailure_not_recorded :
    let start : PairingRun .symbolic := .start (.withParams 180 5 60 0 123456)
    let r := lateFailure.foldl (PairingRun.step ⟨"ca", "key"⟩) start
    (r.phase.recording = false ∧ ¬ Recorded .symbolic r.trace) ∧
      ∃ name fingerprint nonce ciphertext,
        ((lateFailure.take 8).foldl (PairingRun.step ⟨"ca", "key"⟩) start).phase =
          .writeResult name fingerprint nonce ciphertext ∧
        ∀ input : ClientInput .symbolic, input.read = .ok (some (.pairResult nonce ciphertext)) →
          pairWithServer "123456" "laptop" input (.readResult
              ("123456", "123456".toList.map fun c => UInt8.ofNat c.toNat) "device key") =
            ⟨.returned (.ok ⟨"signed csr", "device key", "ca"⟩), []⟩ := by
  refine ⟨⟨rfl, ?_⟩, "laptop", "fingerprint of signed csr", List.replicate 12 0,
    encodeProvisionResponse "signed csr" "ca", rfl, ?_⟩
  · intro hrecorded
    have hsigned : PairingObs.signed 0 "signed csr" ∈ (lateFailure.foldl
        (PairingRun.step ⟨"ca", "key"⟩) (.start (.withParams 180 5 60 0 123456))).trace := by
      decide +kernel
    obtain ⟨⟨next, hnext, hrotated⟩, -⟩ := hrecorded 0 "signed csr" hsigned
    have hnone : ∀ o ∈ (lateFailure.foldl (PairingRun.step ⟨"ca", "key"⟩)
        (.start (.withParams 180 5 60 0 123456))).trace, o.neutral = true ∨
          o = .tookPin "123456" 0 ∨ o = .opened ("123456".toList.map fun c => UInt8.ofNat c.toNat)
            "123456" true ∨ o = .signed 0 "signed csr" := by
      decide +kernel
    rcases hnone _ hrotated with h | h | h | h <;> exact absurd h (by simp [PairingObs.neutral])
  · intro input hread
    have hopen : PairingLib.symbolic.openPayload
        ("123456", "123456".toList.map fun c => UInt8.ofNat c.toNat) (List.replicate 12 0)
        (encodeProvisionResponse "signed csr" "ca") =
          .ok (encodeProvisionResponse "signed csr" "ca") := by decide +kernel
    have hdecode : ProvisionResponse.decode (encodeProvisionResponse "signed csr" "ca") =
        .ok ⟨"signed csr", "ca"⟩ := by decide +kernel
    simp only [pairWithServer, hread, hopen, hdecode]
    rfl

end SuperShare
