import SuperShare.Pairing.Attempts

/-!
# One certificate for one PIN

An attempt signs under the PIN it took some waits earlier. The PIN is rotated when a success
is counted, after the result is written, or when it is found expired at the next use. When no
other attempt signs or succeeds between an attempt's taking the PIN and its signing, the PIN
was fresh when taken, and the attempt is faster than what was left of its time-to-live, then
the PIN is current when the certificate is signed, and no PIN is signed under twice.
-/

namespace SuperShare

variable {ι : Type} {lib : PairingLib}

/-- Observations that do not concern the PIN or what is signed under it. -/
def PairingObs.besidesPin : PairingObs → Bool
  | rotated _ | tookPin .. | signed .. | successCounted => false
  | _ => true

/-- A certificate was signed since the PIN was last rotated. -/
def signedSinceRotation : List (Option ι × PairingObs) → Bool
  | [] => false
  | (_, .signed ..) :: _ => true
  | (_, .rotated _) :: _ => false
  | _ :: history => signedSinceRotation history

/-- The generations of the PINs under which certificates were signed. -/
def signedGenerations : List (Option ι × PairingObs) → List ℕ
  | [] => []
  | (_, .signed generation _) :: history => generation :: signedGenerations history
  | _ :: history => signedGenerations history

namespace PairingServer

variable [DecidableEq ι]

/-- Since attempt `i` took its PIN nothing was signed and no success was counted, and what had
been signed before was followed by a rotation of the PIN before it was taken. -/
def undisturbed (i : ι) : List (Option ι × PairingObs) → Bool
  | [] => false
  | (j, .tookPin ..) :: history =>
      if j = some i then !signedSinceRotation history else undisturbed i history
  | (_, .signed ..) :: _ => false
  | (_, .successCounted) :: _ => false
  | _ :: history => undisturbed i history

/-- An attempt signs undisturbed, and within the time that was left to its PIN when it took
it. -/
def SignsAlone (config : PairingServerConfig) (s : PairingServer ι lib) :
    PairingEvent ι lib → Prop
  | .attempt i _ => ∀ x ∈ (s.phase i).signing config, undisturbed i s.history = true ∧
      s.clock - x.takenAt < s.manager.ttl - (x.takenAt - x.generatedAt)
  | .advance _ => True
  | .showPin _ => True

instance (config : PairingServerConfig) (s : PairingServer ι lib) :
    ∀ event, Decidable (SignsAlone config s event)
  | .attempt _ _ => inferInstanceAs (Decidable (∀ _ ∈ _, _))
  | .advance _ | .showPin _ => isTrue trivial

/-- The sessions that are undisturbed hold the current PIN unless it has expired, and nothing
was signed under it; what was signed was signed under different PINs. -/
structure Provisioned (s : PairingServer ι lib) : Prop where
  times : ∀ i, ∀ x ∈ (s.phase i).session, x.generatedAt ≤ x.takenAt ∧ x.takenAt ≤ s.clock
  generatedAt : s.manager.generatedAt ≤ s.clock
  current : ∀ i, ∀ x ∈ (s.phase i).session, undisturbed i s.history = true →
    (x.generation = s.manager.generation ∧ x.generatedAt = s.manager.generatedAt) ∨
      s.manager.ttl ≤ s.clock - x.generatedAt
  unsigned : ∀ i, ∀ x ∈ (s.phase i).session, undisturbed i s.history = true →
    ∀ g ∈ signedGenerations s.history, g < x.generation
  signed : ∀ g ∈ signedGenerations s.history, g ≤ s.manager.generation ∧
    (signedSinceRotation s.history = false → g < s.manager.generation)
  once : (signedGenerations s.history).Nodup

/-- A fresh manager has provisioned nothing. -/
theorem provisioned_start (ttl : ℕ) (maxFailures : UInt32) (lockout now : ℕ)
    (fresh : Fin 1000000) :
    Provisioned (start ttl maxFailures lockout now fresh : PairingServer ι lib) where
  times _ _ hx := absurd hx (by simp [start, PairingPhase.session])
  generatedAt := Nat.le_refl now
  current _ _ hx := absurd hx (by simp [start, PairingPhase.session])
  unsigned _ _ hx := absurd hx (by simp [start, PairingPhase.session])
  signed _ hg := absurd hg List.not_mem_nil
  once := List.nodup_nil

/-- Observations besides the PIN change nothing of what was signed under it. -/
theorem history_besidesPin {new : List (Option ι × PairingObs)}
    (hnew : ∀ e ∈ new, e.2.besidesPin = true) (history : List (Option ι × PairingObs)) :
    signedSinceRotation (new ++ history) = signedSinceRotation history ∧
      signedGenerations (new ++ history) = signedGenerations history ∧
      ∀ i, undisturbed i (new ++ history) = undisturbed i history := by
  induction new with
  | nil => exact ⟨rfl, rfl, fun _ => rfl⟩
  | cons e new ih =>
    obtain ⟨hsince, hgenerations, hundisturbed⟩ :=
      ih fun e he => hnew e (List.mem_cons_of_mem _ he)
    have he := hnew e List.mem_cons_self
    obtain ⟨j, o⟩ := e
    cases o <;> first
      | exact ⟨hsince, hgenerations, hundisturbed⟩
      | exact absurd he (by simp [PairingObs.besidesPin])

variable {s : PairingServer ι lib}

/-- The session of an attempt after one of them has moved. -/
theorem session_update {i j : ι} {phase : PairingPhase lib} {x : PairingSession}
    (hsession : phase.session = none ∨ phase.session = (s.phase i).session)
    (hx : x ∈ (Function.update s.phase i phase j).session) : x ∈ (s.phase j).session := by
  by_cases hj : j = i
  · subst hj
    rw [Function.update_self] at hx
    rcases hsession with hnone | hsame
    · rw [hnone] at hx
      exact absurd hx (by simp)
    · rwa [hsame] at hx
  · rwa [Function.update_of_ne hj] at hx

/-- A section that concerns neither the PIN nor what is signed under it. -/
theorem Provisioned.unrelated (h : Provisioned s) {i : ι} {result : PairingResult lib}
    (hgeneration : result.manager.generation = s.manager.generation)
    (hgeneratedAt : result.manager.generatedAt = s.manager.generatedAt)
    (httl : result.manager.ttl = s.manager.ttl)
    (hsession : result.phase.session = none ∨ result.phase.session = (s.phase i).session)
    (hbesides : ∀ o ∈ result.observed, o.besidesPin = true) :
    Provisioned (s.attempted i result) := by
  have hnew : ∀ e ∈ result.observed.reverse.map (fun o => (some i, o)),
      e.2.besidesPin = true := by
    intro e he
    obtain ⟨o, ho, rfl⟩ := List.mem_map.mp he
    exact hbesides o (List.mem_reverse.mp ho)
  obtain ⟨hsince, hgenerations, hundisturbed⟩ := history_besidesPin hnew s.history
  constructor
  · exact fun j x hx => h.times j x (session_update hsession hx)
  · exact Nat.le_trans (Nat.le_of_eq hgeneratedAt) h.generatedAt
  · intro j x hx hdone
    simp only [attempted, hgeneration, hgeneratedAt, httl]
    exact h.current j x (session_update hsession hx) ((hundisturbed j).symm.trans hdone)
  · intro j x hx hdone
    simp only [attempted, hgenerations]
    exact h.unsigned j x (session_update hsession hx) ((hundisturbed j).symm.trans hdone)
  · simp only [attempted, hgenerations, hsince, hgeneration]
    exact h.signed
  · simp only [attempted, hgenerations]
    exact h.once

/-- The PIN is used: it is rotated, in the name of `owner`, if it has expired. -/
def usePin (s : PairingServer ι lib) (owner : Option ι) (fresh : Fin 1000000) :
    PairingServer ι lib :=
  { s with
    manager := s.manager.currentPin s.clock fresh
    history :=
      if s.manager.Expired s.clock then
        (owner, .rotated (s.manager.currentPin s.clock fresh).generation) :: s.history
      else s.history }

/-- A rotation of an expired PIN leaves the sessions that hold it with an expired PIN. -/
theorem Provisioned.usePin (h : Provisioned s) (owner : Option ι) (fresh : Fin 1000000) :
    Provisioned (s.usePin owner fresh) := by
  unfold PairingServer.usePin PinManager.currentPin
  by_cases hexpired : s.manager.Expired s.clock
  · simp only [if_pos hexpired]
    refine ⟨h.times, ?_, ?_, h.unsigned, ?_, h.once⟩
    · rw [PinManager.rotate_generatedAt]
    · intro j x hx hdone
      refine .inr ?_
      rw [PinManager.rotate_ttl]
      rcases h.current j x hx hdone with ⟨-, hgeneratedAt⟩ | hold
      · rw [hgeneratedAt]
        exact hexpired
      · exact hold
    · intro g hg
      have hle := (h.signed g hg).1
      rw [PinManager.rotate_generation]
      exact ⟨Nat.le_succ_of_le hle, fun _ => Nat.lt_succ_of_le hle⟩
  · simp only [if_neg hexpired]
    exact h

/-- Nothing was signed under a PIN that has been rotated since. -/
theorem Provisioned.takePin (h : Provisioned s) {i : ι} {x : PairingSession}
    {phase : PairingPhase lib} (hphase : phase.session = some x)
    (hgeneration : x.generation = s.manager.generation)
    (hgeneratedAt : x.generatedAt = s.manager.generatedAt) (htaken : x.takenAt = s.clock)
    (pin : String) (generation : ℕ) :
    Provisioned { s with
      phase := Function.update s.phase i phase
      history := (some i, .tookPin pin generation) :: s.history } := by
  have hother : ∀ {j}, j ≠ i →
      undisturbed j ((some i, .tookPin pin generation) :: s.history) = undisturbed j s.history := by
    intro j hj
    rw [undisturbed, if_neg fun heq => hj (Option.some.inj heq).symm]
  have hsessions : ∀ j y, y ∈ (Function.update s.phase i phase j).session →
      (j = i ∧ y = x) ∨ (j ≠ i ∧ y ∈ (s.phase j).session) := by
    intro j y hy
    by_cases hj : j = i
    · subst hj
      rw [Function.update_self, hphase] at hy
      exact .inl ⟨rfl, (Option.some.inj hy).symm⟩
    · rw [Function.update_of_ne hj] at hy
      exact .inr ⟨hj, hy⟩
  refine ⟨?_, h.generatedAt, ?_, ?_, h.signed, h.once⟩
  · intro j y hy
    rcases hsessions j y hy with ⟨rfl, rfl⟩ | ⟨hj, hy⟩
    · rw [htaken, hgeneratedAt]
      exact ⟨h.generatedAt, Nat.le_refl _⟩
    · exact h.times j y hy
  · intro j y hy hdone
    rcases hsessions j y hy with ⟨rfl, rfl⟩ | ⟨hj, hy⟩
    · exact .inl ⟨hgeneration, hgeneratedAt⟩
    · exact h.current j y hy ((hother hj).symm.trans hdone)
  · intro j y hy hdone g hg
    rcases hsessions j y hy with ⟨rfl, rfl⟩ | ⟨hj, hy⟩
    · simp only [undisturbed, if_true, Bool.not_eq_true'] at hdone
      rw [hgeneration]
      exact (h.signed g hg).2 hdone
    · exact h.unsigned j y hy ((hother hj).symm.trans hdone) g hg

/-- An attempt that signs alone signs under the current PIN, in time. -/
theorem Provisioned.signs (h : Provisioned s) {i : ι} {x : PairingSession}
    (hx : x ∈ (s.phase i).session) (hundisturbed : undisturbed i s.history = true)
    (htime : s.clock - x.takenAt < s.manager.ttl - (x.takenAt - x.generatedAt)) :
    x.generation = s.manager.generation ∧ s.clock - x.generatedAt < s.manager.ttl := by
  obtain ⟨hgenerated, htaken⟩ := h.times i x hx
  have hyoung : s.clock - x.generatedAt < s.manager.ttl := by omega
  rcases h.current i x hx hundisturbed with ⟨hcurrent, -⟩ | hold
  · exact ⟨hcurrent, hyoung⟩
  · exact absurd hyoung (Nat.not_lt.mpr hold)

/-- What is signed is signed under a PIN under which nothing was. -/
theorem Provisioned.sign (h : Provisioned s) {i : ι} {x : PairingSession}
    {phase : PairingPhase lib} {certPem : String} (hx : x ∈ (s.phase i).session)
    (hsession : phase.session = none) (hundisturbed : undisturbed i s.history = true)
    (htime : s.clock - x.takenAt < s.manager.ttl - (x.takenAt - x.generatedAt)) :
    Provisioned (s.attempted i ⟨s.manager, phase, [.signed x.generation certPem]⟩) := by
  have hcurrent := (h.signs hx hundisturbed htime).1
  refine ⟨?_, h.generatedAt, ?_, ?_, ?_, ?_⟩
  · exact fun j y hy => h.times j y (session_update (.inl hsession) hy)
  · intro j y hy hdone
    simp [attempted, undisturbed] at hdone
  · intro j y hy hdone
    simp [attempted, undisturbed] at hdone
  · intro g hg
    refine ⟨?_, fun hsince => absurd hsince.symm Bool.false_ne_true⟩
    rcases List.mem_cons.mp hg with rfl | hg
    · exact Nat.le_of_eq hcurrent
    · exact (h.signed g hg).1
  · refine List.nodup_cons.mpr ⟨fun hmem => ?_, h.once⟩
    exact absurd (h.unsigned i x hx hundisturbed _ hmem) (Nat.lt_irrefl _)

/-- A success that is counted rotates the PIN. -/
theorem Provisioned.countSuccess (h : Provisioned s) {i : ι} {m : PinManager}
    {phase : PairingPhase lib} (hgeneration : m.generation = s.manager.generation + 1)
    (hgeneratedAt : m.generatedAt = s.clock) (hsession : phase.session = none) :
    Provisioned (s.attempted i ⟨m, phase, [.successCounted, .rotated m.generation]⟩) := by
  refine ⟨?_, Nat.le_of_eq hgeneratedAt, ?_, ?_, ?_, h.once⟩
  · exact fun j y hy => h.times j y (session_update (.inl hsession) hy)
  · intro j y hy hdone
    simp [attempted, undisturbed] at hdone
  · intro j y hy hdone
    simp [attempted, undisturbed] at hdone
  · intro g hg
    have hle := (h.signed g hg).1
    simp only [attempted, hgeneration]
    exact ⟨Nat.le_succ_of_le hle, fun _ => Nat.lt_succ_of_le hle⟩

/-- A section in which the attempt signs alone keeps the PINs apart. -/
theorem Provisioned.moves (h : Provisioned s) {i : ι} {phase : PairingPhase lib}
    {result : PairingResult lib} (hphase : s.phase i = phase)
    {config : PairingServerConfig} (hmove : PairingMoves config s.clock s.manager phase result)
    (halone : ∀ x ∈ phase.signing config, undisturbed i s.history = true ∧
      s.clock - x.takenAt < s.manager.ttl - (x.takenAt - x.generatedAt)) :
    Provisioned (s.attempted i result) := by
  cases hmove with
  | quiet hneutral _ _ hsession =>
    refine h.unrelated rfl rfl rfl (by rw [hphase]; exact hsession) fun o ho => ?_
    have := hneutral o ho
    cases o <;> first | rfl | exact absurd this (by simp [PairingObs.neutral])
  | @lockExpired m' _ hcheck =>
    have hm' : m' = (s.manager.isLocked s.clock).2 := by rw [hcheck]
    subst hm'
    exact h.unrelated (by simp) (by simp) (by simp) (.inl rfl) (by simp [PairingObs.besidesPin])
  | @takePin clientName clientSpake ourSpake exchange fresh hstart =>
    have hstate : ∀ (phase : PairingPhase lib) (o : PairingObs),
        s.attempted i ⟨s.manager.currentPin s.clock fresh, phase, (if s.manager.Expired s.clock then
          [.rotated (s.manager.currentPin s.clock fresh).generation] else []) ++ [o]⟩ =
        { s.usePin (some i) fresh with
          phase := Function.update s.phase i phase
          history := (some i, o) :: (s.usePin (some i) fresh).history } := by
      intro phase o
      unfold attempted PairingServer.usePin
      by_cases hexpired : s.manager.Expired s.clock
      · simp [hexpired]
      · simp [hexpired]
    rw [hstate]
    exact (h.usePin (some i) fresh).takePin rfl rfl rfl rfl _ _
  | opened _ =>
    exact h.unrelated rfl rfl rfl (.inr (by rw [hphase]; rfl)) (by simp [PairingObs.besidesPin])
  | notOpened _ => exact h.unrelated rfl rfl rfl (.inl rfl) (by simp [PairingObs.besidesPin])
  | countFailure =>
    exact h.unrelated (by simp) (by simp) (by simp) (.inl rfl) (by simp [PairingObs.besidesPin])
  | signed hsigning _ hsession' =>
    obtain ⟨hundisturbed, htime⟩ := halone _ hsigning
    exact h.sign (by rw [hphase]; rfl) hsession' hundisturbed htime
  | countSuccess => exact h.countSuccess rfl rfl rfl

/-- A step in which an attempt that signs does so alone keeps the PINs apart. -/
theorem Provisioned.step (h : Provisioned s) (config : PairingServerConfig)
    {event : PairingEvent ι lib} (halone : SignsAlone config s event) :
    Provisioned (s.step config event) := by
  cases event with
  | advance duration =>
    refine ⟨?_, Nat.le_add_right_of_le h.generatedAt, ?_, h.unsigned, h.signed, h.once⟩
    · intro i x hx
      exact ⟨(h.times i x hx).1, Nat.le_add_right_of_le (h.times i x hx).2⟩
    · intro i x hx hdone
      refine (h.current i x hx hdone).imp_right fun hold => ?_
      change s.manager.ttl ≤ s.clock + duration - x.generatedAt
      omega
  | showPin fresh => exact h.usePin none fresh
  | attempt i input =>
    exact h.moves rfl (moves_handlePairing config s.clock input s.manager _) halone

end PairingServer

/-- **One certificate for one PIN.** In every run in which each attempt signs alone, whenever
an attempt is about to sign, the PIN it took is the current one and younger than its
time-to-live, and the certificates signed are signed under different PINs. -/
theorem signed_under_current_pin [DecidableEq ι] (config : PairingServerConfig)
    {ttl lockout now : ℕ} {maxFailures : UInt32} {fresh : Fin 1000000}
    {before after : List (PairingEvent ι lib)}
    (halone : Run.Along (PairingServer.step config) (PairingServer.SignsAlone config)
      (.start ttl maxFailures lockout now fresh) (before ++ after)) :
    let start : PairingServer ι lib := .start ttl maxFailures lockout now fresh
    let s := before.foldl (PairingServer.step config) start
    let last := (before ++ after).foldl (PairingServer.step config) start
    (∀ i input, after.head? = some (.attempt i input) → ∀ x ∈ (s.phase i).signing config,
      x.generation = s.manager.generation ∧ s.clock - x.generatedAt < s.manager.ttl) ∧
      (signedGenerations last.history).Nodup := by
  intro start s last
  obtain ⟨hbefore, hafter⟩ := Run.along_append.mp halone
  have hs : s.Provisioned := hbefore.invariant PairingServer.Provisioned
    (fun s event hok h => h.step config hok)
    (PairingServer.provisioned_start ttl maxFailures lockout now fresh)
  have hlast : last.Provisioned := halone.invariant PairingServer.Provisioned
    (fun s event hok h => h.step config hok)
    (PairingServer.provisioned_start ttl maxFailures lockout now fresh)
  refine ⟨?_, hlast.once⟩
  intro i input hnext x hx
  obtain ⟨rest, rfl⟩ : ∃ rest, after = .attempt i input :: rest :=
    ⟨after.tail, (List.eq_cons_of_mem_head? hnext)⟩
  obtain ⟨hundisturbed, htime⟩ := hafter.1 x hx
  have hsession : x ∈ (s.phase i).session := PairingPhase.session_of_signing hx
  exact hs.signs hsession hundisturbed htime

/-- Two attempts that sign one after the other: the second takes the PIN that the first left. -/
theorem signed_under_current_pin_twice :
    let next (i : Fin 2) : PairingEvent (Fin 2) .symbolic := .attempt i (symbolicInput .heartbeat)
    let before := symbolicAttempt 0 "123456" ++ [next 0, next 0, next 0, next 0] ++
      symbolicAttempt 1 "654321" ++ [.advance 100, next 1]
    let start : PairingServer (Fin 2) .symbolic := .start 180 5 60 0 123456
    let last := (before ++ [next 1]).foldl (PairingServer.step ⟨"ca", "key"⟩) start
    signedGenerations last.history = [1, 0] ∧ (signedGenerations last.history).Nodup :=
  ⟨by decide +kernel, (signed_under_current_pin ⟨"ca", "key"⟩ (by decide +kernel)).2⟩

/-- Two attempts that overlap are both provisioned under one PIN: the second signs after the
first has rotated it. -/
theorem signed_twice_under_one_pin :
    let next (i : Fin 2) : PairingEvent (Fin 2) .symbolic := .attempt i (symbolicInput .heartbeat)
    let before := symbolicAttempt 0 "123456" ++ symbolicAttempt 1 "123456" ++
      [next 0, next 0, next 0, next 0, next 1]
    let start : PairingServer (Fin 2) .symbolic := .start 180 5 60 0 123456
    let s := before.foldl (PairingServer.step ⟨"ca", "key"⟩) start
    let last := (before ++ [next 1]).foldl (PairingServer.step ⟨"ca", "key"⟩) start
    (∃ x ∈ (s.phase 1).signing ⟨"ca", "key"⟩, x.generation ≠ s.manager.generation) ∧
      signedGenerations last.history = [0, 0] := by
  decide +kernel

end SuperShare
