import SuperShare.Session.Client

/-!
# The order of deliveries

The entry of a session and its deltas travel on two connections, and nothing orders the two. If
each delta is processed while the entry processed last is that of its session, the virtual cursor
is where the session has moved it from its entry. In another order an entry erases the deltas of
its session, or deltas move on from where an earlier session has left the cursor.
-/

namespace SuperShare

variable {α φ κ : Type}

/-- What the callback puts on the channel is an entry exactly when a session begins. -/
theorem emitted_isEnter [CursorNumber α φ] (lib : KeyLib κ) (c : CallbackState α)
    (input : CaptureInput α κ) :
    let outcome := (callback (φ := φ) lib c input).2
    ∀ e ∈ outcome.emitted, e.isEnter = outcome.switched := by
  intro outcome e he
  have hsent : ((c.checkExit input.exitRequested input.hasClient).handle (φ := φ) lib
      input.hasClient input.event).2.2 = some e := by
    simp only [outcome, callback] at he
    by_cases hroom : input.room = true
    · rwa [if_pos hroom] at he
    · rw [if_neg hroom] at he
      exact absurd he (by simp)
  rcases handle_cases (φ := φ) lib input.hasClient
    (c.checkExit input.exitRequested input.hasClient) input.event with
    ⟨hremote, -, -, hnone⟩ | ⟨-, -, -, hnone⟩ | ⟨hremote, -, hafter, -, enter, hsome, henter⟩
  · rw [hnone e hsent]
    simp [outcome, CaptureOutcome.switched, callback, hremote]
  · exact absurd (hnone.symm.trans hsent) (by simp)
  · obtain rfl := Option.some.inj (hsome.symm.trans hsent)
    rw [henter]
    simp [outcome, CaptureOutcome.switched, callback, hremote, hafter]

namespace RemoteSystem

/-- The entry or the delta that the client processes at an event, with its session. An entry has
no motion. -/
def processing (s : RemoteSystem α φ) : RemoteEvent α κ → Option (ℕ × Option (φ × φ))
  | .deliverControl =>
      match s.control with
      | (k, .boundaryEnter ..) :: _ => some (k, none)
      | _ => none
  | .deliverData =>
      match s.data with
      | (k, .mouseDelta dx dy) :: _ => some (k, some (dx, dy))
      | _ => none
  | .input .. | .forward | .deliverLeave => none

/-- Each delta is processed while the entry processed last is that of its session. -/
def DeltaAfterEntry (s : RemoteSystem α φ) (event : RemoteEvent α κ) : Prop :=
  ∀ p ∈ s.processing event, p.2.isSome = true → s.entered.head? = some p.1

instance (s : RemoteSystem α φ) (event : RemoteEvent α κ) : Decidable (s.DeltaAfterEntry event) :=
  inferInstanceAs (Decidable (∀ p ∈ s.processing event, _))

/-- The motions of a session that the client has processed, in order. -/
def motionsOf (s : RemoteSystem α φ) (k : ℕ) : List (φ × φ) :=
  (s.applied.filter fun a => a.1 = k).map Prod.snd

/-- All motions of a session, as they were captured. -/
def capturedMotions (s : RemoteSystem α φ) (k : ℕ) : List (φ × φ) :=
  (s.motions.filter fun a => a.1 = k).map Prod.snd

/-- The entry of a session and all its deltas have been processed. -/
def AllProcessed (s : RemoteSystem α φ) (k : ℕ) : Prop :=
  k ∈ s.entered ∧ ∀ a ∈ deltasOf (s.data ++ s.captured), a.1 ≠ k

/-- The sessions of the entries that are on their way to the client. -/
def pendingEntries (s : RemoteSystem α φ) : List ℕ :=
  ((s.control ++ s.captured).filter fun m => m.2.isEnter).map Prod.fst

section Reference

variable [NatCast φ] [Zero φ] [Add φ] [LinearOrder φ]

/-- Where motions lead from the entry of a session, applied one by one. -/
def trajectory (screen : ClientScreen) (s : RemoteSystem α φ) (k : ℕ)
    (motions : List (φ × φ)) : Option (φ × φ) :=
  (s.enterX k).map fun enterX =>
    motions.foldl (fun cursor delta => (screen.applyDelta cursor delta).1) (screen.enter enterX)

/-- Entries are on their way in the order of their sessions, and the cursor is where the session
entered last has moved it. -/
structure InOrder (screen : ClientScreen) (s : RemoteSystem α φ) : Prop where
  increasing : s.pendingEntries.Pairwise (· < ·)
  fresh : ∀ k ∈ s.pendingEntries, (∀ j ∈ s.entered.head?, j < k) ∧ k ≤ s.session
  begun : ∀ j ∈ s.entered.head?, j ≤ s.session
  columns : ∀ m ∈ s.control ++ s.captured, m.2.isEnter = true → s.enterX m.1 = m.2.enterColumn
  applied : ∀ a ∈ s.applied, ∃ j ∈ s.entered.head?, a.1 ≤ j
  cursor : ∀ k ∈ s.entered.head?, s.trajectory screen k (s.motionsOf k) = some s.cursor

variable [CursorNumber α φ]

/-- When the processing of an entry or a delta was the last of its session, the cursor is where
the deltas of the session lead from its entry. The client asks to return only at a delta at which
this computation reaches the left edge. -/
def CursorFaithful (lib : KeyLib κ) (screen : ClientScreen) (s : RemoteSystem α φ)
    (event : RemoteEvent α κ) : Prop :=
  let s' := s.step lib screen event
  ∀ k motion, s.processing event = some (k, motion) →
    (s'.AllProcessed k →
      s'.trajectory screen k (s'.capturedMotions k) = some s'.cursor) ∧
    (s'.leaves ≠ s.leaves → ∃ delta cursor, motion = some delta ∧
      s.trajectory screen k (s.motionsOf k) = some cursor ∧
      (screen.applyDelta cursor delta).2 = true)

end Reference

variable {screen : ClientScreen} {s : RemoteSystem α φ}

/-- The deltas captured are the ones that the client has processed, and then those on their
way. -/
def DeltasInOrder (s : RemoteSystem α φ) : Prop :=
  s.motions = s.applied ++ deltasOf (s.data ++ s.captured)

/-- Once all deltas of a session have been processed, its captured motions are the processed
ones. -/
theorem capturedMotions_eq (h : s.DeltasInOrder) {k : ℕ} (hall : s.AllProcessed k) :
    s.capturedMotions k = s.motionsOf k := by
  have hnone : (deltasOf (s.data ++ s.captured)).filter (fun a => decide (a.1 = k)) = [] := by
    rw [List.filter_eq_nil_iff]
    intro a ha
    simpa using hall.2 a ha
  rw [capturedMotions, h, List.filter_append, hnone, List.append_nil, motionsOf]

section Steps

variable [NatCast φ] [Zero φ] [Add φ] [LinearOrder φ]

/-- Everything is in order at the start. -/
theorem inOrder_start [CursorNumber α φ] (screenWidth screenHeight : UInt32)
    (screen : ClientScreen) :
    (start screenWidth screenHeight screen : RemoteSystem α φ).InOrder screen := by
  constructor
  · exact List.Pairwise.nil
  · intro k hk
    exact absurd hk (by simp [pendingEntries, start])
  · intro j hj
    exact absurd hj (by simp [start])
  · intro m hm
    exact absurd hm (by simp [start])
  · intro a ha
    exact absurd ha (by simp [start])
  · intro k hk
    exact absurd hk (by simp [start])

/-- What keeps the entries on their way, the client and the sessions keeps the order. -/
theorem InOrder.congr (h : s.InOrder screen) {s' : RemoteSystem α φ}
    (hpending : s'.pendingEntries = s.pendingEntries)
    (hentries : ∀ m ∈ s'.control ++ s'.captured, m.2.isEnter = true → m ∈ s.control ++ s.captured)
    (hsession : s'.session = s.session) (hcolumns : s'.enterX = s.enterX)
    (hentered : s'.entered = s.entered) (happlied : s'.applied = s.applied)
    (hcursor : s'.cursor = s.cursor) : s'.InOrder screen := by
  constructor
  · rw [hpending]
    exact h.increasing
  · rw [hpending, hentered, hsession]
    exact h.fresh
  · rw [hentered, hsession]
    exact h.begun
  · intro m hm hentry
    rw [hcolumns]
    exact h.columns m (hentries m hm hentry) hentry
  · rw [happlied, hentered]
    exact h.applied
  · intro k hk
    rw [hentered] at hk
    rw [hcursor, ← h.cursor k hk]
    simp only [trajectory, motionsOf, hcolumns, happlied]

/-- Forwarding keeps the entries on their way. -/
theorem InOrder.forward (h : s.InOrder screen) : s.forward.InOrder screen := by
  cases hcaptured : s.captured with
  | nil =>
    have hsame : s.forward = s := by simp only [RemoteSystem.forward, hcaptured]
    rwa [hsame]
  | cons m captured =>
    obtain ⟨k, e⟩ := m
    have hdropped : ∀ m ∈ s.control ++ captured, m ∈ s.control ++ s.captured := by
      intro m hm
      rw [hcaptured]
      simp only [List.mem_append, List.mem_cons] at hm ⊢
      tauto
    cases e with
    | boundaryEnter enterX enterY =>
      simp only [RemoteSystem.forward, hcaptured]
      refine h.congr ?_ ?_ rfl rfl rfl rfl rfl
      · simp [pendingEntries, hcaptured, WarpInputEvent.isEnter]
      · intro m hm _
        rw [hcaptured]
        simpa using hm
    | mouseDelta dx dy =>
      simp only [RemoteSystem.forward, hcaptured]
      refine h.congr ?_ (fun m hm _ => hdropped m hm) rfl rfl rfl rfl rfl
      simp [pendingEntries, hcaptured, WarpInputEvent.isEnter]
    | _ =>
      simp only [RemoteSystem.forward, hcaptured]
      split <;> refine h.congr ?_ (fun m hm _ => hdropped m hm) rfl rfl rfl rfl rfl <;>
        simp [pendingEntries, hcaptured, WarpInputEvent.isEnter]

/-- A delta processed after the entry of its session moves the cursor on from the entry. -/
theorem InOrder.deliverData (h : s.InOrder screen)
    (hdelta : s.DeltaAfterEntry (.deliverData : RemoteEvent α κ)) :
    (s.deliverData screen).InOrder screen := by
  cases hdata : s.data with
  | nil =>
    have hsame : s.deliverData screen = s := by simp only [RemoteSystem.deliverData, hdata]
    rwa [hsame]
  | cons m data =>
    obtain ⟨k, e⟩ := m
    cases e with
    | mouseDelta dx dy =>
      have hhead : s.entered.head? = some k :=
        hdelta (k, some (dx, dy)) (by simp [processing, hdata]) rfl
      simp only [RemoteSystem.deliverData, hdata]
      constructor
      · exact h.increasing
      · exact h.fresh
      · exact h.begun
      · exact h.columns
      · intro a ha
        rcases List.mem_append.mp ha with ha | ha
        · exact h.applied a ha
        · obtain rfl := List.mem_singleton.mp ha
          exact ⟨k, hhead, Nat.le_refl k⟩
      · intro j hj
        obtain rfl : k = j := Option.some.inj (hhead.symm.trans hj)
        obtain ⟨enterX, hcolumn, hfold⟩ := Option.map_eq_some_iff.mp (h.cursor k hhead)
        have hmotions : ((s.applied ++ [(k, (dx, dy))]).filter fun a => decide (a.1 = k)).map
            Prod.snd = s.motionsOf k ++ [(dx, dy)] := by
          simp [motionsOf, List.filter_append]
        refine Option.map_eq_some_iff.mpr ⟨enterX, hcolumn, ?_⟩
        rw [motionsOf, hmotions, List.foldl_append, hfold]
        rfl
    | _ =>
      simp only [RemoteSystem.deliverData, hdata]
      exact h.congr rfl (fun m hm _ => hm) rfl rfl rfl rfl rfl

/-- An entry puts the cursor where its session starts. -/
theorem InOrder.deliverControl (h : s.InOrder screen) :
    (s.deliverControl screen).InOrder screen := by
  cases hcontrol : s.control with
  | nil =>
    have hsame : s.deliverControl screen = s := by
      simp only [RemoteSystem.deliverControl, hcontrol]
    rwa [hsame]
  | cons m control =>
    obtain ⟨k, e⟩ := m
    have hdropped : ∀ m ∈ control ++ s.captured, m ∈ s.control ++ s.captured := by
      intro m hm
      rw [hcontrol]
      exact List.mem_cons_of_mem _ hm
    cases e with
    | boundaryEnter enterX enterY =>
      have hpending : s.pendingEntries =
          k :: ((control ++ s.captured).filter fun m => m.2.isEnter).map Prod.fst := by
        simp [pendingEntries, hcontrol, WarpInputEvent.isEnter]
      obtain ⟨hlater, hincreasing⟩ := List.pairwise_cons.mp (hpending ▸ h.increasing)
      obtain ⟨hearlier, hbegun⟩ := h.fresh k (by rw [hpending]; exact List.mem_cons_self)
      have hcolumn : s.enterX k = some enterX :=
        h.columns (k, .boundaryEnter enterX enterY) (by simp [hcontrol]) rfl
      simp only [RemoteSystem.deliverControl, hcontrol]
      constructor
      · exact hincreasing
      · intro j hj
        refine ⟨fun i hi => ?_, (h.fresh j ?_).2⟩
        · obtain rfl := Option.some.inj hi
          exact hlater j hj
        · rw [hpending]
          exact List.mem_cons_of_mem _ hj
      · intro j hj
        obtain rfl := Option.some.inj hj
        exact hbegun
      · intro m hm
        exact h.columns m (hdropped m hm)
      · intro a ha
        obtain ⟨j, hj, hle⟩ := h.applied a ha
        have hlt := hearlier j hj
        exact ⟨k, rfl, by omega⟩
      · intro j hj
        obtain rfl := Option.some.inj hj
        have hmotions : s.motionsOf k = [] := by
          have hnone : s.applied.filter (fun a => decide (a.1 = k)) = [] := by
            rw [List.filter_eq_nil_iff]
            intro a ha
            obtain ⟨j, hj, hle⟩ := h.applied a ha
            have hlt := hearlier j hj
            have hne : a.1 ≠ k := by omega
            simpa using hne
          rw [motionsOf, hnone, List.map_nil]
        refine Option.map_eq_some_iff.mpr ⟨enterX, hcolumn, ?_⟩
        exact congrArg (List.foldl _ _) hmotions
    | _ =>
      simp only [RemoteSystem.deliverControl, hcontrol]
      refine h.congr ?_ (fun m hm _ => hdropped m hm) rfl rfl rfl rfl rfl
      simp [pendingEntries, hcontrol, WarpInputEvent.isEnter]

/-- What is captured in a session is no entry. -/
theorem InOrder.captureQuiet (h : s.InOrder screen) {callback : CallbackState α}
    {messages : List (ℕ × WarpInputEvent φ)} {motions : List (ℕ × (φ × φ))}
    (hquiet : ∀ m ∈ messages, m.2.isEnter = false) :
    ({ s with
      callback := callback, exitRemote := false, captured := s.captured ++ messages
      motions := motions, setters := [] } : RemoteSystem α φ).InOrder screen := by
  refine h.congr ?_ ?_ rfl rfl rfl rfl rfl
  · have hnone : messages.filter (fun m => m.2.isEnter) = [] := by
      rw [List.filter_eq_nil_iff]
      intro m hm
      simp [hquiet m hm]
    simp only [pendingEntries, ← List.append_assoc, List.filter_append, hnone, List.append_nil]
  · intro m hm hentry
    rw [← List.append_assoc] at hm
    rcases List.mem_append.mp hm with hm | hm
    · exact hm
    · exact absurd ((hquiet m hm).symm.trans hentry) (by simp)

/-- The entry of the next session, if there is room for it, is the newest one on its way. -/
theorem InOrder.captureEntry (h : s.InOrder screen) {callback : CallbackState α}
    {entry : Option (WarpInputEvent φ)} {motions : List (ℕ × (φ × φ))} :
    ({ s with
      callback := callback, exitRemote := false
      captured := s.captured ++ (entry.map fun e => (s.session + 1, e)).toList
      session := s.session + 1
      enterX := Function.update s.enterX (s.session + 1) (entry.bind WarpInputEvent.enterColumn)
      motions := motions, setters := [] } : RemoteSystem α φ).InOrder screen := by
  have hcolumns : ∀ k, k ≤ s.session → Function.update s.enterX (s.session + 1)
      (entry.bind WarpInputEvent.enterColumn) k = s.enterX k := by
    intro k hk
    exact Function.update_of_ne (by omega) _ _
  have hentry : ∀ m ∈ (entry.map fun e => (s.session + 1, e)).toList,
      m.1 = s.session + 1 ∧ entry = some m.2 := by
    intro m hm
    obtain ⟨e, he, rfl⟩ := Option.map_eq_some_iff.mp (Option.mem_toList.mp hm)
    exact ⟨rfl, he⟩
  have hpending : ∀ k ∈ ((entry.map fun e => (s.session + 1, e)).toList.filter
      fun m => m.2.isEnter).map Prod.fst, k = s.session + 1 := by
    intro k hk
    obtain ⟨m, hm, rfl⟩ := List.mem_map.mp hk
    exact (hentry m (List.mem_of_mem_filter hm)).1
  have hsplit : ((s.control ++ (s.captured ++
      (entry.map fun e => (s.session + 1, e)).toList)).filter fun m => m.2.isEnter).map Prod.fst =
      s.pendingEntries ++ ((entry.map fun e => (s.session + 1, e)).toList.filter
        fun m => m.2.isEnter).map Prod.fst := by
    rw [← List.append_assoc, List.filter_append, List.map_append]
    rfl
  constructor
  · rw [pendingEntries, hsplit, List.pairwise_append]
    refine ⟨h.increasing, ?_, ?_⟩
    · cases entry with
      | none => exact List.Pairwise.nil
      | some e => cases hkind : e.isEnter <;> simp [hkind]
    · intro j hj k hk
      rw [hpending k hk]
      exact Nat.lt_succ_of_le (h.fresh j hj).2
  · intro k hk
    rw [pendingEntries, hsplit] at hk
    rcases List.mem_append.mp hk with hk | hk
    · obtain ⟨hlater, hbegun⟩ := h.fresh k hk
      exact ⟨hlater, Nat.le_succ_of_le hbegun⟩
    · rw [hpending k hk]
      exact ⟨fun j hj => Nat.lt_succ_of_le (h.begun j hj), Nat.le_refl _⟩
  · intro j hj
    exact Nat.le_succ_of_le (h.begun j hj)
  · intro m hm hkind
    rw [← List.append_assoc] at hm
    rcases List.mem_append.mp hm with hm | hm
    · have hmem : m.1 ∈ s.pendingEntries :=
        List.mem_map.mpr ⟨m, List.mem_filter.mpr ⟨hm, hkind⟩, rfl⟩
      exact (hcolumns m.1 (h.fresh m.1 hmem).2).trans (h.columns m hm hkind)
    · obtain ⟨hnumber, hsome⟩ := hentry m hm
      rw [hnumber]
      refine (Function.update_self (s.session + 1) _ s.enterX).trans ?_
      rw [hsome]
      rfl
  · exact h.applied
  · intro k hk
    obtain ⟨enterX, hcolumn, hfold⟩ := Option.map_eq_some_iff.mp (h.cursor k hk)
    refine Option.map_eq_some_iff.mpr ⟨enterX, ?_, hfold⟩
    exact (hcolumns k (h.begun k hk)).trans hcolumn

/-- What the callback captures is in order. -/
theorem InOrder.capture [CursorNumber α φ] (h : s.InOrder screen) (lib : KeyLib κ)
    (event : EventType α κ) (hasClient room : Bool) :
    (s.capture lib event hasClient room).InOrder screen := by
  have henter := emitted_isEnter (φ := φ) lib s.callback ⟨event, s.exitRemote, hasClient, room⟩
  simp only [RemoteSystem.capture]
  generalize (SuperShare.callback (φ := φ) lib s.callback
    ⟨event, s.exitRemote, hasClient, room⟩).2 = outcome at henter ⊢
  cases hswitched : outcome.switched with
  | false =>
    refine h.captureQuiet ?_
    intro m hm
    obtain ⟨e, he, rfl⟩ := Option.map_eq_some_iff.mp (Option.mem_toList.mp hm)
    exact (henter e he).trans hswitched
  | true => exact h.captureEntry

variable [CursorNumber α φ]

/-- An event that processes no delta before its entry keeps everything in order. -/
theorem InOrder.step (h : s.InOrder screen) (lib : KeyLib κ) {event : RemoteEvent α κ}
    (hdelta : s.DeltaAfterEntry event) : (s.step lib screen event).InOrder screen := by
  cases event with
  | input event hasClient room => exact h.capture lib event hasClient room
  | forward => exact h.forward
  | deliverControl => exact h.deliverControl
  | deliverData => exact h.deliverData hdelta
  | deliverLeave =>
    simp only [RemoteSystem.step, RemoteSystem.deliverLeave]
    split
    · exact h
    · exact h.congr rfl (fun m hm _ => hm) rfl rfl rfl rfl rfl

/-- Every event keeps the deltas in order. -/
theorem DeltasInOrder.step (h : s.DeltasInOrder) (lib : KeyLib κ) (screen : ClientScreen)
    (event : RemoteEvent α κ) : (s.step lib screen event).DeltasInOrder := by
  unfold DeltasInOrder at h ⊢
  cases event with
  | input event hasClient room =>
    simp only [RemoteSystem.step, RemoteSystem.capture]
    rw [h, ← List.append_assoc, deltasOf_append (s.data ++ s.captured), List.append_assoc]
  | forward =>
    simp only [RemoteSystem.step, RemoteSystem.forward]
    split
    · exact h
    · rename_i k e captured hcaptured
      rw [hcaptured] at h
      cases e with
      | boundaryEnter | mouseDelta =>
        simpa [deltasOf_append, deltasOf, WarpInputEvent.motion] using h
      | _ =>
        by_cases hremote : s.callback.isRemote = true <;>
          simpa [hremote, deltasOf_append, deltasOf, WarpInputEvent.motion] using h
  | deliverControl =>
    simp only [RemoteSystem.step, RemoteSystem.deliverControl]
    split <;> exact h
  | deliverData =>
    simp only [RemoteSystem.step, RemoteSystem.deliverData]
    split
    · exact h
    · rename_i k dx dy data hdata
      rw [hdata] at h
      simpa [deltasOf, WarpInputEvent.motion] using h
    · rename_i m data hother hdata
      rw [hdata] at h
      obtain ⟨k, e⟩ := m
      cases e with
      | mouseDelta dx dy => exact absurd rfl (hother k dx dy)
      | _ => simpa [deltasOf, WarpInputEvent.motion] using h
  | deliverLeave =>
    simp only [RemoteSystem.step, RemoteSystem.deliverLeave]
    split <;> exact h

/-- The session of what was processed is the one entered last. -/
theorem head?_of_processing (lib : KeyLib κ) (screen : ClientScreen) {event : RemoteEvent α κ}
    (hdelta : s.DeltaAfterEntry event) {k : ℕ} {motion : Option (φ × φ)}
    (h : s.processing event = some (k, motion)) :
    (s.step lib screen event).entered.head? = some k := by
  cases event with
  | deliverControl =>
    simp only [RemoteSystem.step, RemoteSystem.deliverControl]
    simp only [processing] at h
    split at h
    · rename_i k' enterX enterY control hcontrol
      obtain ⟨rfl, -⟩ := Prod.mk.inj (Option.some.inj h)
      rw [hcontrol]
      rfl
    · exact absurd h (by simp)
  | deliverData =>
    have hhead := hdelta (k, motion) h
    simp only [RemoteSystem.step, RemoteSystem.deliverData]
    simp only [processing] at h
    split at h
    · rename_i k' dx dy data hdata
      obtain ⟨rfl, rfl⟩ := Prod.mk.inj (Option.some.inj h)
      rw [hdata]
      exact hhead rfl
    · exact absurd h (by simp)
  | _ => exact absurd h (by simp [processing])

/-- A request to return is caused by a delta that hits the left edge. -/
theorem hitLeft_of_leaves_ne (lib : KeyLib κ) (screen : ClientScreen) {event : RemoteEvent α κ}
    {k : ℕ} {motion : Option (φ × φ)} (h : s.processing event = some (k, motion))
    (hleaves : (s.step lib screen event).leaves ≠ s.leaves) :
    event = .deliverData ∧
      ∃ delta, motion = some delta ∧ (screen.applyDelta s.cursor delta).2 = true := by
  cases event with
  | deliverControl =>
    simp only [RemoteSystem.step, RemoteSystem.deliverControl] at hleaves
    split at hleaves <;> exact absurd rfl hleaves
  | deliverData =>
    refine ⟨rfl, ?_⟩
    simp only [processing] at h
    split at h
    · rename_i k' dx dy data hdata
      obtain ⟨rfl, rfl⟩ := Prod.mk.inj (Option.some.inj h)
      refine ⟨(dx, dy), rfl, ?_⟩
      by_contra hinside
      simp [RemoteSystem.step, RemoteSystem.deliverData, hdata, hinside] at hleaves
    · exact absurd h (by simp)
  | _ => exact absurd h (by simp [processing])

/-- In order, a delta processed after its entry is faithful, and so is an entry. -/
theorem InOrder.faithful (h : s.InOrder screen) (hdeltas : s.DeltasInOrder) (lib : KeyLib κ)
    {event : RemoteEvent α κ} (hdelta : s.DeltaAfterEntry event) :
    s.CursorFaithful lib screen event := by
  intro k motion hprocessing
  constructor
  · intro hall
    rw [capturedMotions_eq (hdeltas.step lib screen event) hall]
    exact (h.step lib hdelta).cursor k (head?_of_processing lib screen hdelta hprocessing)
  · intro hleaves
    obtain ⟨rfl, delta, rfl, hhit⟩ := hitLeft_of_leaves_ne lib screen hprocessing hleaves
    exact ⟨delta, s.cursor, rfl, h.cursor k (hdelta _ hprocessing rfl), hhit⟩

/-- **The cursor of the client.** In a run from the start in which each delta is processed while
the entry processed last is that of its session, the cursor is where a session has moved it from
its entry as soon as the session has been processed, and the client asks to return only when the
deltas of a session lead to the left edge. -/
theorem cursor_faithful (lib : KeyLib κ) (screenWidth screenHeight : UInt32)
    (screen : ClientScreen) {events : List (RemoteEvent α κ)}
    (h : Run.Along (step lib screen) (DeltaAfterEntry (φ := φ))
      (start screenWidth screenHeight screen) events) :
    Run.Along (step lib screen) (CursorFaithful (φ := φ) lib screen)
      (start screenWidth screenHeight screen) events := by
  refine Run.Along.imp (fun s => s.InOrder screen ∧ s.DeltasInOrder) ?_ h ?_
  · rintro s event hdelta ⟨horder, hdeltas⟩
    exact ⟨⟨horder.step lib hdelta, hdeltas.step lib screen event⟩,
      horder.faithful hdeltas lib hdelta⟩
  · exact ⟨inOrder_start screenWidth screenHeight screen, rfl⟩

end Steps

/-- The cursor crosses into the client and moves on by five. -/
def crossing : List (RemoteEvent ℚ String) :=
  [.input (.mouseMove 99 50) true true, .input (.mouseMove 104 50) true true, .forward, .forward]

/-- The entry is processed, and then the delta. -/
theorem cursor_faithful_crossing :
    Run.Along (step .constant .wide) (CursorFaithful (φ := ℚ) .constant .wide)
      (start 100 100 .wide) (crossing ++ [.deliverControl, .deliverData]) := by
  have horder : Run.Along (step .constant .wide) (DeltaAfterEntry (φ := ℚ))
      (start 100 100 .wide) (crossing ++ [.deliverControl, .deliverData]) := by
    decide +kernel
  exact cursor_faithful .constant 100 100 .wide horder

/-- A delta processed before the entry of its session is erased by it. -/
theorem cursor_erased_by_entry :
    ¬ Run.Along (step .constant .wide) (CursorFaithful (φ := ℚ) .constant .wide)
      (start 100 100 .wide) (crossing ++ [.deliverData, .deliverControl]) := by
  intro h
  obtain ⟨-, -, -, -, -, hentry, -⟩ := h
  have hcursor := (hentry 1 none (by decide +kernel)).1 ⟨by decide +kernel, by decide +kernel⟩
  exact absurd hcursor (by decide +kernel)

end RemoteSystem

end SuperShare
