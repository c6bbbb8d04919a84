import Mathlib.Logic.Function.Basic
import SuperShare.Network.FailedStart
import SuperShare.Pairing.PinLaw

/-!
# The PIN in the window

Each start with pairing makes a PIN manager of its own, and a task that writes the manager's PIN
into the shared state once a second. Nothing ends the task. The window shows the PIN written last,
as long as a server is displayed as running and pairing is enabled in the window.
-/

namespace SuperShare

variable {ι α φ κ : Type}

/-- The task of a start that writes its PIN: the manager of the start, and the PIN that the task
has read and not written yet. -/
structure PinTask where
  manager : PinManager
  read : Option String

/-- The command handler, the tasks that write PINs, and what the window reads. -/
structure PinWindow (ι α : Type) where
  handler : CommandHandler ι α
  /-- The tasks of the starts that have set up pairing, by the number of the start. -/
  tasks : ℕ → Option PinTask
  pairingPin : Option String
  /-- The checkbox of the window. -/
  pairingEnabled : Bool
  /-- The start that was displayed as running last. No step reads it. -/
  displayed : Option ℕ
  clock : ℕ

/-- What happens to the window and the tasks. -/
inductive PinEvent (ι α κ : Type) where
  | elapse (duration : ℕ)
  /-- A step of the command handler. For a start with pairing, the number that is drawn for the
  first PIN. -/
  | handler (event : HandlerEvent ι α κ) (pairing : Option (Fin 1000000))
  | check (enabled : Bool)
  | readPin (n : ℕ) (fresh : Fin 1000000)
  | writePin (n : ℕ)
  /-- An attempt to pair uses the manager of a start. -/
  | attempt (n : ℕ) (op : PinOp)

/-- The event is a start whose certificates are resolved. -/
def HandlerEvent.resolves : HandlerEvent ι α κ → Bool
  | .startServer command _ _ _ files =>
      (resolveServerCerts files command.certPath command.keyPath command.caPath).isOk
  | _ => false

/-- Only time passes, and tasks take turns. -/
def PinEvent.Waits : PinEvent ι α κ → Prop
  | .elapse _ | .readPin .. | .writePin _ => True
  | .handler .. | .check _ | .attempt .. => False

namespace PinWindow

/-- Nothing has been started. -/
def start (pairingEnabled : Bool) : PinWindow ι α :=
  ⟨.initial, fun _ => none, none, pairingEnabled, none, 0⟩

/-- The task of a start is replaced. -/
def setTask (s : PinWindow ι α) (n : ℕ) (task : PinTask) : PinWindow ι α :=
  { s with tasks := Function.update s.tasks n (some task) }

/-- A task between two turns reads the PIN of its manager. -/
def readPin (s : PinWindow ι α) (n : ℕ) (fresh : Fin 1000000) : PinWindow ι α :=
  match s.tasks n with
  | some ⟨manager, none⟩ =>
      let manager := manager.currentPin s.clock fresh
      s.setTask n ⟨manager, some manager.pin⟩
  | _ => s

/-- A task writes the PIN that it has read. -/
def writePin (s : PinWindow ι α) (n : ℕ) : PinWindow ι α :=
  match s.tasks n with
  | some ⟨manager, some pin⟩ => { s.setTask n ⟨manager, none⟩ with pairingPin := some pin }
  | _ => s

/-- An attempt uses a manager. -/
def attempt (s : PinWindow ι α) (n : ℕ) (op : PinOp) : PinWindow ι α :=
  match s.tasks n with
  | some task => s.setTask n { task with manager := task.manager.apply ⟨s.clock, op⟩ }
  | none => s

/-- The PIN in the window. -/
def shownPin (s : PinWindow ι α) : Option String :=
  if s.handler.status.serverRunning && s.pairingEnabled then s.pairingPin else none

/-- The PIN of a start. -/
def pin (s : PinWindow ι α) (n : ℕ) : Option String := (s.tasks n).map (·.manager.pin)

/-- The window shows a PIN, if there is one, for this start. -/
structure Displays (s : PinWindow ι α) (n : ℕ) : Prop where
  displayed : s.displayed = some n
  running : s.handler.status.serverRunning = true
  enabled : s.pairingEnabled = true

/-- The start has set up pairing. -/
def Pairs (s : PinWindow ι α) (n : ℕ) : Prop := (s.tasks n).isSome

/-- The task of a start, if it has one, is between two turns. -/
def Rests (s : PinWindow ι α) (n : ℕ) : Prop := ∀ task, s.tasks n = some task → task.read = none

section Steps

variable [CursorNumber α φ] [DecidableEq ι]

/-- A step of the command handler. A start whose certificates are resolved sets up pairing, if it
is asked to, and is displayed as running. -/
def handle (lib : KeyLib κ) (s : PinWindow ι α) (event : HandlerEvent ι α κ)
    (pairing : Option (Fin 1000000)) : PinWindow ι α :=
  let n := s.handler.starts.length
  let s := { s with handler := s.handler.step lib event }
  if event.resolves then
    match pairing with
    | some fresh => { s.setTask n ⟨.new s.clock fresh, none⟩ with displayed := some n }
    | none => { s with displayed := some n }
  else s

/-- The state after an event. The checkbox is disabled while a server is displayed as running. -/
def step (lib : KeyLib κ) (s : PinWindow ι α) : PinEvent ι α κ → PinWindow ι α
  | .elapse duration => { s with clock := s.clock + duration }
  | .handler event pairing => s.handle lib event pairing
  | .check enabled =>
      if s.handler.status.serverRunning then s else { s with pairingEnabled := enabled }
  | .readPin n fresh => s.readPin n fresh
  | .writePin n => s.writePin n
  | .attempt n op => s.attempt n op

/-- As long as one waits, from the next PIN on that the task of a start reads, the window shows the
PIN of the start whenever the task is between two turns. -/
def Reliable (lib : KeyLib κ) (s : PinWindow ι α) (n : ℕ) : Prop :=
  ∀ (first rest : List (PinEvent ι α κ)) (fresh : Fin 1000000),
    (∀ event ∈ first, event.Waits) → (∀ event ∈ rest, event.Waits) →
    let before := first.foldl (step lib) s
    let after := rest.foldl (step lib) (before.readPin n fresh)
    before.Rests n → after.Rests n → after.shownPin = after.pin n

end Steps

/-! ## One turn -/

/-- A task that was replaced is the new one. -/
@[simp] theorem tasks_setTask (s : PinWindow ι α) (n : ℕ) (task : PinTask) :
    (s.setTask n task).tasks n = some task := Function.update_self ..

/-- The other tasks are as before. -/
theorem tasks_setTask_ne (s : PinWindow ι α) {n k : ℕ} (task : PinTask) (h : k ≠ n) :
    (s.setTask n task).tasks k = s.tasks k := Function.update_of_ne h ..

/-- A task reads the PIN of its manager if it is between two turns. -/
theorem tasks_readPin {s : PinWindow ι α} {n : ℕ} {manager : PinManager}
    (h : s.tasks n = some ⟨manager, none⟩) (fresh : Fin 1000000) :
    (s.readPin n fresh).tasks n = some ⟨manager.currentPin s.clock fresh,
      some (manager.currentPin s.clock fresh).pin⟩ := by
  simp only [readPin, h, tasks_setTask]

/-- Reading leaves the other tasks alone. -/
theorem tasks_readPin_ne (s : PinWindow ι α) {n k : ℕ} (fresh : Fin 1000000) (h : k ≠ n) :
    (s.readPin n fresh).tasks k = s.tasks k := by
  unfold readPin
  split
  · exact s.tasks_setTask_ne _ h
  · rfl

/-- A task that has written is between two turns, with the same manager. -/
theorem tasks_writePin {s : PinWindow ι α} {n : ℕ} {task : PinTask} (h : s.tasks n = some task) :
    (s.writePin n).tasks n = some ⟨task.manager, none⟩ := by
  obtain ⟨manager, read⟩ := task
  cases read with
  | none => simp only [writePin, h]
  | some pin => simp only [writePin, h, tasks_setTask]

/-- Writing leaves the other tasks alone. -/
theorem tasks_writePin_ne (s : PinWindow ι α) {n k : ℕ} (h : k ≠ n) :
    (s.writePin n).tasks k = s.tasks k := by
  unfold writePin
  split
  · exact s.tasks_setTask_ne _ h
  · rfl

/-- A task that has written is between two turns. -/
theorem rests_writePin (s : PinWindow ι α) (n : ℕ) : (s.writePin n).Rests n := by
  intro task htask
  cases hn : s.tasks n with
  | none =>
    simp [writePin, hn] at htask
  | some old =>
    rw [tasks_writePin hn] at htask
    rw [← Option.some.inj htask]

/-- Some number is drawn for a PIN that is not the given one. -/
theorem exists_generatePin_ne (pin : Option String) :
    ∃ fresh, some (generatePin fresh) ≠ pin := by
  by_cases h : some (generatePin 0) = pin
  · refine ⟨1, fun hone => ?_⟩
    exact absurd (Option.some.inj (h.trans hone.symm)) (by decide)
  · exact ⟨0, h⟩

/-! ## Waiting -/

/-- The window shows PINs for start `n`, and no other start has set up pairing. -/
structure Alone (s : PinWindow ι α) (n : ℕ) : Prop where
  displays : s.Displays n
  only : ∀ k, s.Pairs k → k = n
  /-- A PIN that was written has been written by a task. -/
  pairs : s.pairingPin.isSome → s.Pairs n

/-- The task of a start holds its manager's PIN, or has written it. -/
def Current (s : PinWindow ι α) (n : ℕ) : Prop :=
  ∀ task, s.tasks n = some task → task.read = some task.manager.pin ∨
    task.read = none ∧ s.pairingPin = some task.manager.pin

/-- A start without a task neither reads nor writes. -/
theorem turns_of_not_pairs {s : PinWindow ι α} {n : ℕ} (h : ¬ s.Pairs n) (fresh : Fin 1000000) :
    s.readPin n fresh = s ∧ s.writePin n = s := by
  have hnone : s.tasks n = none := by simpa [Pairs] using h
  simp only [readPin, writePin, hnone, and_self]

/-- Reading does not change what is displayed. -/
theorem displays_readPin {s : PinWindow ι α} {n : ℕ} (h : s.Displays n) (k : ℕ)
    (fresh : Fin 1000000) : (s.readPin k fresh).Displays n := by
  unfold readPin
  split <;> exact ⟨h.displayed, h.running, h.enabled⟩

/-- Writing does not change which start is displayed. -/
theorem displays_writePin {s : PinWindow ι α} {n : ℕ} (h : s.Displays n) (k : ℕ) :
    (s.writePin k).Displays n := by
  unfold writePin
  split <;> exact ⟨h.displayed, h.running, h.enabled⟩

/-- Reading neither adds nor ends a task. -/
theorem pairs_readPin (s : PinWindow ι α) (n k : ℕ) (fresh : Fin 1000000) :
    (s.readPin n fresh).Pairs k ↔ s.Pairs k := by
  unfold readPin
  split
  · rename_i hn
    by_cases hk : k = n
    · subst hk
      simp [Pairs, hn]
    · simp only [Pairs, s.tasks_setTask_ne _ hk]
  · rfl

/-- Writing neither adds nor ends a task. -/
theorem pairs_writePin (s : PinWindow ι α) (n k : ℕ) :
    (s.writePin n).Pairs k ↔ s.Pairs k := by
  unfold writePin
  split
  · rename_i hn
    by_cases hk : k = n
    · subst hk
      simp [Pairs, setTask, hn]
    · simp only [Pairs, setTask, Function.update_of_ne hk]
  · rfl

/-- No other start sets up pairing while a task reads. -/
theorem Alone.readPin {s : PinWindow ι α} {n : ℕ} (h : s.Alone n) (k : ℕ) (fresh : Fin 1000000) :
    (s.readPin k fresh).Alone n where
  displays := displays_readPin h.displays k fresh
  only m hm := h.only m ((s.pairs_readPin k m fresh).mp hm)
  pairs hpin := by
    have hsame : (s.readPin k fresh).pairingPin = s.pairingPin := by
      unfold PinWindow.readPin
      split <;> rfl
    rw [hsame] at hpin
    exact (s.pairs_readPin k n fresh).mpr (h.pairs hpin)

/-- No other start sets up pairing while a task writes. -/
theorem Alone.writePin {s : PinWindow ι α} {n : ℕ} (h : s.Alone n) (k : ℕ) :
    (s.writePin k).Alone n where
  displays := displays_writePin h.displays k
  only m hm := h.only m ((s.pairs_writePin k m).mp hm)
  pairs hpin := by
    rw [pairs_writePin]
    by_cases hk : s.Pairs k
    · exact h.only k hk ▸ hk
    · rw [(turns_of_not_pairs hk 0).2] at hpin
      exact h.pairs hpin

/-- From a turn on in which it reads, a task that is alone holds or has written its manager's
PIN. -/
theorem Current.readPin {s : PinWindow ι α} {n : ℕ} (h : s.Current n ∨ s.Rests n)
    (fresh : Fin 1000000) : (s.readPin n fresh).Current n := by
  intro task htask
  cases hn : s.tasks n with
  | none =>
    rw [(turns_of_not_pairs (by simp [Pairs, hn]) fresh).1, hn] at htask
    exact absurd htask (by simp)
  | some old =>
    obtain ⟨manager, read⟩ := old
    cases read with
    | none =>
      rw [tasks_readPin hn] at htask
      rw [← Option.some.inj htask]
      exact .inl rfl
    | some pin =>
      have hsame : s.readPin n fresh = s := by simp only [PinWindow.readPin, hn]
      rw [hsame] at htask ⊢
      rcases h with hcurrent | hrests
      · exact hcurrent task htask
      · exact absurd (hrests _ hn) (by simp)

/-- A task that is alone and holds its manager's PIN writes it. -/
theorem Current.writePin {s : PinWindow ι α} {n : ℕ} (h : s.Current n) :
    (s.writePin n).Current n := by
  intro task htask
  cases hn : s.tasks n with
  | none =>
    rw [(turns_of_not_pairs (by simp [Pairs, hn]) 0).2, hn] at htask
    exact absurd htask (by simp)
  | some old =>
    rw [tasks_writePin hn] at htask
    rw [← Option.some.inj htask]
    refine .inr ⟨rfl, ?_⟩
    obtain ⟨manager, read⟩ := old
    rcases h _ hn with hread | ⟨hread, hpin⟩
    · simp only at hread
      simp only [PinWindow.writePin, hn, hread]
    · simp only at hread hpin
      simp only [PinWindow.writePin, hn, hread, hpin]

section Steps

variable [CursorNumber α φ] [DecidableEq ι]

/-- While one waits, start `n` stays alone. -/
theorem Alone.step {s : PinWindow ι α} {n : ℕ} (h : s.Alone n) (lib : KeyLib κ)
    {event : PinEvent ι α κ} (hwaits : event.Waits) : (s.step lib event).Alone n := by
  cases event with
  | elapse duration => exact ⟨⟨h.displays.displayed, h.displays.running, h.displays.enabled⟩,
      h.only, h.pairs⟩
  | readPin k fresh => exact h.readPin k fresh
  | writePin k => exact h.writePin k
  | handler event pairing => exact hwaits.elim
  | check enabled => exact hwaits.elim
  | attempt k op => exact hwaits.elim

/-- While one waits, a task that is alone keeps holding or having written its manager's PIN. -/
theorem Current.step {s : PinWindow ι α} {n : ℕ} (h : s.Current n) (halone : s.Alone n)
    (lib : KeyLib κ) {event : PinEvent ι α κ} (hwaits : event.Waits) :
    (s.step lib event).Current n := by
  -- Only the start's own task has turns.
  cases event with
  | elapse duration => exact h
  | readPin k fresh =>
    by_cases hk : s.Pairs k
    · rw [halone.only k hk]
      exact .readPin (.inl h) fresh
    · simpa only [PinWindow.step, (turns_of_not_pairs hk fresh).1] using h
  | writePin k =>
    by_cases hk : s.Pairs k
    · rw [halone.only k hk]
      exact h.writePin
    · simpa only [PinWindow.step, (turns_of_not_pairs hk 0).2] using h
  | handler event pairing => exact hwaits.elim
  | check enabled => exact hwaits.elim
  | attempt k op => exact hwaits.elim

/-- A start that is alone is shown reliably. -/
theorem Alone.reliable {s : PinWindow ι α} {n : ℕ} (h : s.Alone n) (lib : KeyLib κ) :
    s.Reliable lib n := by
  intro first rest fresh hfirst hrest before after hbefore hafter
  have hstart : before.Alone n :=
    List.foldlRecOn (motive := fun s => s.Alone n) first (PinWindow.step lib) h
      fun s hs event hmem => hs.step lib (hfirst event hmem)
  have hend : after.Alone n ∧ after.Current n := by
    refine List.foldlRecOn (motive := fun s => s.Alone n ∧ s.Current n) rest (PinWindow.step lib)
      ⟨hstart.readPin n fresh, .readPin (.inr hbefore) fresh⟩ fun s hs event hmem => ?_
    have hwaits := hrest event hmem
    exact ⟨hs.1.step lib hwaits, hs.2.step hs.1 lib hwaits⟩
  obtain ⟨hafterAlone, hcurrent⟩ := hend
  have hshown : after.shownPin = after.pairingPin := by
    simp only [shownPin, hafterAlone.displays.running, hafterAlone.displays.enabled, Bool.and_self,
      if_true]
  rw [hshown]
  cases hn : after.tasks n with
  | none =>
    have hnone : after.pairingPin = none := by
      by_contra hsome
      have hpairs := hafterAlone.pairs (Option.isSome_iff_ne_none.mpr hsome)
      simp [Pairs, hn] at hpairs
    simp only [hnone, pin, hn, Option.map_none]
  | some task =>
    rcases hcurrent task hn with hread | ⟨-, hpin⟩
    · exact absurd (hread.symm.trans (hafter task hn)) (by simp)
    · simp only [hpin, pin, hn, Option.map_some]

/-- Once the PIN of another start has expired, the task of that start shows a fresh one. -/
theorem Displays.overwritten {s : PinWindow ι α} {n k : ℕ} (h : s.Displays n) (hne : k ≠ n)
    {manager : PinManager} (hk : s.tasks k = some ⟨manager, none⟩) (lib : KeyLib κ)
    (pin : Option String) : ∃ rest : List (PinEvent ι α κ), (∀ event ∈ rest, event.Waits) ∧
      (rest.foldl (step lib) s).shownPin ≠ pin ∧
      (rest.foldl (step lib) s).tasks n = s.tasks n := by
  obtain ⟨fresh, hfresh⟩ := exists_generatePin_ne pin
  let later := s.step lib (.elapse (manager.generatedAt + manager.ttl))
  have hlater : later.tasks k = some ⟨manager, none⟩ := hk
  have hexpired : manager.Expired later.clock := by
    have hclock : later.clock = s.clock + (manager.generatedAt + manager.ttl) := rfl
    unfold PinManager.Expired
    omega
  have hrotated : (manager.currentPin later.clock fresh).pin = generatePin fresh := by
    simp only [PinManager.currentPin, if_pos hexpired, PinManager.rotate]
  have hread := tasks_readPin hlater fresh
  rw [hrotated] at hread
  let after := (later.readPin k fresh).writePin k
  have hwaited : later.Displays n := ⟨h.displayed, h.running, h.enabled⟩
  have hdisplays : after.Displays n := displays_writePin (displays_readPin hwaited k fresh) k
  have hpin : after.pairingPin = some (generatePin fresh) := by
    simp only [after, PinWindow.writePin, hread]
  refine ⟨[.elapse (manager.generatedAt + manager.ttl), .readPin k fresh, .writePin k], ?_, ?_, ?_⟩
  · simp [PinEvent.Waits]
  · have hshown : after.shownPin = some (generatePin fresh) := by
      simp only [shownPin, hdisplays.running, hdisplays.enabled, Bool.and_self, if_true, hpin]
    exact hshown ▸ hfresh
  · exact (tasks_writePin_ne _ hne.symm).trans (tasks_readPin_ne _ fresh hne.symm)

/-- With another start that has set up pairing, the window is not reliable. -/
theorem Displays.not_reliable {s : PinWindow ι α} {n k : ℕ} (h : s.Displays n) (hk : s.Pairs k)
    (hne : k ≠ n) (lib : KeyLib κ) : ¬ s.Reliable lib n := by
  intro hreliable
  -- Both tasks come to rest, and that of the displayed start takes its turn.
  let before := (s.writePin k).writePin n
  let turned := (before.readPin n 0).writePin n
  obtain ⟨task, htask⟩ := Option.isSome_iff_exists.mp hk
  have hother : turned.tasks k = some ⟨task.manager, none⟩ := by
    rw [tasks_writePin_ne _ hne, tasks_readPin_ne _ _ hne, tasks_writePin_ne _ hne,
      tasks_writePin htask]
  have hdisplays : turned.Displays n := displays_writePin
    (displays_readPin (displays_writePin (displays_writePin h k) n) n 0) n
  obtain ⟨rest, hwaits, hshown, hsame⟩ :=
    hdisplays.overwritten hne hother lib (turned.pin n)
  have hrests : (rest.foldl (step lib) turned).Rests n := fun task htask =>
    rests_writePin _ n task (hsame ▸ htask)
  have hright := hreliable [.writePin k, .writePin n] (.writePin n :: rest) 0
    (by simp [PinEvent.Waits]) (by simpa [PinEvent.Waits] using hwaits) (rests_writePin _ n) hrests
  refine hshown (hright.trans ?_)
  exact congrArg (Option.map _) hsame

/-! ## Every run -/

/-- A PIN was written only if some start has set up pairing. -/
def Written (s : PinWindow ι α) : Prop := s.pairingPin.isSome → ∃ n, s.Pairs n

omit [CursorNumber α φ] [DecidableEq ι] in
/-- Replacing a task ends none. -/
theorem Pairs.setTask {s : PinWindow ι α} {k : ℕ} (h : s.Pairs k) (n : ℕ) (task : PinTask) :
    (s.setTask n task).Pairs k := by
  by_cases hk : k = n
  · subst hk
    simp [Pairs]
  · rwa [Pairs, s.tasks_setTask_ne task hk]

/-- No step ends the task of a start. -/
theorem Pairs.step {s : PinWindow ι α} {k : ℕ} (h : s.Pairs k) (lib : KeyLib κ)
    (event : PinEvent ι α κ) : (s.step lib event).Pairs k := by
  cases event with
  | elapse duration => exact h
  | handler event pairing =>
    have hhandled : ({ s with handler := s.handler.step lib event } : PinWindow ι α).Pairs k := h
    simp only [PinWindow.step, handle]
    split
    · cases pairing with
      | none => exact hhandled
      | some fresh => exact hhandled.setTask _ _
    · exact hhandled
  | check enabled =>
    simp only [PinWindow.step]
    split <;> exact h
  | readPin n fresh => exact (s.pairs_readPin n k fresh).mpr h
  | writePin n => exact (s.pairs_writePin n k).mpr h
  | attempt n op =>
    simp only [PinWindow.step, attempt]
    split
    · exact h.setTask _ _
    · exact h

/-- Only the tasks write PINs. -/
theorem pairingPin_step (s : PinWindow ι α) (lib : KeyLib κ) (event : PinEvent ι α κ) :
    (s.step lib event).pairingPin = s.pairingPin ∨ ∃ n, event = .writePin n ∧ s.Pairs n := by
  cases event with
  | elapse duration => exact .inl rfl
  | handler event pairing =>
    simp only [PinWindow.step, handle]
    split
    · cases pairing with
      | none => exact .inl rfl
      | some fresh => exact .inl rfl
    · exact .inl rfl
  | check enabled =>
    simp only [PinWindow.step]
    split <;> exact .inl rfl
  | readPin n fresh =>
    simp only [PinWindow.step, PinWindow.readPin]
    split <;> exact .inl rfl
  | writePin n =>
    by_cases hn : s.Pairs n
    · exact .inr ⟨n, rfl, hn⟩
    · exact .inl (congrArg pairingPin (turns_of_not_pairs hn 0).2)
  | attempt n op =>
    simp only [PinWindow.step, attempt]
    split <;> exact .inl rfl

/-- Every step writes only a PIN that some task has read. -/
theorem Written.step {s : PinWindow ι α} (h : s.Written) (lib : KeyLib κ)
    (event : PinEvent ι α κ) : (s.step lib event).Written := by
  intro hwritten
  rcases s.pairingPin_step lib event with hsame | ⟨n, -, hn⟩
  · obtain ⟨n, hn⟩ := h (hsame ▸ hwritten)
    exact ⟨n, hn.step lib event⟩
  · exact ⟨n, hn.step lib event⟩

/-- Once a start has set up pairing, the window is never again reliable for another start. -/
theorem Pairs.never_reliable {s : PinWindow ι α} {k : ℕ} (h : s.Pairs k) (lib : KeyLib κ)
    (events : List (PinEvent ι α κ)) {n : ℕ} (hne : k ≠ n)
    (hn : (events.foldl (PinWindow.step lib) s).Displays n) :
    ¬ (events.foldl (PinWindow.step lib) s).Reliable lib n := by
  have hkept : (events.foldl (PinWindow.step lib) s).Pairs k :=
    List.foldlRecOn (motive := fun s => s.Pairs k) events (PinWindow.step lib) h
      fun s hs event _ => hs.step lib event
  exact hn.not_reliable hkept hne lib

/-- **Shown PINs.** In every state that is reached, the window is reliable exactly if the start
that is displayed is the only one so far that has set up pairing. -/
theorem reliable_iff_onlyPairing (lib : KeyLib κ) (pairingEnabled : Bool)
    (events : List (PinEvent ι α κ)) :
    let s : PinWindow ι α := events.foldl (step lib) (start pairingEnabled)
    (∀ n, s.Displays n → s.Reliable lib n) ↔ ∀ n k, s.Displays n → s.Pairs k → k = n := by
  intro s
  have hstart : (start pairingEnabled : PinWindow ι α).Written :=
    fun h => absurd h (by simp [start])
  have hwritten : s.Written :=
    List.foldlRecOn (motive := Written) events (PinWindow.step lib) hstart
      fun s hs event _ => hs.step lib event
  constructor
  · intro hreliable n k hn hk
    by_contra hne
    exact hn.not_reliable hk hne lib (hreliable n hn)
  · intro honly n hn
    have halone : s.Alone n := by
      refine ⟨hn, fun k => honly n k hn, fun hpin => ?_⟩
      obtain ⟨k, hk⟩ := hwritten hpin
      exact honly n k hn hk ▸ hk
    exact halone.reliable lib

end Steps

/-- The server is stopped and started again, and the tasks of both starts take their turns. -/
def restarted : PinWindow Unit ℤ :=
  [.handler (.startServer explicitPaths 1920 1080 true .complete) (some ⟨7, by decide⟩),
    .handler .stopServer none,
    .handler (.startServer explicitPaths 1920 1080 true .complete) (some ⟨8, by decide⟩),
    .readPin 1 ⟨0, by decide⟩, .writePin 1, .readPin 0 ⟨0, by decide⟩, .writePin 0].foldl
    (step .constant) (start true)

/-- The window shows the PIN of the server that was stopped. -/
example : restarted.displayed = some 1 ∧ restarted.pin 1 = some "000008" ∧
    restarted.shownPin = some "000007" := by decide +kernel

end PinWindow

end SuperShare
