import Mathlib.Data.Nat.Notation
import Mathlib.Logic.Function.Basic

/-!
# Broadcast channels

A channel that keeps the last messages sent, as many as its capacity, and never makes a sender
wait. Each receiver starts with what is sent after it has subscribed and has its own position
from then on. One that has fallen behind what is kept is told so, once, and goes on with the
oldest message kept. Receivers act on some of the messages only, and a step makes none of them
miss such a message exactly if it neither subscribes late nor falls behind over one.
-/

namespace Broadcast

variable {ρ α : Type}

/-- A channel with its receivers. -/
structure Channel (ρ α : Type) where
  /-- Everything sent, the oldest first, of which the end is kept. -/
  sent : List α
  /-- How many messages come before the next one of a receiver, if it has subscribed. -/
  next : ρ → Option ℕ
  /-- What a receiver was given, the oldest first. -/
  received : ρ → List α

/-- What happens on a channel. -/
inductive Event (ρ α : Type) where
  | send (a : α)
  | subscribe (r : ρ)
  | recv (r : ρ)
  deriving DecidableEq

/-- What a receiver gets. -/
inductive Received (α : Type) where
  | value (a : α)
  /-- So many messages are no longer kept. -/
  | lagged (missed : ℕ)
  | waiting

namespace Channel

/-- Nothing was sent and nobody has subscribed. -/
def empty : Channel ρ α := ⟨[], fun _ => none, fun _ => []⟩

/-- How many messages come before the next one of a receiver. -/
def position (c : Channel ρ α) (r : ρ) : ℕ := (c.next r).getD 0

/-- How many messages after a position are no longer kept. -/
def missed (capacity : ℕ) (c : Channel ρ α) (position : ℕ) : ℕ :=
  c.sent.length - capacity - position

variable [DecidableEq ρ]

/-- A receiver asks for its next message. It is told if it has missed some, and then the next is
the oldest one kept. Without a message it waits. -/
def recv (capacity : ℕ) (c : Channel ρ α) (r : ρ) : Channel ρ α × Received α :=
  match c.next r with
  | none => (c, .waiting)
  | some position =>
      let missed := c.missed capacity position
      if 0 < missed then
        ({ c with next := Function.update c.next r (some (position + missed)) }, .lagged missed)
      else
        match c.sent[position]? with
        | some a =>
            ({ c with
              next := Function.update c.next r (some (position + 1))
              received := Function.update c.received r (c.received r ++ [a]) }, .value a)
        | none => (c, .waiting)

/-- The channel after an event. -/
def step (capacity : ℕ) (c : Channel ρ α) : Event ρ α → Channel ρ α
  | .send a => { c with sent := c.sent ++ [a] }
  | .subscribe r =>
      match c.next r with
      | none => { c with next := Function.update c.next r (some c.sent.length) }
      | some _ => c
  | .recv r => (c.recv capacity r).1

/-- A receiver has what it acts on of all messages before its position. -/
def Complete (wants : ρ → α → Bool) (c : Channel ρ α) : Prop :=
  ∀ r, (c.received r).filter (wants r) = (c.sent.take (c.position r)).filter (wants r)

/-- What a receiver misses by an event is nothing that it acts on. -/
def Lossless (capacity : ℕ) (wants : ρ → α → Bool) (c : Channel ρ α) : Event ρ α → Prop
  | .send _ => True
  | .subscribe r => c.next r = none → ∀ a ∈ c.sent, wants r a = false
  | .recv r => ∀ position ∈ c.next r,
      ∀ a ∈ (c.sent.drop position).take (c.missed capacity position), wants r a = false

/-- No receiver is ahead of what was sent. -/
def Bounded (c : Channel ρ α) : Prop := ∀ r, c.position r ≤ c.sent.length

variable {capacity : ℕ} {wants : ρ → α → Bool} {c : Channel ρ α}

/-- The positions after one of them has moved. -/
theorem position_moved (c : Channel ρ α) (sent : List α) (received : ρ → List α) (r r' : ρ)
    (n : ℕ) :
    (⟨sent, Function.update c.next r (some n), received⟩ : Channel ρ α).position r' =
      if r' = r then n else c.position r' := by
  by_cases hr : r' = r
  · simp [position, hr]
  · simp [position, hr]

/-- Every event keeps the receivers behind what was sent. -/
theorem Bounded.step (h : c.Bounded) (capacity : ℕ) (event : Event ρ α) :
    (c.step capacity event).Bounded := by
  cases event with
  | send a =>
    intro r
    have := h r
    change c.position r ≤ (c.sent ++ [a]).length
    rw [List.length_append]
    omega
  | subscribe r =>
    simp only [Channel.step]
    split
    · intro r'
      rw [position_moved]
      split
      · exact Nat.le_refl _
      · exact h r'
    · exact h
  | recv r =>
    simp only [Channel.step, recv]
    split
    · exact h
    · rename_i position hnext
      have hle : position ≤ c.sent.length := by
        have := h r
        rwa [Channel.position, hnext, Option.getD_some] at this
      split
      · intro r'
        rw [position_moved]
        split
        · change position + c.missed capacity position ≤ c.sent.length
          unfold missed
          omega
        · exact h r'
      · split
        · rename_i a hget
          have hlt : position < c.sent.length := (List.getElem?_eq_some_iff.mp hget).1
          intro r'
          rw [position_moved]
          split
          · exact hlt
          · exact h r'
        · exact h

/-- What a receiver is given is what it gets. -/
theorem received_recv (capacity : ℕ) (c : Channel ρ α) (r r' : ρ) :
    (c.recv capacity r).1.received r' = c.received r' ++
      (match (c.recv capacity r).2 with
        | .value a => if r' = r then [a] else []
        | _ => []) := by
  unfold recv
  split
  · exact (List.append_nil _).symm
  · simp only
    split
    · exact (List.append_nil _).symm
    · split
      · by_cases hr : r' = r
        · subst hr
          simp
        · simp [hr]
      · exact (List.append_nil _).symm

/-- Moving a receiver on over messages misses nothing exactly if it acts on none of them. -/
theorem complete_skip_iff (h : c.Complete wants) {r : ρ} {n : ℕ} :
    ({ c with next := Function.update c.next r (some (c.position r + n)) } :
      Channel ρ α).Complete wants ↔
      ∀ a ∈ (c.sent.drop (c.position r)).take n, wants r a = false := by
  have hsplit : (c.sent.take (c.position r + n)).filter (wants r) =
      (c.received r).filter (wants r) ++
        ((c.sent.drop (c.position r)).take n).filter (wants r) := by
    rw [List.take_add, List.filter_append, h r]
  constructor
  · intro hafter
    have hr := hafter r
    rw [position_moved, if_pos rfl, hsplit,
      List.self_eq_append_right, List.filter_eq_nil_iff] at hr
    intro a ha
    simpa using hr a ha
  · intro hnone r'
    rw [position_moved]
    split
    · rename_i hr
      subst hr
      have hnothing : ((c.sent.drop (c.position r')).take n).filter (wants r') = [] := by
        rw [List.filter_eq_nil_iff]
        intro a ha
        simp [hnone a ha]
      rw [hsplit, hnothing, List.append_nil]
    · exact h r'

/-- A receiver that takes its next message misses nothing. -/
theorem Complete.take (h : c.Complete wants) {r : ρ} {position : ℕ} {a : α}
    (hnext : c.next r = some position) (hget : c.sent[position]? = some a) :
    ({ c with
      next := Function.update c.next r (some (position + 1))
      received := Function.update c.received r (c.received r ++ [a]) } :
      Channel ρ α).Complete wants := by
  have hposition : c.position r = position := by rw [Channel.position, hnext, Option.getD_some]
  intro r'
  rw [position_moved]
  change (Function.update c.received r (c.received r ++ [a]) r').filter _ =
    (c.sent.take _).filter _
  split
  · rename_i hr
    subst hr
    rw [Function.update_self, List.take_add_one, hget, List.filter_append, h, hposition,
      List.filter_append]
    rfl
  · rename_i hr
    rw [Function.update_of_ne hr]
    exact h r'

/-- After an event nothing has been missed exactly if the event makes nobody miss anything. -/
theorem Complete.step_iff (h : c.Complete wants) (hbounded : c.Bounded) (event : Event ρ α) :
    (c.step capacity event).Complete wants ↔ c.Lossless capacity wants event := by
  cases event with
  | send a =>
    refine iff_of_true (fun r => ?_) trivial
    change (c.received r).filter _ = ((c.sent ++ [a]).take (c.position r)).filter _
    rw [List.take_append_of_le_length (hbounded r)]
    exact h r
  | subscribe r =>
    cases hnext : c.next r with
    | none =>
      have hposition : c.position r = 0 := by rw [position, hnext, Option.getD_none]
      have hskip := complete_skip_iff h (r := r) (n := c.sent.length)
      rw [hposition, Nat.zero_add, List.drop_zero, List.take_length] at hskip
      simp only [step, Lossless, hnext, forall_const]
      exact hskip
    | some position =>
      simp only [step, Lossless, hnext]
      exact iff_of_true h nofun
  | recv r =>
    cases hnext : c.next r with
    | none =>
      simp only [step, recv, Lossless, hnext]
      exact iff_of_true h nofun
    | some position =>
      have hposition : c.position r = position := by
        rw [Channel.position, hnext, Option.getD_some]
      have hskip := complete_skip_iff h (r := r) (n := c.missed capacity position)
      rw [hposition] at hskip
      simp only [step, recv, Lossless, hnext, Option.mem_some_iff, forall_eq']
      by_cases hmissed : 0 < c.missed capacity position
      · rw [if_pos hmissed]
        exact hskip
      · have hzero : c.missed capacity position = 0 := by omega
        rw [if_neg hmissed, hzero]
        refine iff_of_true ?_ (by simp)
        split
        · rename_i a hget
          exact h.take hnext hget
        · exact h

end Channel

end Broadcast
