import Mathlib.Algebra.BigOperators.Group.List.Basic
import Mathlib.Algebra.GroupWithZero.Nat
import Mathlib.Data.List.Nodup
import Mathlib.Data.List.TakeWhile

/-!
# Interleavings of the messages of several senders

Each sender has a list of messages, its block. An interleaving keeps the order of each block
and nothing else. A block that stands whole at the front of an interleaving leaves an
interleaving of the others.
-/

namespace Interleave

variable {κ α : Type} [DecidableEq κ]

/-- The messages of one sender. -/
def sent (k : κ) (events : List (κ × α)) : List α :=
  (events.filter fun e => e.1 = k).map Prod.snd

/-- A block as events. -/
def tagged (k : κ) (block : List α) : List (κ × α) := block.map fun a => (k, a)

/-- The blocks one after the other. -/
def sequence (blocks : List (κ × List α)) : List (κ × α) :=
  blocks.flatMap fun b => tagged b.1 b.2

/-- The events are the messages of the blocks, those of each block in its order. -/
structure Merges (blocks : List (κ × List α)) (events : List (κ × α)) : Prop where
  own : ∀ b ∈ blocks, sent b.1 events = b.2
  known : ∀ e ∈ events, e.1 ∈ blocks.map Prod.fst

/-- A block that opens with its first message and closes with its last. -/
structure IsSection (opens closes : α → Bool) (block : List α) (first : α) (inner : List α)
    (last : α) : Prop where
  shape : block = first :: (inner ++ [last])
  first_opens : opens first = true
  first_closes : closes first = false
  inner_opens : ∀ a ∈ inner, opens a = false
  inner_closes : ∀ a ∈ inner, closes a = false
  last_opens : opens last = false
  last_closes : closes last = true

/-- Every block is a section. -/
def Sections (opens closes : α → Bool) (blocks : List (κ × List α)) : Prop :=
  ∀ b ∈ blocks, ∃ first inner last, IsSection opens closes b.2 first inner last

/-- What a sender sends in two parts. -/
@[simp] theorem sent_append (k : κ) (first second : List (κ × α)) :
    sent k (first ++ second) = sent k first ++ sent k second := by
  rw [sent, List.filter_append, List.map_append, ← sent, ← sent]

/-- The events of a block are sent by its sender. -/
@[simp] theorem sent_tagged_self (k : κ) (block : List α) : sent k (tagged k block) = block := by
  induction block with
  | nil => rfl
  | cons a block ih =>
    rw [tagged, List.map_cons, sent, List.filter_cons_of_pos (by simp), List.map_cons]
    exact congrArg (a :: ·) ih

/-- They are not sent by another. -/
theorem sent_tagged_of_ne {k k' : κ} (hne : k ≠ k') (block : List α) :
    sent k (tagged k' block) = [] := by
  rw [sent, List.filter_eq_nil_iff.mpr, List.map_nil]
  intro e he
  obtain ⟨a, -, rfl⟩ := List.mem_map.mp he
  simpa using Ne.symm hne

omit [DecidableEq κ] in
/-- Events of one sender are a block of it. -/
theorem eq_tagged {k : κ} {events : List (κ × α)} (h : ∀ e ∈ events, e.1 = k) :
    events = tagged k (events.map Prod.snd) := by
  have hid : ∀ e ∈ events, id e = (k, e.2) := fun e he => Prod.ext (h e he) rfl
  calc events = events.map id := (List.map_id events).symm
    _ = events.map fun e => (k, e.2) := List.map_congr_left hid
    _ = tagged k (events.map Prod.snd) := by rw [tagged, List.map_map]; rfl

/-- Some event of a sender is there as soon as it has sent something. -/
theorem sent_ne_nil_of_mem {e : κ × α} {events : List (κ × α)} (h : e ∈ events) :
    sent e.1 events ≠ [] := by
  have hmem : e.2 ∈ sent e.1 events :=
    List.mem_map.mpr ⟨e, List.mem_filter.mpr ⟨h, by simp⟩, rfl⟩
  exact List.ne_nil_of_mem hmem

/-- A section opens once. -/
theorem IsSection.countP_opens {opens closes : α → Bool} {block inner : List α} {first last : α}
    (h : IsSection opens closes block first inner last) : block.countP opens = 1 := by
  have hinner : inner.countP opens = 0 :=
    List.countP_eq_zero.mpr fun a ha => by simp [h.inner_opens a ha]
  rw [h.shape, List.countP_cons, List.countP_append, hinner, h.first_opens]
  simp [h.last_opens]

namespace Merges

variable {blocks before after : List (κ × List α)} {events tail : List (κ × α)} {k : κ}
  {block : List α}

/-- No senders, no events. -/
theorem eq_nil (h : Merges [] events) : events = [] := by
  refine List.eq_nil_iff_forall_not_mem.mpr fun e he => ?_
  exact List.not_mem_nil (h.known e he)

/-- A block at the front leaves an interleaving of the others. -/
theorem of_front (hnodup : ((before ++ (k, block) :: after).map Prod.fst).Nodup)
    (h : Merges (before ++ (k, block) :: after) (tagged k block ++ tail)) :
    Merges (before ++ after) tail := by
  have hothers : ∀ b ∈ before ++ after, b.1 ≠ k := by
    intro b hb heq
    rw [List.map_append, List.map_cons, List.nodup_middle, List.nodup_cons] at hnodup
    have hkey : b.1 ∈ (before ++ after).map Prod.fst := List.mem_map_of_mem hb
    rw [heq, List.map_append] at hkey
    exact hnodup.1 hkey
  have hsent : sent k tail = [] := by
    have hown := h.own (k, block) (by simp)
    rw [sent_append, sent_tagged_self] at hown
    exact List.append_right_eq_self.mp hown
  refine ⟨fun b hb => ?_, fun e he => ?_⟩
  · have hown := h.own b (by simp only [List.mem_append, List.mem_cons] at hb ⊢; tauto)
    rwa [sent_append, sent_tagged_of_ne (hothers b hb), List.nil_append] at hown
  · have hknown := h.known e (List.mem_append_right _ he)
    have hne : e.1 ≠ k := by
      rintro rfl
      exact sent_ne_nil_of_mem he hsent
    simp only [List.map_append, List.map_cons, List.mem_append, List.mem_cons] at hknown ⊢
    tauto

/-- An interleaving of sections starts with one that opens, and goes on to a first event that
opens or closes another. -/
theorem exists_front {opens closes : α → Bool} (hsections : Sections opens closes blocks)
    (hblocks : blocks ≠ []) (h : Merges blocks events) :
    ∃ k a middle e tail, events = (k, a) :: (middle ++ e :: tail) ∧ opens a = true ∧
      closes a = false ∧ (∀ x ∈ middle, opens x.2 = false ∧ closes x.2 = false) ∧
      (opens e.2 = true ∨ closes e.2 = true) := by
  obtain ⟨b₀, hb₀⟩ := List.exists_mem_of_ne_nil blocks hblocks
  cases events with
  | nil =>
    obtain ⟨first, inner, last, hsection⟩ := hsections b₀ hb₀
    have hown := h.own b₀ hb₀
    rw [hsection.shape] at hown
    exact absurd hown (by simp [sent])
  | cons x events =>
    obtain ⟨b, hb, hkey⟩ := List.mem_map.mp (h.known x List.mem_cons_self)
    obtain ⟨first, inner, last, hsection⟩ := hsections b hb
    have hown := h.own b hb
    rw [hkey, sent, List.filter_cons_of_pos (by simp), List.map_cons,
      hsection.shape, List.cons.injEq] at hown
    have hlast : last ∈ (events.filter fun e => e.1 = x.1).map Prod.snd := by
      rw [hown.2]
      simp
    obtain ⟨y, hy, hyl⟩ := List.mem_map.mp hlast
    have hyc : closes y.2 = true := hyl ▸ hsection.last_closes
    let quiet := fun x : κ × α => !opens x.2 && !closes x.2
    have hrest : events.dropWhile quiet ≠ [] := by
      intro hnil
      have hall := List.dropWhile_eq_nil_iff.mp hnil y (List.mem_of_mem_filter hy)
      simp [quiet, hyc] at hall
    obtain ⟨e, tail, he⟩ := List.exists_cons_of_ne_nil hrest
    have hloud : ¬ quiet e = true := by
      have hhead := List.head_dropWhile_not quiet hrest
      simpa [he] using hhead
    refine ⟨x.1, x.2, events.takeWhile quiet, e, tail, ?_, ?_, ?_, ?_, ?_⟩
    · rw [← he, List.takeWhile_append_dropWhile]
    · exact hown.1 ▸ hsection.first_opens
    · exact hown.1 ▸ hsection.first_closes
    · intro z hz
      simpa [quiet] using List.mem_takeWhile_imp hz
    · by_cases hopen : opens e.2 = true
      · exact Or.inl hopen
      · right
        simpa [quiet, hopen] using hloud

/-- In an interleaving of sections, a first event with what follows it up to the first that
closes, and that opens nothing, is a section. -/
theorem front_section {opens closes : α → Bool} {a : α} {middle : List (κ × α)} {e : κ × α}
    (hsections : Sections opens closes blocks)
    (h : Merges blocks ((k, a) :: (middle ++ e :: tail)))
    (hmiddle : ∀ x ∈ middle, opens x.2 = false) (hopens : opens e.2 = false)
    (hcloses : closes e.2 = true) :
    ∃ block, (k, block) ∈ blocks ∧
      (k, a) :: (middle ++ e :: tail) = tagged k block ++ tail := by
  have hquiet : ∀ x ∈ middle ++ [e], opens x.2 = false := by
    intro x hx
    rcases List.mem_append.mp hx with hx | hx
    · exact hmiddle x hx
    · exact (List.mem_singleton.mp hx) ▸ hopens
  have hsplit : (k, a) :: (middle ++ e :: tail) = (k, a) :: ((middle ++ [e]) ++ tail) := by simp
  rw [hsplit] at h ⊢
  -- A sender whose first event came here would have opened its section here.
  have hsame : ∀ x ∈ middle ++ [e], x.1 = k := by
    intro x hx
    by_contra hne
    obtain ⟨b, hb, hkey⟩ := List.mem_map.mp
      (h.known x (List.mem_cons_of_mem _ (List.mem_append_left _ hx)))
    obtain ⟨first, inner, last, hsection⟩ := hsections b hb
    have hown := h.own b hb
    have hskip : sent b.1 ((k, a) :: ((middle ++ [e]) ++ tail)) =
        sent b.1 (middle ++ [e]) ++ sent b.1 tail := by
      rw [← sent_append, hkey, sent, List.filter_cons_of_neg (by simpa using Ne.symm hne), ← sent]
    rw [hskip, hsection.shape, hkey] at hown
    obtain ⟨c, cs, hc⟩ := List.exists_cons_of_ne_nil (sent_ne_nil_of_mem hx)
    rw [hc, List.cons_append, List.cons.injEq] at hown
    obtain ⟨y, hy, hyc⟩ := List.mem_map.mp (hc ▸ List.mem_cons_self : c ∈ sent x.1 (middle ++ [e]))
    have hclosed := hquiet y (List.mem_of_mem_filter hy)
    rw [hyc, hown.1, hsection.first_opens] at hclosed
    exact absurd hclosed (by simp)
  obtain ⟨⟨key, block⟩, hb, rfl⟩ := List.mem_map.mp (h.known (k, a) List.mem_cons_self)
  refine ⟨block, hb, ?_⟩
  have hfront : (key, a) :: (middle ++ [e]) = tagged key (a :: (middle ++ [e]).map Prod.snd) := by
    rw [tagged, List.map_cons, ← tagged, ← eq_tagged hsame]
  have hown := h.own _ hb
  rw [← List.cons_append] at hown ⊢
  rw [hfront, sent_append, sent_tagged_self] at hown
  have hnone : sent key tail = [] := by
    by_contra hsome
    obtain ⟨first, inner, last, hsection⟩ := hsections _ hb
    rw [hsection.shape, List.cons_append, List.cons.injEq] at hown
    have hdrop : ((middle ++ [e]).map Prod.snd ++ sent key tail).dropLast = inner := by
      rw [hown.2, List.dropLast_concat]
    rw [List.dropLast_append_of_ne_nil hsome] at hdrop
    have he : e.2 ∈ inner := by
      rw [← hdrop]
      exact List.mem_append_left _ (List.mem_map_of_mem (by simp))
    rw [hsection.inner_closes _ he] at hcloses
    exact absurd hcloses (by simp)
  rw [hnone, List.append_nil] at hown
  rw [hfront, hown]

/-- Messages are counted block by block. -/
theorem countP_eq (p : α → Bool) (hnodup : (blocks.map Prod.fst).Nodup)
    (h : Merges blocks events) :
    events.countP (fun e => p e.2) = (blocks.map fun b => b.2.countP p).sum := by
  induction blocks generalizing events with
  | nil => rw [h.eq_nil]; rfl
  | cons b blocks ih =>
    obtain ⟨hnew, hnodup⟩ := List.nodup_cons.mp hnodup
    have hne : ∀ b' ∈ blocks, b'.1 ≠ b.1 := by
      intro b' hb' heq
      exact hnew (heq ▸ List.mem_map_of_mem hb')
    have hothers : Merges blocks (events.filter fun e => !(decide (e.1 = b.1))) := by
      refine ⟨fun b' hb' => ?_, fun e he => ?_⟩
      · rw [← h.own b' (List.mem_cons_of_mem _ hb'), sent, sent, List.filter_filter]
        congr 1
        refine List.filter_congr fun e _ => ?_
        have := hne b' hb'
        by_cases heq : e.1 = b'.1 <;> simp [heq, this]
      · obtain ⟨he, hkey⟩ := List.mem_filter.mp he
        have hknown := h.known e he
        simp only [List.map_cons, List.mem_cons] at hknown
        simpa using hknown.resolve_left (by simpa using hkey)
    have hown : (events.filter fun e => decide (e.1 = b.1)).countP (fun e => p e.2) =
        b.2.countP p := by
      rw [← h.own b List.mem_cons_self, sent, List.countP_map]
      rfl
    rw [List.countP_eq_countP_filter_add _ _ fun e => decide (e.1 = b.1), hown, ih hnodup hothers]
    rfl

/-- An interleaving of sections opens as often as there are sections. -/
theorem countP_opens {opens closes : α → Bool} (hnodup : (blocks.map Prod.fst).Nodup)
    (hsections : Sections opens closes blocks) (h : Merges blocks events) :
    events.countP (fun e => opens e.2) = blocks.length := by
  have hone : blocks.map (fun b => b.2.countP opens) = blocks.map fun _ => 1 := by
    refine List.map_congr_left fun b hb => ?_
    obtain ⟨first, inner, last, hsection⟩ := hsections b hb
    exact hsection.countP_opens
  rw [h.countP_eq opens hnodup, hone]
  simp

end Merges

end Interleave
