import Mathlib.Data.List.Basic
import Mathlib.Tactic.Ring

/-!
# Decoders of byte strings

A decoder consumes a prefix of a byte string and returns the rest. `Decodes d bytes a`
says that `d` reads exactly `bytes` as `a`, whatever follows. `Canonical d encode` is the
converse: what `d` has consumed for a result is the encoding of the result. Both are closed
under the monad operations, so that the facts about a composite format are assembled from
those about its fields. Nothing here depends on a particular format.
-/

namespace ByteCodec

/-- A decoder consumes a prefix of its input, or fails with an error. -/
def Decoder (ε α : Type) : Type := List UInt8 → Except ε (α × List UInt8)

namespace Decoder

variable {ε α β : Type}

/-- The decoder that reads nothing. -/
protected def pure (a : α) : Decoder ε α := fun bytes => .ok (a, bytes)

/-- Read with `d`, then read the rest with `f`. -/
protected def bind (d : Decoder ε α) (f : α → Decoder ε β) : Decoder ε β := fun bytes =>
  match d bytes with
  | .ok (a, rest) => f a rest
  | .error e => .error e

instance : Monad (Decoder ε) where
  pure := Decoder.pure
  bind := Decoder.bind

/-- The decoder that always fails. -/
def fail (e : ε) : Decoder ε α := fun _ => .error e

/-- Read exactly `n` bytes, failing with `eof` when fewer are left. -/
def take (eof : ε) (n : ℕ) : Decoder ε {bytes : List UInt8 // bytes.length = n} := fun bytes =>
  if h : n ≤ bytes.length then .ok (⟨bytes.take n, by simp [h]⟩, bytes.drop n) else .error eof

/-- Run a decoder on a whole byte string, ignoring trailing input. -/
def runPrefix (d : Decoder ε α) (bytes : List UInt8) : Except ε α := (d bytes).map Prod.fst

end Decoder

open Decoder

variable {ε α β : Type}

/-- The decoder reads `bytes` as `a` and leaves everything after them untouched. -/
def Decodes (d : Decoder ε α) (bytes : List UInt8) (a : α) : Prop :=
  ∀ rest, d (bytes ++ rest) = .ok (a, rest)

/-- Reading nothing decodes the empty byte string. -/
theorem Decodes.pure (a : α) : Decodes (Pure.pure a : Decoder ε α) [] a := fun _ => rfl

/-- Sequencing two decoders concatenates what they read. -/
theorem Decodes.bind {d : Decoder ε α} {f : α → Decoder ε β} {first second : List UInt8}
    {a : α} {b : β} (hd : Decodes d first a) (hf : Decodes (f a) second b) :
    Decodes (d >>= f) (first ++ second) b := by
  intro rest
  change Decoder.bind d f (first ++ second ++ rest) = _
  rw [List.append_assoc, Decoder.bind, hd]
  exact hf rest

/-- Post-processing the result of a decoder reads the same bytes. -/
theorem Decodes.map {d : Decoder ε α} {bytes : List UInt8} {a : α} (hd : Decodes d bytes a)
    (f : α → β) : Decodes (d >>= fun x => Pure.pure (f x)) bytes (f a) := by
  have h : Decodes (d >>= fun x => Pure.pure (f x)) (bytes ++ []) (f a) :=
    hd.bind (Decodes.pure (f a))
  rwa [List.append_nil] at h

/-- A decoder that reads `bytes` also reads them in front of trailing input. -/
theorem Decodes.runPrefix {d : Decoder ε α} {bytes : List UInt8} {a : α}
    (hd : Decodes d bytes a) (rest : List UInt8) : d.runPrefix (bytes ++ rest) = .ok a := by
  rw [Decoder.runPrefix, hd]
  rfl

/-- Exactly `n` bytes are read as themselves. -/
theorem decodes_take (eof : ε) {n : ℕ} (bytes : List UInt8) (hn : bytes.length = n) :
    Decodes (Decoder.take eof n) bytes ⟨bytes, hn⟩ := by
  intro rest
  have hle : n ≤ (bytes ++ rest).length := by rw [List.length_append]; omega
  simp only [Decoder.take, dif_pos hle, Except.ok.injEq, Prod.mk.injEq, Subtype.mk.injEq]
  exact ⟨List.take_left' hn, List.drop_left' hn⟩

/-- After `first` was read, a decoder that succeeds has consumed what is left of the encoding of
its result. -/
def CanonicalAfter (first : List UInt8) (d : Decoder ε α) (encode : α → List UInt8) : Prop :=
  ∀ bytes a rest, d bytes = .ok (a, rest) → first ++ bytes = encode a ++ rest

/-- A decoder that succeeds has consumed exactly the encoding of its result. -/
abbrev Canonical (d : Decoder ε α) (encode : α → List UInt8) : Prop := CanonicalAfter [] d encode

/-- A sequence of decoders succeeds when both do, one after the other. -/
theorem exists_of_bind {d : Decoder ε α} {f : α → Decoder ε β} {bytes rest : List UInt8} {b : β}
    (h : (d >>= f) bytes = .ok (b, rest)) :
    ∃ a middle, d bytes = .ok (a, middle) ∧ f a middle = .ok (b, rest) := by
  change Decoder.bind d f bytes = _ at h
  rw [Decoder.bind] at h
  cases hd : d bytes with
  | error e =>
    rw [hd] at h
    cases h
  | ok result =>
    rw [hd] at h
    exact ⟨result.1, result.2, rfl, h⟩

/-- A field is followed by decoders that know it was read. -/
theorem Canonical.bind {d : Decoder ε α} {f : α → Decoder ε β} {encode : α → List UInt8}
    {whole : β → List UInt8} {first : List UInt8} (hd : Canonical d encode)
    (hf : ∀ a, CanonicalAfter (first ++ encode a) (f a) whole) :
    CanonicalAfter first (d >>= f) whole := by
  intro bytes b rest h
  obtain ⟨a, middle, ha, hb⟩ := exists_of_bind h
  have hfirst : bytes = encode a ++ middle := hd bytes a middle ha
  rw [hfirst, ← List.append_assoc]
  exact hf a middle b rest hb

/-- A result whose encoding was read is returned. -/
theorem CanonicalAfter.pure {first : List UInt8} {a : α} {encode : α → List UInt8}
    (h : first = encode a) : CanonicalAfter (ε := ε) first (Pure.pure a) encode := by
  intro bytes b rest hb
  obtain ⟨rfl, rfl⟩ := Prod.mk.inj (Except.ok.inj hb)
  rw [h]

/-- The decoder that fails returns nothing. -/
theorem CanonicalAfter.fail (first : List UInt8) (e : ε) (encode : α → List UInt8) :
    CanonicalAfter first (Decoder.fail e) encode := fun _ _ _ h => nomatch h

/-- The bytes that are read exactly are consumed. -/
theorem canonical_take (eof : ε) (n : ℕ) :
    Canonical (Decoder.take eof n) fun bytes => bytes.val := by
  intro bytes a rest h
  rw [Decoder.take] at h
  split at h
  · obtain ⟨rfl, rfl⟩ := Prod.mk.inj (Except.ok.inj h)
    exact (List.take_append_drop n bytes).symm
  · cases h

/-- The `width` low-order bytes of a number, least significant first. -/
def leBytes : ℕ → ℕ → List UInt8
  | 0, _ => []
  | width + 1, n => UInt8.ofNat (n % 256) :: leBytes width (n / 256)

/-- The number a little-endian byte string stands for. -/
def leValue : List UInt8 → ℕ
  | [] => 0
  | b :: bytes => b.toNat + 256 * leValue bytes

/-- A little-endian number occupies exactly its width. -/
@[simp] theorem leBytes_length (width n : ℕ) : (leBytes width n).length = width := by
  induction width generalizing n with
  | zero => rfl
  | succ width ih => simp [leBytes, ih]

/-- Reading back the `width` low-order bytes gives the number modulo `256 ^ width`. -/
theorem leValue_leBytes_mod (width n : ℕ) : leValue (leBytes width n) = n % 256 ^ width := by
  induction width generalizing n with
  | zero => simp [leBytes, leValue, Nat.mod_one]
  | succ width ih =>
    have hbyte : (UInt8.ofNat (n % 256)).toNat = n % 256 := by
      rw [UInt8.toNat_ofNat']
      omega
    rw [leBytes, leValue, ih, hbyte, pow_succ', Nat.mod_mul]

/-- A number that fits its width is read back unchanged. -/
theorem leValue_leBytes {width n : ℕ} (hn : n < 256 ^ width) :
    leValue (leBytes width n) = n := by
  rw [leValue_leBytes_mod, Nat.mod_eq_of_lt hn]

/-- A byte string is the number that it stands for, in its own width. -/
theorem leBytes_leValue {width : ℕ} {bytes : List UInt8} (hwidth : bytes.length = width) :
    leBytes width (leValue bytes) = bytes := by
  subst hwidth
  induction bytes with
  | nil => rfl
  | cons b bytes ih =>
    have hb := b.toNat_lt
    have hlow : (b.toNat + 256 * leValue bytes) % 256 = b.toNat := by omega
    have hhigh : (b.toNat + 256 * leValue bytes) / 256 = leValue bytes := by omega
    rw [List.length_cons, leValue, leBytes, hlow, hhigh, ih, UInt8.ofNat_toNat]

/-- A byte string stands for a number below its range. -/
theorem leValue_lt (bytes : List UInt8) : leValue bytes < 256 ^ bytes.length := by
  induction bytes with
  | nil => simp [leValue]
  | cons b bytes ih =>
    have hb := b.toNat_lt
    rw [leValue, List.length_cons, pow_succ']
    omega

end ByteCodec
