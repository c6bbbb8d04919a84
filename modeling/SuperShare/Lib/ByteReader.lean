import Mathlib.Data.List.Basic

/-!
# Programs that read a byte stream

A `ByteReader` is a program whose only effect is to read an exact number of bytes from a
stream, learning `none` when the stream ends first. Three semantics are given: `run` on a
stream that is known to its end, `runPieces` on a stream that arrives in pieces, and
`attempt` on the bytes present so far, which is undefined while the program still waits.
The first two agree however the stream is cut, and a completed attempt is final.
-/

/-- A program that reads exact numbers of bytes and returns an `α`. -/
inductive ByteReader (α : Type) : Type
  /-- Return a result. -/
  | done (a : α)
  /-- Read exactly `n` bytes and continue with them, or with `none` at the end of the stream. -/
  | readExact (n : ℕ) (next : Option (List UInt8) → ByteReader α)

namespace ByteReader

variable {α β : Type}

/-- Run `f` on the result of a program. -/
protected def bind : ByteReader α → (α → ByteReader β) → ByteReader β
  | done a, f => f a
  | readExact n next, f => readExact n fun bytes => (next bytes).bind f

instance : Monad ByteReader where
  pure := done
  bind := ByteReader.bind

/-- The program that reads `n` bytes. -/
def read (n : ℕ) : ByteReader (Option (List UInt8)) := readExact n done

/-- Run on all that the stream will ever hold: the result and the bytes left. A read that the
stream cannot satisfy consumes what is left. -/
def run : ByteReader α → List UInt8 → α × List UInt8
  | done a, bytes => (a, bytes)
  | readExact n next, bytes =>
      if n ≤ bytes.length then (next (some (bytes.take n))).run (bytes.drop n)
      else (next none).run []

/-- Run on the bytes present so far: `none` while the program waits for more. -/
def attempt : ByteReader α → List UInt8 → Option (α × List UInt8)
  | done a, bytes => some (a, bytes)
  | readExact n next, bytes =>
      if n ≤ bytes.length then (next (some (bytes.take n))).attempt (bytes.drop n) else none

/-- Read exactly `n` bytes from a stream that arrives in pieces, waiting for the next piece
while fewer are present. -/
def takePieces : ℕ → List (List UInt8) → Option (List UInt8 × List (List UInt8))
  | 0, [] => some ([], [])
  | _ + 1, [] => none
  | n, piece :: pieces =>
      if n ≤ piece.length then some (piece.take n, piece.drop n :: pieces)
      else (takePieces (n - piece.length) pieces).map fun (bytes, rest) => (piece ++ bytes, rest)

/-- Run on a stream that arrives in pieces and then ends: the result and the pieces left. -/
def runPieces : ByteReader α → List (List UInt8) → α × List (List UInt8)
  | done a, pieces => (a, pieces)
  | readExact n next, pieces =>
      match takePieces n pieces with
      | some (bytes, rest) => (next (some bytes)).runPieces rest
      | none => (next none).runPieces []

/-- Reading from pieces succeeds exactly when they hold enough bytes, and then splits
their concatenation. -/
theorem takePieces_eq (n : ℕ) (pieces : List (List UInt8)) :
    (takePieces n pieces).map (fun split => (split.1, split.2.flatten)) =
      if n ≤ pieces.flatten.length then some (pieces.flatten.take n, pieces.flatten.drop n)
      else none := by
  induction pieces generalizing n with
  | nil => cases n <;> simp [takePieces]
  | cons piece pieces ih =>
    by_cases hn : n ≤ piece.length
    · have hflat : n ≤ (piece :: pieces).flatten.length := by
        rw [List.flatten_cons, List.length_append]
        omega
      rw [takePieces, if_pos hn, if_pos hflat, List.flatten_cons,
        List.take_append_of_le_length hn, List.drop_append_of_le_length hn]
      rfl
    · have hlt : piece.length < n := Nat.lt_of_not_le hn
      rw [takePieces, if_neg hn, Option.map_map]
      have hstep := congrArg (Option.map fun split : List UInt8 × List UInt8 =>
        (piece ++ split.1, split.2)) (ih (n - piece.length))
      rw [Option.map_map] at hstep
      refine Eq.trans hstep ?_
      have hiff : n - piece.length ≤ pieces.flatten.length ↔
          n ≤ (piece :: pieces).flatten.length := by
        rw [List.flatten_cons, List.length_append]
        omega
      by_cases hle : n - piece.length ≤ pieces.flatten.length
      · rw [if_pos hle, if_pos (hiff.mp hle), List.flatten_cons,
          List.take_append, List.drop_append, List.take_of_length_le (Nat.le_of_lt hlt),
          List.drop_of_length_le (Nat.le_of_lt hlt)]
        rfl
      · rw [if_neg hle, if_neg (fun h => hle (hiff.mpr h))]
        rfl

/-- However the stream is cut into pieces, the result is that of the whole stream, and the
pieces left hold the bytes left. -/
theorem runPieces_eq_run (r : ByteReader α) (pieces : List (List UInt8)) :
    ((r.runPieces pieces).1, (r.runPieces pieces).2.flatten) = r.run pieces.flatten := by
  induction r generalizing pieces with
  | done a => rfl
  | readExact n next ih =>
    have hsplit := takePieces_eq n pieces
    cases htake : takePieces n pieces with
    | none =>
      rw [htake] at hsplit
      have hshort : ¬ n ≤ pieces.flatten.length := by
        intro hle
        simp only [if_pos hle, Option.map_none, reduceCtorEq] at hsplit
      simp only [runPieces, run, htake, if_neg hshort]
      simpa using ih none []
    | some split =>
      rw [htake, Option.map_some] at hsplit
      have hle : n ≤ pieces.flatten.length := by
        by_contra hshort
        simp only [if_neg hshort, reduceCtorEq] at hsplit
      rw [if_pos hle, Option.some.injEq, Prod.mk.injEq] at hsplit
      simp only [runPieces, run, htake, if_pos hle]
      rw [← hsplit.1, ← hsplit.2]
      exact ih (some split.1) split.2

/-- A completed attempt is final: later bytes are left over. -/
theorem attempt_append {r : ByteReader α} {bytes rest : List UInt8} {a : α}
    (h : r.attempt bytes = some (a, rest)) (more : List UInt8) :
    r.attempt (bytes ++ more) = some (a, rest ++ more) := by
  induction r generalizing bytes with
  | done b =>
    simp only [attempt, Option.some.injEq, Prod.mk.injEq] at h ⊢
    exact ⟨h.1, by rw [h.2]⟩
  | readExact n next ih =>
    rw [attempt] at h ⊢
    by_cases hn : n ≤ bytes.length
    · have hn' : n ≤ (bytes ++ more).length := by rw [List.length_append]; omega
      rw [if_pos hn] at h
      rw [if_pos hn', List.take_append_of_le_length hn, List.drop_append_of_le_length hn]
      exact ih _ h
    · simp [if_neg hn] at h

/-- A completed attempt is what the run on the whole stream does. -/
theorem run_of_attempt {r : ByteReader α} {bytes rest : List UInt8} {a : α}
    (h : r.attempt bytes = some (a, rest)) : r.run bytes = (a, rest) := by
  induction r generalizing bytes with
  | done b => simpa [attempt, run] using h
  | readExact n next ih =>
    rw [attempt] at h
    by_cases hn : n ≤ bytes.length
    · rw [if_pos hn] at h
      rw [run, if_pos hn]
      exact ih _ h
    · simp [if_neg hn] at h

/-- While bytes the program needs are missing, it waits: a prefix that ends before the
consumed bytes do completes nothing. -/
theorem attempt_eq_none {r : ByteReader α} {bytes more rest : List UInt8} {a : α}
    (h : r.attempt (bytes ++ more) = some (a, rest)) (hrest : rest.length < more.length) :
    r.attempt bytes = none := by
  cases hbytes : r.attempt bytes with
  | none => rfl
  | some result =>
    have hfinal := attempt_append hbytes more
    rw [h, Option.some.injEq, Prod.mk.injEq] at hfinal
    have hlength := congrArg List.length hfinal.2
    rw [List.length_append] at hlength
    omega

end ByteReader
