import Mathlib.Data.Nat.Log
import Mathlib.Tactic.Ring

/-!
# Integers as single-precision floats

The conversion of a 64-bit signed integer to the bit pattern of the nearest IEEE 754 binary32
number, ties to even, and the conversion back, which truncates and saturates. An integer comes
back unchanged exactly if it has at most 24 significant bits, or is the largest one: this is
rounded up, out of the range, and saturates to itself.
-/

namespace Binary32

/-- A quotient by a power of two, rounded to the nearest, ties to even. -/
def roundShift (n s : ℕ) : ℕ :=
  if 2 ^ s < 2 * (n % 2 ^ s) ∨ (2 * (n % 2 ^ s) = 2 ^ s ∧ n / 2 ^ s % 2 = 1) then n / 2 ^ s + 1
  else n / 2 ^ s

/-- The significand of a number with its leading bit at position 23. Rounding may carry it to
position 24. -/
def significand (n : ℕ) : ℕ :=
  if n.log2 ≤ 23 then n * 2 ^ (23 - n.log2) else roundShift n (n.log2 - 23)

/-- The pattern of a natural number. The leading bit of the significand is added to the exponent
field, and with it a carry. -/
def magnitude (n : ℕ) : ℕ :=
  if n = 0 then 0 else (n.log2 + 126) * 2 ^ 23 + significand n

/-- `as f32` on a 64-bit signed integer. -/
def ofInt (d : ℤ) : UInt32 :=
  UInt32.ofNat (magnitude d.natAbs + if d < 0 then 2 ^ 31 else 0)

/-- The integral part of the number with an exponent and a fraction field. -/
def truncate (exponent fraction : ℕ) : ℕ :=
  if exponent = 0 then 0
  else if exponent < 150 then (2 ^ 23 + fraction) / 2 ^ (150 - exponent)
  else (2 ^ 23 + fraction) * 2 ^ (exponent - 150)

/-- `as i64` on a pattern: infinities saturate and what is not a number gives zero. -/
def toInt64 (bits : UInt32) : ℤ :=
  let negative : Bool := 2 ^ 31 ≤ bits.toNat
  let exponent := bits.toNat / 2 ^ 23 % 2 ^ 8
  let fraction := bits.toNat % 2 ^ 23
  if exponent = 255 then
    if fraction = 0 then if negative then -2 ^ 63 else 2 ^ 63 - 1 else 0
  else if negative then max (-2 ^ 63) (-(truncate exponent fraction : ℤ))
  else min (2 ^ 63 - 1) (truncate exponent fraction)

/-- A number with at most 24 significant bits. -/
def Representable (n : ℕ) : Prop := ∃ m k, m < 2 ^ 24 ∧ n = m * 2 ^ k

/-- A number as it is after rounding to 24 significant bits. -/
def rounded (n : ℕ) : ℕ :=
  if n.log2 ≤ 23 then n else roundShift n (n.log2 - 23) * 2 ^ (n.log2 - 23)

/-- A quotient rounds to itself exactly if it is exact. -/
theorem roundShift_mul_eq_iff (n s : ℕ) : roundShift n s * 2 ^ s = n ↔ 2 ^ s ∣ n := by
  have hpos : 0 < 2 ^ s := Nat.two_pow_pos s
  constructor
  · intro h
    exact ⟨roundShift n s, by rw [Nat.mul_comm]; exact h.symm⟩
  · intro hdvd
    have hzero : n % 2 ^ s = 0 := Nat.mod_eq_zero_of_dvd hdvd
    have hround : roundShift n s = n / 2 ^ s := by
      refine if_neg ?_
      rw [hzero]
      omega
    rw [hround]
    exact Nat.div_mul_cancel hdvd

/-- A rounded quotient lies between the quotient and its successor. -/
theorem roundShift_bounds (n s : ℕ) :
    n / 2 ^ s ≤ roundShift n s ∧ roundShift n s ≤ n / 2 ^ s + 1 := by
  unfold roundShift
  split
  · omega
  · omega

/-- The leading bit of a significand is at position 23, or a carry at 24. -/
theorem significand_bounds {n : ℕ} (hn : n ≠ 0) :
    2 ^ 23 ≤ significand n ∧ significand n ≤ 2 ^ 24 ∧
      (n.log2 ≤ 23 → significand n < 2 ^ 24) := by
  have hlow : 2 ^ n.log2 ≤ n := Nat.log2_self_le hn
  have hhigh : n < 2 ^ (n.log2 + 1) := Nat.lt_log2_self
  by_cases hsmall : n.log2 ≤ 23
  · have hsignificand : significand n = n * 2 ^ (23 - n.log2) := if_pos hsmall
    have hpos : 0 < 2 ^ (23 - n.log2) := Nat.two_pow_pos _
    have hleft : 2 ^ n.log2 * 2 ^ (23 - n.log2) = 2 ^ 23 := by
      rw [← Nat.pow_add]
      congr 1
      omega
    have hright : 2 ^ (n.log2 + 1) * 2 ^ (23 - n.log2) = 2 ^ 24 := by
      rw [← Nat.pow_add]
      congr 1
      omega
    have hge : 2 ^ 23 ≤ significand n := by
      rw [hsignificand, ← hleft]
      exact Nat.mul_le_mul_right _ hlow
    have hlt : significand n < 2 ^ 24 := by
      rw [hsignificand, ← hright]
      exact Nat.mul_lt_mul_of_pos_right hhigh hpos
    exact ⟨hge, Nat.le_of_lt hlt, fun _ => hlt⟩
  · have hsignificand : significand n = roundShift n (n.log2 - 23) := if_neg hsmall
    have hpos : 0 < 2 ^ (n.log2 - 23) := Nat.two_pow_pos _
    have hge : 2 ^ 23 ≤ n / 2 ^ (n.log2 - 23) := by
      rw [Nat.le_div_iff_mul_le hpos, ← Nat.pow_add]
      have hexp : 23 + (n.log2 - 23) = n.log2 := by omega
      rwa [hexp]
    have hlt : n / 2 ^ (n.log2 - 23) < 2 ^ 24 := by
      rw [Nat.div_lt_iff_lt_mul hpos, ← Nat.pow_add]
      have hexp : 24 + (n.log2 - 23) = n.log2 + 1 := by omega
      rwa [hexp]
    have hbounds := roundShift_bounds n (n.log2 - 23)
    rw [hsignificand]
    exact ⟨by omega, by omega, fun h => absurd h hsmall⟩

/-- Truncating the pattern of a natural number gives the rounded number. -/
theorem truncate_magnitude {n : ℕ} (hn : n ≠ 0) :
    truncate (magnitude n / 2 ^ 23) (magnitude n % 2 ^ 23) = rounded n := by
  obtain ⟨hge, hle, hlt⟩ := significand_bounds hn
  have hmagnitude : magnitude n = (n.log2 + 126) * 2 ^ 23 + significand n := if_neg hn
  by_cases hcarry : significand n = 2 ^ 24
  · have hlarge : ¬ n.log2 ≤ 23 := fun h => absurd hcarry (Nat.ne_of_lt (hlt h))
    have hexponent : magnitude n / 2 ^ 23 = n.log2 + 128 := by omega
    have hfraction : magnitude n % 2 ^ 23 = 0 := by omega
    have hround : roundShift n (n.log2 - 23) = 2 ^ 24 := by
      rw [← hcarry, significand, if_neg hlarge]
    have hscale : (2 ^ 23 + 0) * 2 ^ (n.log2 + 128 - 150) = 2 ^ 24 * 2 ^ (n.log2 - 23) := by
      have hexp : 23 + (n.log2 + 128 - 150) = 24 + (n.log2 - 23) := by omega
      rw [Nat.add_zero (2 ^ 23), ← Nat.pow_add, ← Nat.pow_add, hexp]
    rw [hexponent, hfraction, truncate, if_neg (by omega), if_neg (by omega), rounded,
      if_neg hlarge, hround]
    exact hscale
  · have hexponent : magnitude n / 2 ^ 23 = n.log2 + 127 := by omega
    have hfraction : 2 ^ 23 + magnitude n % 2 ^ 23 = significand n := by omega
    rw [hexponent, truncate, if_neg (by omega), hfraction, rounded]
    by_cases hsmall : n.log2 ≤ 23
    · have hsignificand : significand n = n * 2 ^ (23 - n.log2) := if_pos hsmall
      rw [if_pos hsmall, hsignificand]
      by_cases hshift : n.log2 + 127 < 150
      · have hexp : 150 - (n.log2 + 127) = 23 - n.log2 := by omega
        rw [if_pos hshift, hexp, Nat.mul_div_cancel _ (Nat.two_pow_pos _)]
      · have hexact : n.log2 = 23 := by omega
        rw [if_neg hshift, hexact]
        omega
    · have hsignificand : significand n = roundShift n (n.log2 - 23) := if_neg hsmall
      have hexp : n.log2 + 127 - 150 = n.log2 - 23 := by omega
      rw [if_neg (by omega), if_neg hsmall, hsignificand, hexp]

/-- A number rounds to itself exactly if it has at most 24 significant bits. -/
theorem rounded_eq_iff (n : ℕ) : rounded n = n ↔ Representable n := by
  by_cases hzero : n = 0
  · subst hzero
    exact iff_of_true rfl ⟨0, 0, by decide, rfl⟩
  have hlow : 2 ^ n.log2 ≤ n := Nat.log2_self_le hzero
  have hhigh : n < 2 ^ (n.log2 + 1) := Nat.lt_log2_self
  by_cases hsmall : n.log2 ≤ 23
  · have hpow : 2 ^ (n.log2 + 1) ≤ 2 ^ 24 := Nat.pow_le_pow_right (by decide) (by omega)
    refine iff_of_true (if_pos hsmall) ⟨n, 0, by omega, by simp⟩
  rw [rounded, if_neg hsmall, roundShift_mul_eq_iff]
  constructor
  · rintro ⟨m, hm⟩
    refine ⟨m, n.log2 - 23, ?_, by rw [Nat.mul_comm]; exact hm⟩
    have hpos : 0 < 2 ^ (n.log2 - 23) := Nat.two_pow_pos _
    have hsplit : 2 ^ (n.log2 + 1) = 2 ^ (n.log2 - 23) * 2 ^ 24 := by
      rw [← Nat.pow_add]
      congr 1
      omega
    have hscaled : 2 ^ (n.log2 - 23) * m < 2 ^ (n.log2 - 23) * 2 ^ 24 := by
      rw [← hm, ← hsplit]
      exact hhigh
    exact Nat.lt_of_mul_lt_mul_left hscaled
  · rintro ⟨m, k, hm, rfl⟩
    have hk : (m * 2 ^ k).log2 - 23 ≤ k := by
      have hlt : 2 ^ (m * 2 ^ k).log2 < 2 ^ (24 + k) := by
        calc 2 ^ (m * 2 ^ k).log2 ≤ m * 2 ^ k := hlow
          _ < 2 ^ 24 * 2 ^ k := Nat.mul_lt_mul_of_pos_right hm (Nat.two_pow_pos k)
          _ = 2 ^ (24 + k) := (Nat.pow_add 2 24 k).symm
      have := (Nat.pow_lt_pow_iff_right (by decide)).mp hlt
      omega
    exact Dvd.dvd.mul_left (Nat.pow_dvd_pow 2 hk) m

/-- The pattern of a 64-bit number leaves room for the sign. -/
theorem magnitude_lt {n : ℕ} (hn : n ≤ 2 ^ 63) : magnitude n < 192 * 2 ^ 23 := by
  by_cases hzero : n = 0
  · subst hzero
    decide
  have hmagnitude : magnitude n = (n.log2 + 126) * 2 ^ 23 + significand n := if_neg hzero
  have hsignificand := (significand_bounds hzero).2.1
  have hlog : n.log2 < 64 := by
    rw [Nat.log2_lt hzero]
    omega
  omega

/-- Truncating the pattern of an integer gives the rounded number, with the sign of the integer
and within the range. -/
theorem toInt64_ofInt {d : ℤ} (hrange : d.natAbs ≤ 2 ^ 63) :
    toInt64 (ofInt d) =
      if d < 0 then max (-2 ^ 63) (-(rounded d.natAbs : ℤ))
      else min (2 ^ 63 - 1) (rounded d.natAbs : ℤ) := by
  have hlt := magnitude_lt hrange
  have htruncate : truncate (magnitude d.natAbs / 2 ^ 23) (magnitude d.natAbs % 2 ^ 23) =
      rounded d.natAbs := by
    by_cases hzero : d.natAbs = 0
    · rw [hzero]
      decide
    · exact truncate_magnitude hzero
  have hbits : (ofInt d).toNat = magnitude d.natAbs + if d < 0 then 2 ^ 31 else 0 := by
    rw [ofInt, UInt32.toNat_ofNat']
    refine Nat.mod_eq_of_lt ?_
    split <;> omega
  have hexponent : (ofInt d).toNat / 2 ^ 23 % 2 ^ 8 = magnitude d.natAbs / 2 ^ 23 := by
    rw [hbits]
    split <;> omega
  have hfraction : (ofInt d).toNat % 2 ^ 23 = magnitude d.natAbs % 2 ^ 23 := by
    rw [hbits]
    split <;> omega
  have hnegative : 2 ^ 31 ≤ (ofInt d).toNat ↔ d < 0 := by
    rw [hbits]
    split <;> omega
  have hfinite : magnitude d.natAbs / 2 ^ 23 ≠ 255 := by omega
  simp only [toInt64, hexponent, hfraction, hnegative, htruncate, if_neg hfinite,
    decide_eq_true_eq]

/-- An integer is back after the conversions exactly if it has at most 24 significant bits or is
the largest of the range. -/
theorem toInt64_ofInt_iff {d : ℤ} (hlow : -2 ^ 63 ≤ d) (hhigh : d < 2 ^ 63) :
    toInt64 (ofInt d) = d ↔ Representable d.natAbs ∨ d = 2 ^ 63 - 1 := by
  rw [toInt64_ofInt (by omega), ← rounded_eq_iff]
  have hlargest : rounded (2 ^ 63 - 1) = 2 ^ 63 := by decide
  have hsmallest : rounded (2 ^ 63) = 2 ^ 63 := by decide
  by_cases hnegative : d < 0
  · rw [if_pos hnegative]
    by_cases hend : d.natAbs = 2 ^ 63
    · rw [hend, hsmallest]
      omega
    · omega
  · rw [if_neg hnegative]
    by_cases hend : d.natAbs = 2 ^ 63 - 1
    · rw [hend, hlargest]
      omega
    · omega

end Binary32
