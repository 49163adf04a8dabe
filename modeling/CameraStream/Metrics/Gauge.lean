/-!
# Gauges

A gauge shows a level as it is now. It is kept in floating point, with 53 significant bits, and read
as a number of 64 bits. Levels of at most 53 bits are shown as they are (`gaugeReading_eq_self`);
for others a gauge shows the nearest level it can keep, and of two that are equally near the one that
is an even multiple of the unit lost.
-/

namespace CameraStream

/-- The multiple of a unit nearest to `n`; half a unit goes to the even multiple. -/
def roundTo (unit n : Nat) : Nat :=
  if unit < 2 * (n % unit) ∨ (2 * (n % unit) = unit ∧ n / unit % 2 = 1) then
    unit * (n / unit) + unit
  else unit * (n / unit)

/-- The nearest number with at most `bits` significant bits. -/
def nearestWithBits (bits n : Nat) : Nat := roundTo (1 <<< (n.log2 + 1 - bits)) n

theorem nearestWithBits_eq_self {bits n : Nat} (h : n.log2 < bits) :
    nearestWithBits bits n = n := by
  have none : n.log2 + 1 - bits = 0 := by omega
  simp [nearestWithBits, roundTo, none, Nat.mod_one]

/-- What a gauge shows of a level. -/
def gaugeReading (level : Nat) : Nat :=
  if UInt64.size ≤ nearestWithBits 53 level then UInt64.size - 1 else nearestWithBits 53 level

theorem gaugeReading_eq_self {level : Nat} (h : level.log2 < 53) : gaugeReading level = level := by
  have small : level < UInt64.size := by
    by_cases zero : level = 0
    · subst zero
      decide
    · have := (Nat.log2_lt zero).1 h
      exact Nat.lt_trans this (by decide)
  rw [gaugeReading, nearestWithBits_eq_self h, if_neg (Nat.not_le.2 small)]

end CameraStream
