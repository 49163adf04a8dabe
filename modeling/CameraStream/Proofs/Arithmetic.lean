import Mathlib.Algebra.Group.Nat.Defs

/-!
# Arithmetic in machine words

Sums, products and the like of unsigned words, with no result where the machine has none: a sum or
product has to fit into 64 bits, a difference must not be negative, nor a divisor zero. Words stand
for numbers, so that each operation is the one on numbers as soon as its condition holds.
-/

namespace CameraStream.Word

/-- A number as a word of some bits, if it fits. -/
def fit? (bits n : Nat) : Option Nat := if n < 2 ^ bits then some n else none

def add? (a b : Nat) : Option Nat := fit? 64 (a + b)

def mul? (a b : Nat) : Option Nat := fit? 64 (a * b)

def sub? (a b : Nat) : Option Nat := if b ≤ a then some (a - b) else none

def div? (a b : Nat) : Option Nat := if b = 0 then none else some (a / b)

def mod? (a b : Nat) : Option Nat := if b = 0 then none else some (a % b)

variable {a b : Nat}

theorem fit?_eq {bits n : Nat} (h : n < 2 ^ bits) : fit? bits n = some n := if_pos h

theorem add?_eq (h : a + b < 2 ^ 64) : add? a b = some (a + b) := fit?_eq h

theorem mul?_eq (h : a * b < 2 ^ 64) : mul? a b = some (a * b) := fit?_eq h

theorem sub?_eq (h : b ≤ a) : sub? a b = some (a - b) := if_pos h

theorem div?_eq (h : 0 < b) : div? a b = some (a / b) := if_neg (Nat.ne_of_gt h)

theorem mod?_eq (h : 0 < b) : mod? a b = some (a % b) := if_neg (Nat.ne_of_gt h)

end CameraStream.Word
