import Mathlib.Algebra.Group.Nat.Defs
import Mathlib.Order.MinMax
import Mathlib.Tactic.Common

/-!
# Machine arithmetic

Fixed-width unsigned integers as natural numbers: the saturating
operations clamp at the largest value of the width, the plain operators
either panic or wrap, depending on how the program was built
(`overflow-checks`). A panic is `none`.

Everything is parametric in the width: `maxVal w` is the largest value,
and the `_of_lt` lemmas are the exactness side - below the top nothing
is clamped and nothing wraps.
-/

namespace Timechain

/-- Largest value of an unsigned `w`-bit integer. -/
def maxVal (w : Nat) : Nat := 2 ^ w - 1

/-- `a.saturating_add(b)` at width `w`. -/
def satAdd (w a b : Nat) : Nat := min (a + b) (maxVal w)

/-- `a.saturating_plus_one()` at width `w`. -/
def satSucc (w a : Nat) : Nat := satAdd w a 1

/-- `a - b` at width `w`: with overflow checks a negative result panics,
without them it wraps. -/
def subChecked (checks : Bool) (w a b : Nat) : Option Nat :=
  if b ≤ a then some (a - b)
  else if checks then none
  else some (a + 2 ^ w - b)

/-- `a + b` at width `w`: with overflow checks a result that does not fit
panics, without them it wraps. -/
def addChecked (checks : Bool) (w a b : Nat) : Option Nat :=
  if a + b ≤ maxVal w then some (a + b)
  else if checks then none
  else some ((a + b) % 2 ^ w)

theorem maxVal_lt (w : Nat) : maxVal w < 2 ^ w :=
  Nat.sub_lt (Nat.two_pow_pos w) Nat.one_pos

theorem le_maxVal_iff {w a : Nat} : a ≤ maxVal w ↔ a < 2 ^ w := by
  have := Nat.two_pow_pos w
  simp only [maxVal]
  omega

theorem satAdd_le (w a b : Nat) : satAdd w a b ≤ a + b := Nat.min_le_left ..

theorem satAdd_le_max (w a b : Nat) : satAdd w a b ≤ maxVal w := Nat.min_le_right ..

theorem satAdd_of_lt {w a b : Nat} (h : a + b < 2 ^ w) : satAdd w a b = a + b :=
  Nat.min_eq_left (le_maxVal_iff.mpr h)

theorem le_satAdd {w a b : Nat} (h : a ≤ maxVal w) : a ≤ satAdd w a b :=
  Nat.le_min.mpr ⟨Nat.le_add_right .., h⟩

theorem satSucc_of_lt {w a : Nat} (h : a < maxVal w) : satSucc w a = a + 1 :=
  Nat.min_eq_left h

/-- A counter that is only ever bumped by `satSucc` is its number of
bumps, clamped. -/
theorem satSucc_min (w a : Nat) :
    satSucc w (min a (maxVal w)) = min (a + 1) (maxVal w) := by
  simp only [satSucc, satAdd]
  omega

theorem subChecked_of_le {checks : Bool} {w a b : Nat} (h : b ≤ a) :
    subChecked checks w a b = some (a - b) := if_pos h

theorem addChecked_of_lt {checks : Bool} {w a b : Nat} (h : a + b < 2 ^ w) :
    addChecked checks w a b = some (a + b) := if_pos (le_maxVal_iff.mpr h)

end Timechain
