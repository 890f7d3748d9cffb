/-! # Doubles — natural numbers in 53 binary digits

    A double has 53 significant binary digits.  A natural number that needs
    more of them is rounded to the nearest double, and to the one with an
    even last digit if two are equally near. -/

namespace Handheld.Double

/-- The number of significant binary digits. -/
def precision : Nat := 53

/-- The least number that is rounded beyond the greatest double. -/
def limit : Nat := Nat.pow 2 1024 - Nat.pow 2 970

/-- The distance of the doubles around a number, if there are more than one
    within reach of it. -/
def spacing (n : Nat) : Nat :=
  Nat.pow 2 (n.log2 + 1 - precision)

/-- The nearest double, were there no greatest one. -/
def nearest (n : Nat) : Nat :=
  let unit := spacing n
  let below := n / unit
  let past := n % unit
  if unit < 2 * past ∨ (2 * past = unit ∧ below % 2 = 1) then
    (below + 1) * unit
  else below * unit

theorem spacing_pos (n : Nat) : 0 < spacing n :=
  Nat.pow_pos (by decide)

/-- Rounding moves a number by at most half the distance of the doubles
    around it. -/
theorem nearest_close (n : Nat) :
    2 * nearest n ≤ 2 * n + spacing n ∧ 2 * n ≤ 2 * nearest n + spacing n := by
  have h := Nat.div_add_mod' n (spacing n)
  have hr := Nat.mod_lt n (spacing_pos n)
  simp only [nearest]
  split
  · rw [Nat.add_mul]
    omega
  · omega

end Handheld.Double
