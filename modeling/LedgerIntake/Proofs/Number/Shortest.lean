import LedgerIntake.Number.Shortest
import LedgerIntake.Proofs.Number.Binary64

/-!
# Decimals and the intervals that round to a number

The numbers that round to a magnitude lie between two bounds, and the upper bound of a magnitude is
not above the lower bound of any greater one; where two bounds meet, parity gives the common point
to one of them. So no decimal rounds to two magnitudes.

The search for the shortest decimal goes from coarse grids to fine ones. A grid without a decimal is
at least three quarters of a step wide, so the coefficient found on the next one has at most
eighteen digits; what is found always rounds to the number.
-/

namespace LedgerIntake.Binary64

/-- The decimal unit is positive. Its power is kept abstract, so that it is never computed. -/
theorem decimalUnit_pos : 0 < decimalUnit := by
  unfold decimalUnit
  generalize 1074 = power
  exact Nat.pow_pos (by decide)

/-- Neighbours of a number are apart, so what rounds to it is a proper interval. -/
theorem step_pos (x : Binary64) : 0 < x.step := by
  rw [step, Nat.shiftLeft_eq]
  have unit := decimalUnit_pos
  positivity

section Bounds

variable (x y : Binary64)

/-- One step at least, and two steps at most, lie between a number and the
least one that rounds to it. -/
theorem lowest_bounds : x.lowest ≤ x.quarters - x.step ∧ x.quarters - 2 * x.step ≤ x.lowest := by
  unfold lowest
  split
  · exact ⟨Nat.le_refl _, by omega⟩
  · exact ⟨by omega, Nat.le_refl _⟩

/-- A number that is not zero lies four steps or more above zero, since its
significand is one at least. -/
theorem step_le_quarters (positive : 0 < x.magnitude) : 4 * x.step ≤ x.quarters := by
  have least := significand_pos x positive
  calc 4 * x.step = 1 * (4 * x.step) := (Nat.one_mul _).symm
    _ ≤ x.significand * (4 * x.step) := Nat.mul_le_mul_right _ least

/-- The least number that rounds to one that is not zero is itself above zero. -/
theorem lowest_pos (positive : 0 < x.magnitude) : 0 < x.lowest := by
  have steps := step_le_quarters x positive
  have bounds := lowest_bounds x
  have one := step_pos x
  omega

/-- A greater scale at least doubles the step, so intervals of different scales do not meet. -/
theorem two_mul_step_le (lower : x.scale < y.scale) : 2 * x.step ≤ y.step := by
  rw [step, step, Nat.shiftLeft_eq, Nat.shiftLeft_eq]
  calc 2 * (decimalUnit * 2 ^ x.scale) = decimalUnit * 2 ^ (x.scale + 1) := by
        rw [Nat.pow_succ]
        ring
    _ ≤ decimalUnit * 2 ^ y.scale := Nat.mul_le_mul_left _ (Nat.pow_le_pow_right (by decide) lower)

/-- Above the least scale, the lower bound of the least significand is one step below it. -/
theorem le_lowest (scaled : 0 < y.scale) : (4 * leadingBit - 1) * y.step ≤ y.lowest := by
  have full := le_significand y scaled
  have quarters : y.quarters = 4 * y.significand * y.step := by
    rw [Binary64.quarters]
    ring
  unfold lowest
  split
  · next least =>
    rw [quarters, least.1]
    simp only [leadingBit]
    omega
  · next more =>
    have above : leadingBit + 1 ≤ y.significand := by omega
    have wide : 4 * (leadingBit + 1) * y.step ≤ 4 * y.significand * y.step :=
      Nat.mul_le_mul_right _ (Nat.mul_le_mul_left 4 above)
    rw [quarters]
    simp only [leadingBit] at *
    omega

/-- What rounds to a magnitude lies at or below whatever rounds to a greater one. -/
theorem highest_le_lowest (less : x.magnitude < y.magnitude) : x.highest ≤ y.lowest := by
  rcases scale_lt_or x y less with lower | ⟨same, smaller⟩
  · have narrow : x.significand + 1 ≤ 2 * leadingBit := significand_lt x
    have widest : (x.significand + 1) * (4 * x.step) ≤ 2 * leadingBit * (4 * x.step) :=
      Nat.mul_le_mul_right _ narrow
    have doubled := Nat.mul_le_mul_left (4 * leadingBit - 1) (two_mul_step_le x y lower)
    have bound := le_lowest y (by omega)
    rw [Nat.succ_mul] at widest
    unfold highest quarters
    simp only [leadingBit] at *
    omega
  · have steps : x.step = y.step := by rw [step, step, same]
    have bounds := (lowest_bounds y).2
    have above : (x.significand + 1) * (4 * y.step) ≤ y.significand * (4 * y.step) :=
      Nat.mul_le_mul_right _ smaller
    rw [Nat.succ_mul] at above
    unfold highest quarters at *
    rw [steps]
    omega

end Bounds

section Intervals

variable {x y : Binary64} {quarters : Nat}

/-- What rounds to a number lies between its bounds, and not on them if the number is odd. -/
theorem bounds_of_roundsHere (here : x.roundsHere quarters = true) :
    x.lowest ≤ quarters ∧ quarters ≤ x.highest ∧
      (x.significand % 2 = 1 → x.lowest < quarters ∧ quarters < x.highest) := by
  unfold roundsHere at here
  split at here
  · next even =>
    have bounds := of_decide_eq_true here
    exact ⟨bounds.1, bounds.2, fun odd => by omega⟩
  · have bounds := of_decide_eq_true here
    exact ⟨Nat.le_of_lt bounds.1, Nat.le_of_lt bounds.2, fun _ => bounds⟩

/-- What does not round to a number lies on its bounds or outside of them. -/
theorem outside_of_roundsHere (away : x.roundsHere quarters = false) :
    quarters ≤ x.lowest ∨ x.highest ≤ quarters := by
  unfold roundsHere at away
  split at away
  · have bounds := of_decide_eq_false away
    omega
  · have bounds := of_decide_eq_false away
    omega

/-- A number that is not zero rounds to itself, as it lies strictly between its two bounds. -/
theorem roundsHere_quarters (positive : 0 < x.magnitude) : x.roundsHere x.quarters = true := by
  have bounds := lowest_bounds x
  have steps := step_le_quarters x positive
  have one := step_pos x
  unfold roundsHere
  split
  · apply decide_eq_true
    exact ⟨by omega, by unfold highest; omega⟩
  · apply decide_eq_true
    exact ⟨by omega, by unfold highest; omega⟩

/-- No number of quarters rounds to two magnitudes: intervals of neighbours share a bound at most,
and the bound goes to the even one. -/
theorem magnitude_unique (first : x.roundsHere quarters = true)
    (second : y.roundsHere quarters = true) :
    x.magnitude = y.magnitude := by
  have apart (x y : Binary64) (first : x.roundsHere quarters = true)
    (second : y.roundsHere quarters = true) :
      ¬x.magnitude < y.magnitude := by
    intro less
    have meet := highest_le_lowest x y less
    obtain ⟨-, below, oddBelow⟩ := bounds_of_roundsHere first
    obtain ⟨above, -, oddAbove⟩ := bounds_of_roundsHere second
    -- A common bound belongs to neither unless both are even, and then an odd
    -- magnitude lies between them.
    have even : x.significand % 2 = 0 ∧ y.significand % 2 = 0 := by omega
    rw [significand_mod_two, significand_mod_two] at even
    have room : x.magnitude + 1 < signBit := by
      have greatest := magnitude_lt y
      omega
    have between := magnitude_ofMagnitude false (x.magnitude + 1) room
    generalize ofMagnitude false (x.magnitude + 1) = z at between
    have lower := highest_le_lowest x z (by omega)
    have upper := highest_le_lowest z y (by omega)
    have wide : z.lowest < z.highest := by
      have bounds := (lowest_bounds z).1
      have one := step_pos z
      unfold highest
      omega
    omega
  have notLess := apart x y first second
  have notGreater := apart y x second first
  omega

end Intervals

section Search

variable {tie : Tie} {x : Binary64}

/-- What is found on a grid rounds to the number and is one of the two multiples around it. -/
theorem onGrid_spec {grid coefficient : Nat} (found : x.onGrid tie grid = some coefficient) :
    x.roundsHere (coefficient * (4 * grid)) = true ∧ coefficient ≤ x.quarters / (4 * grid) + 1 := by
  unfold onGrid at found
  dsimp only at found
  split at found
  · cases found
  · next below _ =>
    cases found
    exact ⟨below, Nat.le_succ _⟩
  · next _ above =>
    cases found
    exact ⟨above, Nat.le_refl _⟩
  · next below above =>
    split at found
    · cases found
      exact ⟨below, Nat.le_succ _⟩
    · split at found
      · cases found
        exact ⟨above, Nat.le_refl _⟩
      · split at found
        · cases found
          exact ⟨above, Nat.le_refl _⟩
        · cases found
          split
          · exact ⟨below, Nat.le_succ _⟩
          · exact ⟨above, Nat.le_refl _⟩

/-- A grid without a number that rounds here is at least three quarters of a step wide. -/
theorem step_le_of_onGrid (positive : 0 < x.magnitude) (grid : Nat) (wide : 0 < grid)
    (missed : x.onGrid tie grid = none) : 3 * x.step ≤ 4 * grid := by
  unfold onGrid at missed
  dsimp only at missed
  split at missed
  · next below above =>
    have under := outside_of_roundsHere below
    have outer := outside_of_roundsHere above
    have bounds := lowest_bounds x
    have steps := step_le_quarters x positive
    have one := step_pos x
    have left : x.quarters / (4 * grid) * (4 * grid) ≤ x.quarters := Nat.div_mul_le_self _ _
    have right : x.quarters < x.quarters / (4 * grid) * (4 * grid) + 4 * grid :=
      Nat.lt_div_mul_add (by omega)
    rw [Nat.succ_mul] at outer
    unfold highest at under outer
    omega
  · cases missed
  · cases missed
  · split at missed
    · cases missed
    · split at missed
      · cases missed
      · split at missed <;> cases missed

/-- Coefficients of shortest decimals are not above this. -/
def coefficientBound : Nat := 200000000000000000

/-- What a decimal of a number has to be: a grid, a coefficient of at most eighteen digits, and a
place that rounds to the number. -/
structure Found (x : Binary64) (decimal : Decimal) (places : Nat) : Prop where
  exponent : decimal.exponent = (places : Int) - 1074
  small : decimal.coefficient ≤ coefficientBound
  here : x.roundsHere (decimal.coefficient * (4 * 10 ^ places)) = true

/-- The search finds a decimal if it begins on a grid that leaves few multiples below the number. -/
theorem searchGrids_found (positive : 0 < x.magnitude) (places : Nat)
    (bounded : x.quarters < coefficientBound * (4 * 10 ^ places)) :
    ∃ fewer, Found x (searchGrids tie x places) fewer := by
  induction places with
  | zero =>
    have whole : x.quarters / 4 * (4 * 10 ^ 0) = x.quarters := by
      rw [Nat.pow_zero, Nat.mul_one]
      apply Nat.div_mul_cancel
      exact ⟨x.significand * x.step, by rw [Binary64.quarters]; ring⟩
    refine ⟨0, rfl, ?_, ?_⟩
    · show x.quarters / 4 ≤ coefficientBound
      omega
    · show x.roundsHere (x.quarters / 4 * (4 * 10 ^ 0)) = true
      rw [whole]
      exact roundsHere_quarters positive
  | succ places inductionHypothesis =>
    have grid : 0 < 10 ^ (places + 1) := by positivity
    rw [searchGrids]
    cases found : x.onGrid tie (Nat.pow 10 (places + 1)) with
    | some coefficient =>
      obtain ⟨here, near⟩ := onGrid_spec found
      have quotient : x.quarters / (4 * 10 ^ (places + 1)) < coefficientBound :=
        (Nat.div_lt_iff_lt_mul (by positivity)).mpr bounded
      exact ⟨places + 1, rfl, Nat.le_trans near quotient, here⟩
    | none =>
      have narrow : 3 * x.step ≤ 4 * 10 ^ (places + 1) := step_le_of_onGrid positive _ grid found
      apply inductionHypothesis
      have raised : 4 * 10 ^ (places + 1) = 10 * (4 * 10 ^ places) := by
        rw [Nat.pow_succ]
        ring
      rw [raised] at narrow
      have room : 0 < 4 * 10 ^ places := by positivity
      have thrice : 3 * x.quarters < 3 * (coefficientBound * (4 * 10 ^ places)) := by
        calc 3 * x.quarters = 4 * x.significand * (3 * x.step) := by rw [Binary64.quarters]; ring
          _ ≤ 4 * x.significand * (10 * (4 * 10 ^ places)) := Nat.mul_le_mul_left _ narrow
          _ = 40 * x.significand * (4 * 10 ^ places) := by ring
          _ ≤ 40 * (2 * leadingBit) * (4 * 10 ^ places) :=
            Nat.mul_le_mul_right _ (Nat.mul_le_mul_left 40 (Nat.le_of_lt (significand_lt x)))
          _ < 3 * coefficientBound * (4 * 10 ^ places) :=
            (Nat.mul_lt_mul_right room).mpr (by decide)
          _ = 3 * (coefficientBound * (4 * 10 ^ places)) := Nat.mul_assoc _ _ _
      omega

/-- The first grid leaves few multiples below the number: ninety-three bits are
fewer than twenty-eight digits. -/
theorem quarters_lt (x : Binary64) :
    x.quarters < coefficientBound * (4 * 10 ^ ((x.quarters / 4).log2 * 1234 / 4096 + 1)) := by
  have below : x.quarters / 4 < 2 ^ ((x.quarters / 4).log2 + 1) := Nat.lt_log2_self
  generalize (x.quarters / 4).log2 = log at *
  have places : log * 1234 < (log * 1234 / 4096 + 1) * 4096 := by omega
  generalize log * 1234 / 4096 + 1 = digits at *
  have bits : log + 1 ≤ 93 * (digits / 28) + 3 * (digits % 28) + 57 := by omega
  have power : 2 ^ (93 * (digits / 28) + 3 * (digits % 28)) ≤ 10 ^ digits := by
    calc 2 ^ (93 * (digits / 28) + 3 * (digits % 28))
        = (2 ^ 93) ^ (digits / 28) * (2 ^ 3) ^ (digits % 28) := by
          rw [Nat.pow_add, Nat.pow_mul, Nat.pow_mul]
      _ ≤ (10 ^ 28) ^ (digits / 28) * 10 ^ (digits % 28) :=
        Nat.mul_le_mul (Nat.pow_le_pow_left (by decide) _) (Nat.pow_le_pow_left (by decide) _)
      _ = 10 ^ digits := by rw [← Nat.pow_mul, ← Nat.pow_add, Nat.div_add_mod]
  have bound : 2 ^ (log + 1) ≤ coefficientBound * 10 ^ digits := by
    calc 2 ^ (log + 1) ≤ 2 ^ (57 + (93 * (digits / 28) + 3 * (digits % 28))) :=
          Nat.pow_le_pow_right (by decide) (by omega)
      _ = 2 ^ 57 * 2 ^ (93 * (digits / 28) + 3 * (digits % 28)) := Nat.pow_add _ _ _
      _ ≤ coefficientBound * 10 ^ digits := Nat.mul_le_mul (by decide) power
  have product : coefficientBound * (4 * 10 ^ digits)
    = 4 * (coefficientBound * 10 ^ digits) := by ring
  omega

/-- Taking zeros off the end of a coefficient leaves the decimal and its places as they are. -/
theorem trim_found (decimal : Decimal) (places : Nat) (found : Found x decimal places) :
    ∃ more, Found x decimal.trim more := by
  fun_induction Decimal.trim decimal generalizing places with
  | case1 decimal zero inductionHypothesis =>
    obtain ⟨exponent, small, here⟩ := found
    refine inductionHypothesis (places + 1) ⟨?_, ?_, ?_⟩
    · show decimal.exponent + 1 = ((places + 1 : Nat) : Int) - 1074
      omega
    · show decimal.coefficient / 10 ≤ coefficientBound
      omega
    · have whole : decimal.coefficient / 10 * (4 * 10 ^ (places + 1))
        = decimal.coefficient * (4 * 10 ^ places) := by
        rw [Nat.pow_succ]
        have exact : decimal.coefficient / 10 * 10 = decimal.coefficient := by omega
        calc decimal.coefficient / 10 * (4 * (10 ^ places * 10))
            = decimal.coefficient / 10 * 10 * (4 * 10 ^ places) := by ring
          _ = decimal.coefficient * (4 * 10 ^ places) := by rw [exact]
      show x.roundsHere (decimal.coefficient / 10 * (4 * 10 ^ (places + 1))) = true
      rw [whole]
      exact here
  | case2 decimal last => exact ⟨places, found⟩

/-- A trimmed decimal does not end in zero unless it is zero. The induction is on the trimming. -/
theorem trim_last (decimal : Decimal) (nonzero : decimal.coefficient ≠ 0) :
    decimal.trim.coefficient % 10 ≠ 0 := by
  fun_induction Decimal.trim decimal with
  | case1 decimal zero inductionHypothesis =>
    apply inductionHypothesis
    show decimal.coefficient / 10 ≠ 0
    omega
  | case2 decimal last => omega

/-- A decimal that was found for a number other than zero has digits, since
zero rounds to no such number. -/
theorem coefficient_pos (positive : 0 < x.magnitude) {decimal : Decimal} {places : Nat}
    (found : Found x decimal places) : 0 < decimal.coefficient := by
  apply Nat.pos_of_ne_zero
  intro zero
  have here := found.here
  rw [zero, Nat.zero_mul] at here
  have least := (bounds_of_roundsHere here).1
  have above := lowest_pos x positive
  omega

/-- The shortest decimal of a number that is not zero rounds to the number, has at most eighteen
digits, and does not end in zero. -/
theorem shortest_spec (tie : Tie) (x : Binary64) (positive : 0 < x.magnitude) :
    ∃ places, Found x (x.shortest tie) places ∧ 0 < (x.shortest tie).coefficient ∧
      (x.shortest tie).coefficient % 10 ≠ 0 := by
  obtain ⟨first, searched⟩ : ∃ first, Found x (searchGrids tie x _) first :=
    searchGrids_found positive _ (quarters_lt x)
  obtain ⟨places, found⟩ := trim_found _ first searched
  have nonzero : (searchGrids tie x ((x.quarters / 4).log2 * 1234 / 4096 + 1)).coefficient ≠ 0 :=
    Nat.ne_of_gt (coefficient_pos positive searched)
  exact ⟨places, found, coefficient_pos positive found, trim_last _ nonzero⟩

end Search

end LedgerIntake.Binary64
