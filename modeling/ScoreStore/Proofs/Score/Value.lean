import Mathlib.Algebra.Order.Monoid.Unbundled.Pow
import Mathlib.Algebra.Order.Ring.Nat
import ScoreStore.Score

/-! The numbers that scores stand for, and their agreement with the order of places. -/

namespace ScoreStore

/-- The numbers that scores stand for: multiples of the least positive
number between two infinities. -/
inductive Extended where
  /-- The infinity below all numbers. -/
  | lowest
  /-- So many times the least positive number. -/
  | finite (units : Int)
  /-- The infinity above all numbers. -/
  | highest
deriving DecidableEq

namespace Extended

/-- Whether the first number is the lesser. -/
def less : Extended → Extended → Bool
  | .lowest, right => right ≠ .lowest
  | .finite _, .lowest => false
  | .finite left, .finite right => left < right
  | .finite _, .highest => true
  | .highest, _ => false

instance : LT Extended := ⟨fun left right => left.less right = true⟩

instance : DecidableLT Extended := fun left right =>
  inferInstanceAs (Decidable (left.less right = true))

/-- The order of numbers can be tested. -/
theorem lt_iff {left right : Extended} : left < right ↔ left.less right = true := Iff.rfl

/-- Between two infinities numbers are in the order of their units. -/
theorem finite_lt_finite {left right : Int} : finite left < finite right ↔ left < right :=
  decide_eq_true_iff

/-- Two numbers are equal when neither is the lesser. -/
theorem eq_iff_not_lt {left right : Extended} : left = right ↔ ¬ left < right ∧ ¬ right < left := by
  -- Only between the infinities there is something to compare.
  constructor
  · rintro rfl
    cases left <;> simp [lt_iff, less]
  · rintro ⟨notLess, notGreater⟩
    cases left <;> cases right <;> simp_all [lt_iff, less]
    omega

/-- No number is both less and greater than another one. -/
theorem lt_asymm {left right : Extended} (less : left < right) : ¬ right < left := by
  rw [lt_iff] at less ⊢
  cases left <;> cases right <;> simp_all [Extended.less]
  omega

/-- Every number lies beyond the lesser or before the greater of two different numbers. -/
theorem lt_or_lt_of_lt {left right : Extended} (less : left < right) (middle : Extended) :
    left < middle ∨ middle < right := by
  rw [lt_iff, lt_iff]
  rw [lt_iff] at less
  cases left <;> cases middle <;> cases right <;> simp_all [Extended.less]
  omega

end Extended

namespace Score

/-- The number that a score stands for. -/
def value (score : Score) : Extended :=
  if score.isInfinite then if score.negative then .lowest else .highest
  else .finite score.signedUnits

/-- A magnitude counts the binades below it and the steps within its own. -/
theorem binade_mul_div_add_mod (magnitude : Nat) :
    binade * (magnitude / binade) + magnitude % binade = magnitude :=
  Nat.div_add_mod magnitude binade

/-- Within the first binade a magnitude is its own value. -/
theorem units_of_lt {magnitude : Nat} (first : magnitude < binade) :
    units magnitude = magnitude := if_pos first

/-- From the second binade on every further binade doubles the value. -/
theorem units_of_ge {magnitude : Nat} (later : binade ≤ magnitude) :
    units magnitude = (binade + magnitude % binade) * 2 ^ (magnitude / binade - 1) := by
  rw [units, if_neg (Nat.not_lt.mpr later), Nat.shiftLeft_eq]

/-- A greater magnitude has a greater value. -/
theorem units_lt_units {left right : Nat} (less : left < right) : units left < units right := by
  -- Either both lie in one binade, or the end of the first binade separates them.
  have positive : 0 < binade := by decide
  have leftSteps : left % binade < binade := Nat.mod_lt _ positive
  have rightSteps : right % binade < binade := Nat.mod_lt _ positive
  have leftParts := binade_mul_div_add_mod left
  have rightParts := binade_mul_div_add_mod right
  have ordered : left / binade ≤ right / binade := Nat.div_le_div_right (Nat.le_of_lt less)
  by_cases rightFirst : right < binade
  · rw [units_of_lt rightFirst, units_of_lt (Nat.lt_trans less rightFirst)]
    exact less
  · have rightLater := Nat.not_lt.mp rightFirst
    have rightBinade : 1 ≤ right / binade := (Nat.one_le_div_iff positive).mpr rightLater
    rw [units_of_ge rightLater]
    by_cases leftFirst : left < binade
    · -- All values of later binades are at least as great as the end of the first.
      rw [units_of_lt leftFirst]
      calc left < binade := leftFirst
        _ ≤ binade + right % binade := Nat.le_add_right _ _
        _ ≤ (binade + right % binade) * 2 ^ (right / binade - 1) :=
          Nat.le_mul_of_pos_right _ (Nat.two_pow_pos _)
    · have leftLater := Nat.not_lt.mp leftFirst
      have leftBinade : 1 ≤ left / binade := (Nat.one_le_div_iff positive).mpr leftLater
      rw [units_of_ge leftLater]
      rcases Nat.lt_or_eq_of_le ordered with apart | together
      · -- The value at the end of the left binade is twice the one at its start.
        have doubled : 2 ^ (left / binade) = 2 * 2 ^ (left / binade - 1) := by
          rw [← Nat.pow_succ', Nat.sub_one, Nat.succ_pred_eq_of_pos leftBinade]
        calc (binade + left % binade) * 2 ^ (left / binade - 1)
            < (binade + binade) * 2 ^ (left / binade - 1) :=
              Nat.mul_lt_mul_of_pos_right (by omega) (Nat.two_pow_pos _)
          _ = binade * 2 ^ (left / binade) := by rw [doubled, ← Nat.two_mul, Nat.mul_assoc,
              Nat.mul_left_comm]
          _ ≤ binade * 2 ^ (right / binade - 1) :=
              Nat.mul_le_mul_left _ (Nat.pow_le_pow_right (by decide) (by omega))
          _ ≤ (binade + right % binade) * 2 ^ (right / binade - 1) :=
              Nat.mul_le_mul_right _ (Nat.le_add_right _ _)
      · -- Within one binade the steps are of one size.
        rw [together] at leftParts ⊢
        exact Nat.mul_lt_mul_of_pos_right (by omega) (Nat.two_pow_pos _)

/-- Values are in the order of their magnitudes. -/
theorem units_lt_units_iff {left right : Nat} : units left < units right ↔ left < right :=
  (strictMono_nat_of_lt_succ fun magnitude => units_lt_units (Nat.lt_succ_self magnitude)).lt_iff_lt

/-- Units with their sign are in the order of places. -/
theorem signedUnits_lt_iff {left right : Score} :
    left.signedUnits < right.signedUnits ↔ left.place < right.place := by
  -- A negative number reverses the order of magnitudes, and both zeros have no units.
  have zero : units 0 = 0 := rfl
  have magnitudes := @units_lt_units_iff left.magnitude right.magnitude
  have reversed := @units_lt_units_iff right.magnitude left.magnitude
  have leftPositive := @units_lt_units_iff 0 left.magnitude
  have rightPositive := @units_lt_units_iff 0 right.magnitude
  unfold signedUnits place
  cases left.negative <;> cases right.negative <;> simp only [Bool.false_eq_true, if_true, if_false]
    <;> omega

/-- The place of a number that is not infinite lies between those of the infinities. -/
theorem place_finite {score : Score} (number : score.isNaN = false)
    (finite : score.isInfinite = false) :
    -(infiniteMagnitude : Int) < score.place ∧ score.place < infiniteMagnitude := by
  -- A magnitude beyond that of the infinities would be no number.
  simp only [isNaN, isInfinite, decide_eq_false_iff_not, beq_eq_false_iff_ne] at number finite
  unfold place
  split <;> omega

/-- An infinity is in the first or in the last place. -/
theorem place_infinite {score : Score} (infinite : score.isInfinite = true) :
    score.place = if score.negative then -(infiniteMagnitude : Int) else infiniteMagnitude := by
  simp only [isInfinite, beq_iff_eq] at infinite
  simp only [place, infinite]

/-- Numbers are in the order of their places. -/
theorem value_lt_iff {left right : Score} (leftNumber : left.isNaN = false)
    (rightNumber : right.isNaN = false) : left.value < right.value ↔ left.place < right.place := by
  -- Infinities take the two extreme places, and finite numbers are compared by their units.
  have positive : (0 : Int) < infiniteMagnitude := by decide
  have units := @signedUnits_lt_iff left right
  unfold value
  by_cases leftInfinite : left.isInfinite = true <;>
    by_cases rightInfinite : right.isInfinite = true
  · -- Two infinities are told apart by their signs.
    rw [if_pos leftInfinite, if_pos rightInfinite, place_infinite leftInfinite,
      place_infinite rightInfinite]
    cases left.negative <;> cases right.negative <;> simp [Extended.lt_iff, Extended.less]
    omega
  · -- An infinity lies outside of all finite places.
    have inside := place_finite rightNumber (by simpa using rightInfinite)
    rw [if_pos leftInfinite, if_neg rightInfinite, place_infinite leftInfinite]
    cases left.negative <;> simp [Extended.lt_iff, Extended.less] <;> omega
  · have inside := place_finite leftNumber (by simpa using leftInfinite)
    rw [if_neg leftInfinite, if_pos rightInfinite, place_infinite rightInfinite]
    cases right.negative <;> simp [Extended.lt_iff, Extended.less] <;> omega
  · rw [if_neg leftInfinite, if_neg rightInfinite, Extended.finite_lt_finite, units]

/-- Scores in one place stand for one number. -/
theorem value_eq_iff {left right : Score} (leftNumber : left.isNaN = false)
    (rightNumber : right.isNaN = false) : left.value = right.value ↔ left.place = right.place := by
  -- Neither number is less than the other.
  rw [Extended.eq_iff_not_lt, value_lt_iff leftNumber rightNumber,
    value_lt_iff rightNumber leftNumber]
  omega

/-- The first of two numbers is not the greater exactly when the second is not the lesser. -/
theorem atMost_iff {left right : Score} (leftNumber : left.isNaN = false)
    (rightNumber : right.isNaN = false) :
    left.atMost right = true ↔ ¬ right.value < left.value := by
  simp [atMost, leftNumber, rightNumber, value_lt_iff rightNumber leftNumber]

/-- Two numbers are the same exactly when their values are. -/
theorem same_iff {left right : Score} (leftNumber : left.isNaN = false)
    (rightNumber : right.isNaN = false) : left.same right = true ↔ left.value = right.value := by
  simp [same, leftNumber, rightNumber, value_eq_iff leftNumber rightNumber]

end Score
end ScoreStore
