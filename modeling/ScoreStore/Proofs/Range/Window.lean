import ScoreStore.Proofs.Decimal
import ScoreStore.Range.Window

/-!
Windows cover the positions between the two that their ends name in unbounded integers, although
their bounds are found in machine words.
-/

namespace ScoreStore

namespace Window

/-- The position that an index names in a list of a given length, counted from
the end when it is negative. -/
def resolve (length : Nat) (index : Int) : Int := if index < 0 then length + index else index

/-- A position lies between the two that the ends of a window name. -/
def Covers (window : Window) (length position : Nat) : Prop :=
  resolve length window.start ≤ position ∧ position ≤ resolve length window.stop

instance (window : Window) (length position : Nat) : Decidable (window.Covers length position) :=
  inferInstanceAs (Decidable (_ ∧ _))

/-- The items at the positions that a window covers, found by testing every position. -/
def covered {α : Type} (window : Window) (items : List α) : List α :=
  (items.zipIdx.filter fun item => window.Covers items.length item.2).map Prod.fst

/-- Both ends of a window are signed 64-bit integers. -/
structure IsSigned64 (window : Window) : Prop where
  start : Decimal.minSigned64 ≤ window.start ∧ window.start ≤ Decimal.maxSigned64
  stop : Decimal.minSigned64 ≤ window.stop ∧ window.stop ≤ Decimal.maxSigned64

/-- Two positions delimit what a window covers in a list of a given length. -/
structure Delimits (window : Window) (length : Nat) (bounds : Nat × Nat) : Prop where
  /-- The positions are in order. -/
  ordered : bounds.1 ≤ bounds.2
  /-- Neither lies beyond the list. -/
  inside : bounds.2 ≤ length
  /-- From the first up to but not including the second are the positions that the window covers. -/
  exact : ∀ position < length,
    (bounds.1 ≤ position ∧ position < bounds.2) ↔ window.Covers length position
  /-- Where the window covers nothing, both are the first position. -/
  nothing : (∀ position < length, ¬ window.Covers length position) → bounds = (0, 0)

variable {window : Window} {length : Nat}

/-- Within 64 bits the bounds are the named positions, cut off at both ends of the list. -/
theorem bounds_of_isSigned64 (ends : window.IsSigned64)
    (short : (length : Int) ≤ Decimal.maxSigned64) :
    window.bounds length =
      let first : Int := min (max (resolve length window.start) 0) length
      let past : Int := min (max (resolve length window.stop + 1) 0) length
      if past ≤ first then (0, 0) else (first.toNat, past.toNat) := by
  obtain ⟨⟨leastStart, greatestStart⟩, leastStop, greatestStop⟩ := ends
  have least : Decimal.minSigned64 = -9223372036854775808 := rfl
  have greatest : Decimal.maxSigned64 = 9223372036854775807 := rfl
  -- What saturation takes away would be cut off anyway.
  have first : min (if window.start < 0 then max (saturate (length + window.start)) 0
      else window.start) (length : Int) = min (max (resolve length window.start) 0) length := by
    unfold saturate resolve
    split <;> omega
  have past : min (saturate ((if window.stop < 0 then max (saturate (length + window.stop)) (-1)
      else window.stop) + 1)) (length : Int) =
        min (max (resolve length window.stop + 1) 0) length := by
    unfold saturate resolve
    split <;> omega
  have whole : min (length : Int) Decimal.maxSigned64 = length := by omega
  simp only [bounds, whole, first, past]

/-- The bounds of a window delimit what it covers, in every list whose length has 63 bits. -/
theorem delimits_bounds (ends : window.IsSigned64) (short : (length : Int) ≤ Decimal.maxSigned64) :
    window.Delimits length (window.bounds length) := by
  rw [bounds_of_isSigned64 ends short]
  dsimp only
  split
  · next inverted =>
    -- Every covered position would lie between the bounds, and nothing does.
    refine ⟨Nat.le_refl 0, Nat.zero_le length, fun position inside => ?_, fun _ => rfl⟩
    unfold Covers
    omega
  · next upright =>
    refine ⟨by omega, by omega, fun position inside => ?_, fun nothing => ?_⟩
    · unfold Covers
      omega
    · -- The first bound itself is covered.
      have covered := nothing (min (max (resolve length window.start) 0) length).toNat (by omega)
      unfold Covers at covered
      omega

section Cutting

variable {α : Type} {items : List α}

/-- The items between two positions are those whose own positions lie between them. -/
theorem map_filter_zipIdx {first past : Nat} (ordered : first ≤ past)
    (inside : past ≤ items.length) :
    (items.zipIdx.filter fun item => first ≤ item.2 ∧ item.2 < past).map Prod.fst =
      (items.take past).drop first := by
  -- The list has three parts, each of which lies between the positions as a whole or not at all.
  have parts : items = items.take first ++
      ((items.drop first).take (past - first) ++ items.drop past) := by
    have behind : items.drop past = (items.drop first).drop (past - first) := by
      rw [List.drop_drop]
      congr 1
      omega
    rw [behind, List.take_append_drop, List.take_append_drop]
  -- What lies before, between and behind the two positions.
  have before : (items.take first).length = first := List.length_take_of_le (by omega)
  have between : ((items.drop first).take (past - first)).length = past - first :=
    List.length_take_of_le (by rw [List.length_drop]; omega)
  have split := congrArg List.zipIdx parts
  rw [List.zipIdx_append, List.zipIdx_append, before, between] at split
  rw [List.drop_take, split, List.filter_append, List.filter_append,
    List.filter_eq_nil_iff.mpr, List.filter_eq_self.mpr, List.filter_eq_nil_iff.mpr,
    List.nil_append, List.append_nil, List.zipIdx_map_fst]
  · -- The first part has its positions before both, and so on.
    rintro ⟨item, position⟩ member
    have := List.mem_zipIdx member
    simp only [decide_eq_true_eq]
    omega
  · rintro ⟨item, position⟩ member
    have := List.mem_zipIdx member
    simp only [decide_eq_true_eq]
    omega
  · rintro ⟨item, position⟩ member
    have := List.mem_zipIdx member
    simp only [decide_eq_true_eq]
    omega

/-- Cutting along the bounds of a window leaves the items that it covers. -/
theorem cut_eq_covered (ends : window.IsSigned64)
    (short : (items.length : Int) ≤ Decimal.maxSigned64) :
    window.cut items = window.covered items := by
  have delimits := delimits_bounds ends short
  -- The cut takes what lies between the bounds, and these delimit the window.
  show ((items.take (window.bounds items.length).2).drop (window.bounds items.length).1) = _
  rw [← map_filter_zipIdx delimits.ordered delimits.inside, covered]
  -- Every position of the list is tested in both ways.
  refine congrArg (List.map Prod.fst) (List.filter_congr ?_)
  rintro ⟨item, position⟩ member
  exact decide_eq_decide.mpr (delimits.exact position (List.snd_lt_of_mem_zipIdx member))

/-- The window from a position of a list to the same one leaves the item there. -/
theorem cut_single {item : α} {position : Nat} (found : items[position]? = some item)
    (short : (items.length : Int) ≤ Decimal.maxSigned64) :
    Window.cut ⟨position, position⟩ items = [item] := by
  obtain ⟨inside, same⟩ := List.getElem?_eq_some_iff.mp found
  have least : Decimal.minSigned64 = -9223372036854775808 := rfl
  have ends : Window.IsSigned64 ⟨position, position⟩ := ⟨by dsimp only; omega, by dsimp only; omega⟩
  -- A position that is there is neither negative nor at the end.
  have bounds : Window.bounds ⟨position, position⟩ items.length = (position, position + 1) := by
    have natural : ¬ (position : Int) < 0 := by omega
    have first : min (max (position : Int) 0) items.length = position := by omega
    have past : min (max ((position : Int) + 1) 0) items.length = (position + 1 : Nat) := by omega
    simp only [bounds_of_isSigned64 ends short, resolve, if_neg natural, first, past]
    rw [if_neg (by omega)]
    rfl
  show (items.take (Window.bounds _ _).2).drop (Window.bounds _ _).1 = _
  rw [bounds, List.take_succ_eq_append_getElem inside, same]
  exact List.drop_left' (List.length_take_of_le (Nat.le_of_lt inside))

end Cutting

section Words

/-- Adds two words, and stays at the last word in the direction of a sum that is none. -/
def addWords (left right : Int64) : Int64 :=
  if 0 ≤ right then
    if Int64.maxValue - right < left then Int64.maxValue else left + right
  else if left < Int64.minValue - right then Int64.minValue
  else left + right

/-- The bounds of a window, found with nothing but machine words. -/
def wordBounds (length : UInt64) (start stop : Int64) : UInt64 × UInt64 :=
  let length := if length ≤ Int64.maxValue.toUInt64 then length.toInt64 else Int64.maxValue
  let start := min (if start < 0 then max (addWords length start) 0 else start) length
  let last := if stop < 0 then max (addWords length stop) (-1) else stop
  let stop := min (addWords last 1) length
  if stop ≤ start then (0, 0) else (start.toUInt64, stop.toUInt64)

/-- The lesser word stands for the lesser integer. -/
theorem toInt_min (left right : Int64) : (min left right).toInt = min left.toInt right.toInt := by
  -- The order of words is that of the integers that they stand for.
  show (if left ≤ right then left else right).toInt = _
  simp only [Int64.le_iff_toInt_le]
  split <;> omega

/-- The greater word stands for the greater integer. -/
theorem toInt_max (left right : Int64) : (max left right).toInt = max left.toInt right.toInt := by
  show (if left ≤ right then right else left).toInt = _
  simp only [Int64.le_iff_toInt_le]
  split <;> omega

/-- Words are added like integers, as far as their sum is a word. -/
theorem toInt_addWords (left right : Int64) :
    (addWords left right).toInt = saturate (left.toInt + right.toInt) := by
  have least := left.le_toInt
  have greatest := left.toInt_lt
  have leastRight := right.le_toInt
  have greatestRight := right.toInt_lt
  have minimum : Decimal.minSigned64 = -2 ^ 63 := rfl
  have maximum : Decimal.maxSigned64 = 2 ^ 63 - 1 := rfl
  -- The tests find out beforehand whether the sum is a word, and their own differences are words.
  unfold addWords saturate
  simp only [Int64.le_iff_toInt_le, Int64.lt_iff_toInt_lt, Int64.toInt_sub, Int64.toInt_maxValue,
    Int64.toInt_minValue, Int64.toInt_zero]
  split
  · -- Adding what is not negative can only go beyond the greatest word.
    next rising =>
    have difference : (2 ^ 63 - 1 - right.toInt).bmod (2 ^ 64) = 2 ^ 63 - 1 - right.toInt := by
      rw [Int.bmod_eq_of_le] <;> omega
    rw [difference]
    split
    · rw [Int64.toInt_maxValue]
      omega
    · rw [Int64.toInt_add, Int.bmod_eq_of_le] <;> omega
  · -- And adding what is negative only beyond the least one.
    next falling =>
    have difference : (-2 ^ 63 - right.toInt).bmod (2 ^ 64) = -2 ^ 63 - right.toInt := by
      rw [Int.bmod_eq_of_le] <;> omega
    rw [difference]
    split
    · rw [Int64.toInt_minValue]
      omega
    · rw [Int64.toInt_add, Int.bmod_eq_of_le] <;> omega

/-- A length becomes a signed word, the greatest one if it is greater than that. -/
theorem toInt_clip (length : UInt64) :
    (if length ≤ Int64.maxValue.toUInt64 then length.toInt64 else Int64.maxValue).toInt =
      min (length.toNat : Int) Decimal.maxSigned64 := by
  have maximum : Decimal.maxSigned64 = 2 ^ 63 - 1 := rfl
  have greatest : Int64.maxValue.toUInt64.toNat = 2 ^ 63 - 1 := rfl
  simp only [UInt64.le_iff_toNat_le, greatest]
  split
  · next short =>
    -- A word without its highest bit stands for the same number with and without a sign.
    have bits : length.toInt64.toBitVec.toNat = length.toNat := rfl
    have same : length.toInt64.toInt = length.toNat := BitVec.toInt_eq_toNat_of_lt (by omega)
    omega
  · -- A length beyond that counts as the greatest word.
    rw [Int64.toInt_maxValue]
    omega

/-- In machine words the bounds are the same, so that no step leaves the words it is computed in. -/
theorem wordBounds_eq_bounds (length : UInt64) (start stop : Int64) :
    (wordBounds length start stop).map UInt64.toNat UInt64.toNat =
      bounds ⟨start.toInt, stop.toInt⟩ length.toNat := by
  -- Each step stands for the step on integers, down to the comparison of the two results.
  unfold wordBounds bounds
  have whole := toInt_clip length
  generalize (if length ≤ Int64.maxValue.toUInt64 then length.toInt64 else Int64.maxValue) = signed
    at whole ⊢
  dsimp only
  rw [← whole]
  have first : (min (if start < 0 then max (addWords signed start) 0 else start) signed).toInt =
      min (if start.toInt < 0 then max (saturate (signed.toInt + start.toInt)) 0
        else start.toInt) signed.toInt := by
    rw [toInt_min, apply_ite Int64.toInt, toInt_max, toInt_addWords, Int64.toInt_zero]
    simp only [Int64.lt_iff_toInt_lt, Int64.toInt_zero]
  -- The second bound is one beyond the last position, which may be the greatest word.
  have past : (min (addWords (if stop < 0 then max (addWords signed stop) (-1) else stop) 1)
      signed).toInt = min (saturate ((if stop.toInt < 0 then
        max (saturate (signed.toInt + stop.toInt)) (-1) else stop.toInt) + 1)) signed.toInt := by
    rw [toInt_min, toInt_addWords, apply_ite Int64.toInt, toInt_max, toInt_addWords]
    simp only [Int64.lt_iff_toInt_lt, Int64.toInt_zero]
    rfl
  -- The first bound is not negative, even where the window starts before the list.
  have natural : 0 ≤ (min (if start.toInt < 0 then max (saturate (signed.toInt + start.toInt)) 0
      else start.toInt) signed.toInt) := by
    have maximum : Decimal.maxSigned64 = 2 ^ 63 - 1 := rfl
    split <;> omega
  rw [← first] at natural
  rw [← first, ← past]
  generalize min (if start < 0 then max (addWords signed start) 0 else start) signed = first
    at natural ⊢
  generalize min (addWords (if stop < 0 then max (addWords signed stop) (-1) else stop) 1) signed =
    past
  -- Only words that stand for natural numbers are read as unsigned ones.
  simp only [Int64.le_iff_toInt_le]
  split
  · rfl
  · next upright =>
    have unsigned {word : Int64} (natural : 0 ≤ word.toInt) :
        word.toUInt64.toNat = word.toInt.toNat :=
      Int64.toNat_toUInt64_of_le (Int64.le_iff_toInt_le.mpr natural)
    exact Prod.ext (unsigned natural) (unsigned (by omega))

end Words

end Window
end ScoreStore
