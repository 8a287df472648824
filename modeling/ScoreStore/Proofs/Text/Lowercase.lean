import ScoreStore.Proofs.Text

/-!
Lowercase forms that are plain: which texts become a text of small characters when they are lowered.
-/

namespace ScoreStore.Text

/-- The sign for kelvins, a capital whose lowercase form is the small letter k. -/
def kelvinSign : Char := Char.ofNat 0x212A

/-- The lowercase form of a letter from A to Z, and of the sign for
kelvins; other characters stay. -/
def plainLower (letter : Char) : Char := if letter = kelvinSign then 'k' else letter.toLower

/-- All characters are encoded as single bytes other than zero. -/
def IsPlain (letters : List Char) : Prop :=
  ∀ letter ∈ letters, 0 < letter.toNat ∧ letter.toNat < 128

instance (letters : List Char) : Decidable (IsPlain letters) := List.decidableBAll _ _

/-- All characters are small ones or signs for kelvins. -/
def IsNearlyPlain (letters : List Char) : Prop :=
  ∀ letter ∈ letters, letter.toNat < 128 ∨ letter = kelvinSign

variable {letter : Char} {letters passed : List Char}

/-- Beyond the small characters no letter from A to Z is lowered. -/
theorem toLower_of_large (large : 128 ≤ letter.toNat) : letter.toLower = letter := by
  rcases toLower_cases letter with ⟨same, _⟩ | ⟨capital, _⟩
  · exact same
  · omega

/-- Lowered letters stay as they are. -/
theorem toLower_toLower (letter : Char) : letter.toLower.toLower = letter.toLower := by
  rcases toLower_cases letter with ⟨same, _⟩ | ⟨capital, code⟩
  · rw [same, same]
  · -- A letter that was lowered is none of the capitals.
    rcases toLower_cases letter.toLower with ⟨same, _⟩ | ⟨again, _⟩
    · exact same
    · omega

/-- Without signs for kelvins only the letters from A to Z are lowered. -/
theorem map_plainLower (absent : kelvinSign ∉ letters) :
    letters.map plainLower = letters.map Char.toLower := by
  -- Only the sign is lowered otherwise.
  refine List.map_congr_left fun letter member => if_neg ?_
  rintro rfl
  exact absent member

/-- Of all capitals beyond the small characters the sign for kelvins alone
has a small lowercase form. -/
theorem capitalRuns_kelvin : ∀ run ∈ capitalRuns, run.last < 128 ∨
    (run.first = kelvinSign.toNat ∧ run.last = kelvinSign.toNat) ∨
    128 ≤ (run.first : Int) + run.shift := by
  decide +kernel

/-- A great character is shifted to a great code, unless it is the sign for kelvins. -/
theorem large_shift_of_find {run : CapitalRun} (large : 128 ≤ letter.toNat)
    (found : capitalRuns.find? (·.holds letter.toNat) = some run) (other : letter ≠ kelvinSign) :
    128 ≤ (letter.toNat : Int) + run.shift := by
  have held := List.find?_some found
  -- The runs are looked up in the table, where one of three things is true of each.
  simp only [CapitalRun.holds, Bool.and_eq_true, decide_eq_true_eq] at held
  rcases capitalRuns_kelvin run (List.mem_of_find?_eq_some found) with low | same | high
  · omega
  · -- The run holds nothing but the sign.
    have code : letter.toNat = kelvinSign.toNat := by omega
    exact absurd (by rw [← Char.ofNat_toNat letter, code, Char.ofNat_toNat]) other
  · omega

theorem lowerChar_kelvinSign : lowerChar kelvinSign = ['k'] := by decide +kernel

theorem lowerChar_small (small : letter.toNat < 128) : lowerChar letter = [letter.toLower] :=
  if_pos small

/-- A character whose lowercase form is plain is a small one or the sign for kelvins. -/
theorem nearlyPlain_of_lowerChar (plain : IsPlain (lowerChar letter)) :
    letter.toNat < 128 ∨ letter = kelvinSign := by
  unfold lowerChar at plain
  split at plain
  · next small => exact Or.inl small
  · next large =>
    split at plain
    · -- The dot of the dotted capital is no small character.
      exact absurd (plain (Char.ofNat 0x307) (by simp)).2 (by decide)
    · split at plain
      · next run found =>
        -- A run that holds another character shifts it to a large one.
        refine Or.inr (Classical.byContradiction fun other => ?_)
        have shifted := large_shift_of_find (Nat.not_lt.mp large) found other
        obtain ⟨positive, small⟩ := plain _ List.mem_cons_self
        rw [toNat_ofNat (Nat.ne_of_gt positive)] at small
        omega
      · exact Or.inl (plain letter List.mem_cons_self).2

/-- A text whose lowercase form is plain has small characters and signs for kelvins only. -/
theorem nearlyPlain_of_lowerFrom (plain : IsPlain (lowerFrom passed letters)) :
    IsNearlyPlain letters := by
  -- What was passed before a character matters to sigmas only, and these are not plain.
  induction letters generalizing passed with
  | nil => exact List.forall_mem_nil _
  | cons head rest ih =>
    rw [lowerFrom] at plain
    split at plain
    · -- A final sigma is no small character.
      exact absurd (plain finalSigma List.mem_cons_self).2 (by decide)
    · obtain ⟨now, later⟩ := List.forall_mem_append.mp plain
      exact List.forall_mem_cons.mpr ⟨nearlyPlain_of_lowerChar now, ih later⟩

/-- A text of small characters and signs for kelvins is lowered character by character. -/
theorem lowerFrom_nearlyPlain (nearly : IsNearlyPlain letters) :
    lowerFrom passed letters = letters.map plainLower := by
  -- By induction on the letters, none of which is a sigma.
  induction letters generalizing passed with
  | nil => rfl
  | cons head rest ih =>
    obtain ⟨first, others⟩ := List.forall_mem_cons.mp nearly
    rw [lowerFrom, ih others, List.map_cons, plainLower]
    have sigma : head ≠ capitalSigma := by
      rintro rfl
      exact absurd first (by decide)
    rw [if_neg (by simp [sigma])]
    rcases first with small | rfl
    · have other : head ≠ kelvinSign := by
        rintro rfl
        exact absurd small (by decide)
      rw [lowerChar_small small, if_neg other]
      rfl
    · -- The sign becomes a single small letter.
      rw [lowerChar_kelvinSign, if_pos rfl]
      rfl

/-- Characters with plain forms are small ones or signs for kelvins. -/
theorem nearlyPlain_of_map (plain : IsPlain (letters.map plainLower)) : IsNearlyPlain letters := by
  intro letter member
  by_cases large : 128 ≤ letter.toNat
  · refine Or.inr (Classical.byContradiction fun other => ?_)
    -- Any other large character stays as it is, and is too large.
    have small := (plain _ (List.mem_map_of_mem member)).2
    rw [plainLower, if_neg other, toLower_of_large large] at small
    omega
  · exact Or.inl (Nat.not_le.mp large)

/-- A text is lowered to a plain one exactly if its letters, with k for the sign for kelvins, are
those of that text up to the case of A to Z. -/
theorem lower_eq_iff {text name : String} (plain : IsPlain name.toList) :
    lower text = name ↔ text.toList.map plainLower = name.toList := by
  constructor
  · rintro rfl
    -- What is lowered to ASCII was ASCII or the sign, so that the plain way does the same.
    rw [lower, String.toList_ofList] at plain ⊢
    exact (lowerFrom_nearlyPlain (nearlyPlain_of_lowerFrom plain)).symm
  · intro same
    rw [← same] at plain
    rw [lower, lowerFrom_nearlyPlain (nearlyPlain_of_map plain), same, String.ofList_toList]

/-- The lowercase form of a character has no letters from A to Z. -/
theorem toLower_of_mem_lowerChar {lowered : Char} (member : lowered ∈ lowerChar letter) :
    lowered.toLower = lowered := by
  -- The sign is the one large character that becomes a capital or a small letter.
  by_cases sign : letter = kelvinSign
  · rw [sign, lowerChar_kelvinSign] at member
    rw [List.mem_singleton.mp member]
    rfl
  unfold lowerChar at member
  split at member
  · obtain rfl := List.mem_singleton.mp member
    exact toLower_toLower letter
  · next large =>
    split at member
    · simp only [List.mem_cons, List.not_mem_nil, or_false] at member
      rcases member with rfl | rfl <;> decide
    · split at member
      · next run found =>
        obtain rfl := List.mem_singleton.mp member
        have shifted := large_shift_of_find (Nat.not_lt.mp large) found sign
        -- A code that is none of a character gives zero, which is no letter.
        by_cases zero : (Char.ofNat ((letter.toNat : Int) + run.shift).toNat).toNat = 0
        · rw [← Char.ofNat_toNat (Char.ofNat _), zero]
          rfl
        · refine toLower_of_large ?_
          rw [toNat_ofNat zero]
          omega
      · obtain rfl := List.mem_singleton.mp member
        -- What has no lowercase form is left alone, and is large.
        exact toLower_of_large (Nat.not_lt.mp large)

/-- The lowercase form of a text has no letters from A to Z. -/
theorem toLower_of_mem_lowerFrom :
    ∀ letter ∈ lowerFrom passed letters, letter.toLower = letter := by
  -- What was passed before a character matters to sigmas only.
  induction letters generalizing passed with
  | nil => exact List.forall_mem_nil _
  | cons head rest ih =>
    rw [lowerFrom]
    split
    · exact List.forall_mem_cons.mpr ⟨by decide, ih⟩
    · exact List.forall_mem_append.mpr ⟨fun _ => toLower_of_mem_lowerChar, ih⟩

/-- A lowered text is its own lowercase form. -/
theorem map_toLower_lower (text : String) :
    (lower text).toList.map Char.toLower = (lower text).toList := by
  rw [lower, String.toList_ofList]
  exact (List.map_congr_left toLower_of_mem_lowerFrom).trans (List.map_id _)

end ScoreStore.Text
