import ScoreStore.Proofs.Score.Value
import ScoreStore.Proofs.SortedSet.Sound

/-! Sorted sets behave as plain maps from members to scores, whatever is added and removed. -/

namespace ScoreStore

/-- A plain map from members to scores. -/
abbrev ScoreMap := Bytes → Option Score

/-- The score that an attempt aims at, given the present one. -/
def AddRule.aim (rule : AddRule) (present : Option Score) (score : Score) : Score :=
  -- An increment counts from zero where nothing is present.
  match present with
  | some old => if rule.increment then old.add score else score
  | none => score

/-- What a rule makes of giving a score to a member with the given present score. -/
def AddRule.verdict (rule : AddRule) (present : Option Score) (score : Score) : AddOutcome :=
  -- Presence comes first, then the number itself, then the direction, then equality.
  let new := rule.aim present score
  if (present.isSome ∧ rule.onlyAbsent) ∨ (present.isNone ∧ rule.onlyPresent) then .skipped
  else if new.isNaN then .notANumber
  else match present with
    | none => .added new
    | some old =>
      if (rule.onlyGreater ∧ ¬ old.value < new.value) ∨
          (rule.onlyLess ∧ ¬ new.value < old.value) then .skipped
      else if new.value = old.value then .unchanged old
      else .updated new

/-- The score that an outcome writes. -/
def AddOutcome.written? : AddOutcome → Option Score
  | .added score => some score
  | .updated score => some score
  | .unchanged _ => none
  | .skipped => none
  | .notANumber => none

/-- One change that is asked of a sorted set. -/
inductive Edit where
  /-- Give a member a score as far as a rule allows it. -/
  | add (rule : AddRule) (member : Bytes) (score : Score)
  /-- Remove a member. -/
  | remove (member : Bytes)

/-- What became of one change. -/
inductive EditOutcome where
  /-- The outcome of giving a score. -/
  | add (outcome : AddOutcome)
  /-- Whether the member was there to be removed. -/
  | remove (present : Bool)
deriving DecidableEq

namespace ScoreMap

/-- The map without members. -/
def empty : ScoreMap := fun _ => none

/-- Gives a member a score as far as a rule allows it. -/
def add (map : ScoreMap) (rule : AddRule) (member : Bytes) (score : Score) :
    AddOutcome × ScoreMap :=
  let outcome := rule.verdict (map member) score
  match outcome.written? with
  | none => (outcome, map)
  | some new => (outcome, Function.update map member (some new))

/-- Removes a member, and tells whether it was there. -/
def remove (map : ScoreMap) (member : Bytes) : Bool × ScoreMap :=
  ((map member).isSome, Function.update map member none)

/-- Makes one change. -/
def edit (map : ScoreMap) : Edit → EditOutcome × ScoreMap
  | .add rule member score => (map.add rule member score).map .add id
  | .remove member => (map.remove member).map .remove id

/-- Makes changes in turn, and gives their outcomes. -/
def editAll (map : ScoreMap) : List Edit → List EditOutcome × ScoreMap
  | [] => ([], map)
  | edit :: rest => ((map.edit edit).2.editAll rest).map ((map.edit edit).1 :: ·) id

end ScoreMap

namespace SortedSet

/-- Makes one change. -/
def edit (set : SortedSet) : Edit → EditOutcome × SortedSet
  | .add rule member score => (set.add rule member score).map .add id
  | .remove member => (set.remove member).map .remove id

/-- Makes changes in turn, and gives their outcomes. -/
def editAll (set : SortedSet) : List Edit → List EditOutcome × SortedSet
  | [] => ([], set)
  | edit :: rest => ((set.edit edit).2.editAll rest).map ((set.edit edit).1 :: ·) id

/-- The scores as a plain map. -/
def toMap (set : SortedSet) : ScoreMap := set.score?

/-- Entering a member changes the plain map there and nowhere else. -/
theorem toMap_enter (set : SortedSet) (member : Bytes) (score : Score) :
    (set.enter member score).toMap = Function.update set.toMap member (some score) := by
  -- The order of the elements does not show in the plain map.
  funext other
  by_cases same : other = member
  · simp [toMap, score?, enter, same]
  · simp [toMap, score?, enter, same, Ne.symm same]

/-- Taking an element out of the order leaves the plain map alone. -/
@[simp] theorem toMap_withdraw (set : SortedSet) (member : Bytes) (score : Score) :
    (set.withdraw member score).toMap = set.toMap := rfl

/-- Giving a score has the outcome that the rule prescribes for the member's present score. -/
theorem fst_add {set : SortedSet} (sound : set.Sound) (rule : AddRule) (member : Bytes)
    (score : Score) :
    (set.add rule member score).1 = rule.verdict (set.score? member) score := by
  -- The conditions on a present score are the same ones, since that score is a number.
  unfold add AddRule.verdict AddRule.aim
  cases present : set.score? member with
  | none => cases rule.onlyPresent <;> cases number : score.isNaN <;> simp [number]
  | some old =>
    dsimp only
    generalize (if rule.increment = true then old.add score else score) = new
    cases number : new.isNaN with
    | true => cases rule.onlyAbsent <;> simp
    | false =>
      -- The new score is a number by now, and the old one is stored, so values can be compared.
      have oldNumber := sound.number present
      have direction : (rule.onlyGreater && new.atMost old || rule.onlyLess && old.atMost new) =
          true ↔ (rule.onlyGreater ∧ ¬ old.value < new.value) ∨
            (rule.onlyLess ∧ ¬ new.value < old.value) := by
        simp only [Bool.or_eq_true, Bool.and_eq_true, Score.atMost_iff number oldNumber,
          Score.atMost_iff oldNumber number]
      simp only [direction, Score.same_iff number oldNumber, apply_ite Prod.fst]
      simp

/-- Giving a score writes the outcome's score under the member, if there is one. -/
theorem toMap_snd_add (set : SortedSet) (rule : AddRule) (member : Bytes) (score : Score) :
    (set.add rule member score).2.toMap =
      match (set.add rule member score).1.written? with
      | none => set.toMap
      | some new => Function.update set.toMap member (some new) := by
  -- Every branch either keeps the set or enters the score that it reports.
  unfold add
  cases set.score? member with
  | none =>
    dsimp only
    split_ifs <;> simp [AddOutcome.written?, toMap_enter]
  | some old =>
    dsimp only
    split_ifs <;> simp [AddOutcome.written?, toMap_enter]

/-- An attempt that writes nothing leaves the set as it is. -/
theorem snd_add_of_not_written {set : SortedSet} {rule : AddRule} {member : Bytes} {score : Score}
    (kept : (set.add rule member score).1.written? = none) :
    (set.add rule member score).2 = set := by
  -- The branches with another set report the score that they wrote.
  unfold add at kept ⊢
  cases present : set.score? member with
  | none =>
    simp only [present] at kept ⊢
    split_ifs at kept ⊢ <;> simp_all [AddOutcome.written?]
  | some old =>
    simp only [present] at kept ⊢
    split_ifs at kept ⊢ <;> simp_all [AddOutcome.written?]

/-- Removing a member takes it out of the plain map, and tells whether it was there. -/
theorem remove_eq (set : SortedSet) (member : Bytes) :
    (set.remove member).map id toMap = set.toMap.remove member := by
  -- A member without a score is removed from neither.
  unfold remove ScoreMap.remove
  cases present : set.score? member with
  | none =>
    refine Prod.ext (by simp [toMap, present]) ?_
    simp [toMap, present]
  | some score =>
    refine Prod.ext (by simp [toMap, present]) (funext fun other => ?_)
    by_cases same : other = member
    · simp [toMap, score?, same]
    · simp [toMap, score?, withdraw, same, Ne.symm same]

/-- Everything that can be seen of a sorted set is what a plain map says. -/
structure Represents (set : SortedSet) (map : ScoreMap) : Prop where
  /-- The scores by member are the map. -/
  scores : ∀ member, set.scores.get? member = map member
  /-- The ordered elements are the pairs of the map, and no others. -/
  ordered : ∀ element, element ∈ set.ordered ↔ map element.member = some element.score
  /-- Every score is a number. -/
  numbers : ∀ element ∈ set.elements, element.score.isNaN = false
  /-- The elements ascend strictly, by the value of the score and then
  by the bytes of the member. -/
  ascending : set.elements.Pairwise fun left right =>
    left.score.value < right.score.value ∨
      (left.score.value = right.score.value ∧ left.member < right.member)
  /-- The members are those of the elements, in their order. -/
  members : set.members = set.elements.map Element.member
  /-- No member occurs twice. -/
  distinct : set.members.Nodup
  /-- The size is the number of elements. -/
  size : set.size = set.elements.length
  /-- A set without elements is empty. -/
  isEmpty : set.isEmpty = true ↔ set.elements = []
  /-- A member has a score exactly when the pair is an element. -/
  score : ∀ member score, set.score? member = some score ↔ ⟨member, score⟩ ∈ set.elements
  /-- An attempt with an outcome that writes nothing leaves the set as it is. -/
  kept : ∀ rule member score, (set.add rule member score).1.written? = none →
    (set.add rule member score).2 = set

/-- A sound set is seen as its plain map. -/
theorem Sound.represents {set : SortedSet} (sound : set.Sound) : set.Represents set.toMap where
  scores := fun _ => rfl
  ordered := sound.agree
  numbers := sound.numbers
  ascending := by
    -- Places are compared instead of values, which is the same for numbers.
    refine sound.ascending.imp_of_mem fun {left right} leftMember rightMember earlier => ?_
    have leftNumber := sound.numbers left leftMember
    have rightNumber := sound.numbers right rightMember
    rw [Score.value_lt_iff leftNumber rightNumber, Score.value_eq_iff leftNumber rightNumber,
      ← Bytes.before_iff_lt]
    exact Element.before_iff.mp earlier
  members := rfl
  distinct := sound.nodup_members
  size := sound.size_eq
  isEmpty := by simp [SortedSet.isEmpty, sound.size_eq]
  score := fun _ _ => sound.mem_elements_iff.symm
  kept := fun _ _ _ => snd_add_of_not_written

/-- One change keeps a set sound. -/
theorem Sound.edit {set : SortedSet} (sound : set.Sound) (edit : Edit) :
    (set.edit edit).2.Sound := by
  cases edit with
  | add rule member score => exact sound.add rule member score
  | remove member => exact sound.remove member

/-- One change has the same outcome and effect on a sound set as on its plain map. -/
theorem Sound.edit_eq {set : SortedSet} (sound : set.Sound) (edit : Edit) :
    (set.edit edit).map id toMap = set.toMap.edit edit := by
  cases edit with
  | add rule member score =>
    -- The outcome tells what is written, and the plain map writes by the same outcome.
    have outcome := fst_add sound rule member score
    have effect := toMap_snd_add set rule member score
    rw [outcome] at effect
    simp only [SortedSet.edit, ScoreMap.edit, ScoreMap.add]
    refine Prod.ext ?_ ?_
    · cases written : (rule.verdict (set.score? member) score).written? <;>
        simp [outcome, toMap, written]
    · cases written : (rule.verdict (set.score? member) score).written? <;>
        simpa [toMap, written] using effect
  | remove member =>
    have removed := remove_eq set member
    simp only [SortedSet.edit, ScoreMap.edit, ← removed]
    rfl

/-- Changes in turn have the same outcomes and effect on a sound set as on its plain map. -/
theorem Sound.editAll {set : SortedSet} (sound : set.Sound) (edits : List Edit) :
    (set.editAll edits).2.Sound ∧
      (set.editAll edits).map id toMap = set.toMap.editAll edits := by
  -- After each change the set is sound again, and its plain map is the changed one.
  induction edits generalizing set with
  | nil => exact ⟨sound, rfl⟩
  | cons edit rest ih =>
    obtain ⟨soundLater, same⟩ := ih (sound.edit edit)
    have first := sound.edit_eq edit
    refine ⟨soundLater, ?_⟩
    simp only [SortedSet.editAll, ScoreMap.editAll, ← first, Prod.map_fst, Prod.map_snd, ← same]
    rfl

/-- Whatever is added to an empty set and removed from it, the outcomes and all that is seen of the
set are those of a plain map. -/
theorem editAll_represents (edits : List Edit) :
    (empty.editAll edits).1 = (ScoreMap.empty.editAll edits).1 ∧
      (empty.editAll edits).2.Represents (ScoreMap.empty.editAll edits).2 := by
  -- The empty set is sound, and its plain map is the empty one.
  obtain ⟨sound, same⟩ := sound_empty.editAll edits
  have start : empty.toMap = ScoreMap.empty := rfl
  rw [start] at same
  rw [← same]
  exact ⟨rfl, sound.represents⟩

end SortedSet
end ScoreStore
