import ScoreStore.Proofs.SortedSet.ScoreMap

/-!
What the rules for giving scores make of a member's score when several
scores are given to it in turn.
-/

namespace ScoreStore

namespace Score

/-- A score stands for one of the numbers that some scores stand for, and no other
one of them lies beyond it. -/
def IsExtreme (beyond : Extended → Extended → Prop) (score : Score) (scores : List Score) : Prop :=
  (∃ other ∈ scores, other.value = score.value) ∧
    ∀ other ∈ scores, ¬ beyond other.value score.value

/-- A score stands for the greatest of some numbers. -/
def IsGreatest : Score → List Score → Prop := IsExtreme fun other score => score < other

/-- A score stands for the least of some numbers. -/
def IsLeast : Score → List Score → Prop := IsExtreme fun other score => other < score

variable {beyond : Extended → Extended → Prop} {score kept first second : Score}
  {scores : List Score}

/-- Of two scores the one that lies beyond the other may stand for both. -/
theorem IsExtreme.cons (extreme : score.IsExtreme beyond (kept :: scores))
    (apart : ∀ left right, beyond left right → ∀ middle, beyond left middle ∨ beyond middle right)
    (one : kept = first ∨ kept = second) (notFirst : ¬ beyond first.value kept.value)
    (notSecond : ¬ beyond second.value kept.value) :
    score.IsExtreme beyond (first :: second :: scores) := by
  obtain ⟨⟨other, member, same⟩, bound⟩ := extreme
  have notKept := bound kept List.mem_cons_self
  refine ⟨?_, ?_⟩
  · -- What is kept is one of the two.
    rcases List.mem_cons.mp member with rfl | later
    · rcases one with rfl | rfl
      · exact ⟨_, List.mem_cons_self, same⟩
      · exact ⟨_, List.mem_cons_of_mem _ List.mem_cons_self, same⟩
    · exact ⟨other, List.mem_cons_of_mem _ (List.mem_cons_of_mem _ later), same⟩
  · -- What lay beyond the result would lie beyond what is kept.
    intro other member far
    rcases List.mem_cons.mp member with rfl | member
    · exact (apart _ _ far kept.value).elim notFirst notKept
    · rcases List.mem_cons.mp member with rfl | later
      · exact (apart _ _ far kept.value).elim notSecond notKept
      · exact bound other (List.mem_cons_of_mem _ later) far

end Score

/-- The score that a member has after an outcome, as far as the outcome tells it. -/
def AddOutcome.result? : AddOutcome → Option Score
  | added score | updated score | unchanged score => some score
  | skipped | notANumber => none

namespace AddRule

/-- The score of a member after one more score was given to it. -/
def next (rule : AddRule) (present : Option Score) (score : Score) : Option Score :=
  (rule.verdict present score).written?.or present

/-- The score of a member after several scores were given to it in turn. -/
def settle (rule : AddRule) (present : Option Score) (scores : List Score) : Option Score :=
  scores.foldl rule.next present

/-- What a rule declares to be left of a member's score and those that are given to it: members
that must not be present or must be so keep what they have, and otherwise the greatest, the
least or the last number wins. -/
def Leaves (rule : AddRule) (present : Option Score) (given : List Score)
    (left : Option Score) : Prop :=
  match present with
  | none =>
    if rule.onlyPresent then left = none
    else ∃ score, left = some score ∧
      if rule.onlyAbsent then given.head?.map Score.value = some score.value
      else if rule.onlyGreater then score.IsGreatest given
      else if rule.onlyLess then score.IsLeast given
      else given.getLast?.map Score.value = some score.value
  | some old =>
    ∃ score, left = some score ∧
      if rule.onlyAbsent then score = old
      else if rule.onlyGreater then score.IsGreatest (old :: given)
      else if rule.onlyLess then score.IsLeast (old :: given)
      else given.getLast?.map Score.value = some score.value

/-- A condition of the rule stands against an increment: on the presence of the member, or on the
direction in which its score would move. -/
def Prevents (rule : AddRule) (present : Option Score) (amount : Score) : Prop :=
  match present with
  | none => rule.onlyPresent = true
  | some old =>
    let sum := old.add amount
    rule.onlyAbsent = true ∨ (sum.isNaN = false ∧
      ((rule.onlyGreater = true ∧ ¬ old.value < sum.value) ∨
        (rule.onlyLess = true ∧ ¬ sum.value < old.value)))

/-- The increment of a score that may be changed has no number as its sum. -/
def LacksSum (rule : AddRule) (present : Option Score) (amount : Score) : Prop :=
  ∃ old, present = some old ∧ rule.onlyAbsent = false ∧ (old.add amount).isNaN = true

variable {rule : AddRule} {old score : Score}

/-- A number given to a member that is not there becomes its score, unless
the member must be there. -/
theorem next_none (number : score.isNaN = false) :
    rule.next none score = if rule.onlyPresent then none else some score := by
  -- The other conditions are about members that are there.
  unfold next verdict aim
  cases rule.onlyPresent <;> simp [number, AddOutcome.written?]

/-- A number given to a member that is there replaces another number, as
far as the rule allows it. -/
theorem next_some (plain : rule.increment = false) (number : score.isNaN = false) :
    rule.next (some old) score =
      some (if rule.onlyAbsent then old
        else if (rule.onlyGreater ∧ ¬ old.value < score.value) ∨
          (rule.onlyLess ∧ ¬ score.value < old.value) then old
        else if score.value = old.value then old
        else score) := by
  -- The score that is aimed at is the given one, and it is a number.
  unfold next verdict aim
  cases absent : rule.onlyAbsent with
  | true => simp [AddOutcome.written?]
  | false =>
    simp only [plain, number, Bool.false_eq_true, if_false, Option.isSome_some, and_false,
      Option.isNone_some, false_and, or_self]
    split_ifs <;> rfl

/-- What a rule can decide: nothing is written, or the score that it aims at, and only in
the place of another number. -/
inductive Decides (rule : AddRule) (present : Option Score) (score : Score) :
    AddOutcome → Prop where
  /-- A condition does not hold. -/
  | skipped : rule.Decides present score .skipped
  /-- The score aimed at is no number. -/
  | notANumber : rule.Decides present score .notANumber
  /-- The member is new. -/
  | added (absent : present = none) : rule.Decides present score (.added (rule.aim present score))
  /-- The member has the same number already. -/
  | unchanged {old : Score} (held : present = some old)
      (same : (rule.aim present score).value = old.value) :
    rule.Decides present score (.unchanged old)
  /-- The member has another number. -/
  | updated {old : Score} (held : present = some old)
      (different : (rule.aim present score).value ≠ old.value) :
    rule.Decides present score (.updated (rule.aim present score))

/-- Every verdict is one of these. -/
theorem decides_verdict (rule : AddRule) (present : Option Score) (score : Score) :
    rule.Decides present score (rule.verdict present score) := by
  unfold verdict
  dsimp only
  split
  · -- The order of the checks is that of the verdict itself.
    exact .skipped
  · split
    · exact .notANumber
    · -- Only where the member is there its direction and its old score matter.
      cases present with
      | none => exact .added rfl
      | some old =>
        dsimp only
        split
        · exact .skipped
        · split
          · next same => exact .unchanged rfl same
          · next different => exact .updated rfl different

/-- A score that is written in the place of another one stands for another number. -/
theorem value_ne_of_written {new : Score}
    (written : (rule.verdict (some old) score).written? = some new) : new.value ≠ old.value := by
  have decided := rule.decides_verdict (some old) score
  generalize rule.verdict (some old) score = outcome at decided written
  -- By the outcome that is decided, of which only a new score is written.
  cases decided with
  | skipped | notANumber => cases written
  | added absent => cases absent
  | unchanged held same => cases written
  | updated held different =>
    cases held
    obtain rfl := Option.some.inj written
    exact different

/-- The score that an outcome tells is the one that the member has afterwards. -/
theorem next_of_result? {present : Option Score} {new : Score}
    (result : (rule.verdict present score).result? = some new) :
    rule.next present score = some new := by
  have decided := rule.decides_verdict present score
  unfold next
  generalize rule.verdict present score = outcome at decided result ⊢
  cases decided with
  | skipped | notANumber => cases result
  -- The score that stays is the one that was found.
  | added absent => exact result
  | unchanged held same => exact held.trans result
  | updated held different => exact result

/-- An increment is skipped exactly if a condition stands against it. -/
theorem verdict_eq_skipped_iff (increment : rule.increment = true) (number : score.isNaN = false)
    {present : Option Score} :
    rule.verdict present score = .skipped ↔ rule.Prevents present score := by
  -- Presence is checked first, and then whether there is a sum.
  unfold verdict aim Prevents
  cases present with
  -- A member that is not there has nothing to go by but that.
  | none => cases rule.onlyPresent <;> simp [number]
  | some old =>
    simp only [increment, if_true]
    generalize old.add score = sum
    cases rule.onlyAbsent with
    | true => simp
    | false =>
      -- Where the sum is a number, the direction alone decides.
      cases sum.isNaN with
      | true => simp
      | false =>
        simp only [Bool.false_eq_true, and_false, or_self, if_false, false_or, true_and,
          Option.isNone_some, false_and]
        split
        · next moves => exact iff_of_true rfl moves
        · next moves => split <;> exact iff_of_false (by simp) moves

/-- An increment has no sum exactly if its sum would be no number and the member may be present. -/
theorem verdict_eq_notANumber_iff (increment : rule.increment = true)
    (number : score.isNaN = false) {present : Option Score} :
    rule.verdict present score = .notANumber ↔ rule.LacksSum present score := by
  -- A new member gets the amount itself, which is a number.
  unfold verdict aim LacksSum
  cases present with
  -- A new member has no old score to be added to.
  | none => cases rule.onlyPresent <;> simp [number]
  | some old =>
    simp only [increment, if_true, Option.some.injEq, exists_eq_left']
    generalize old.add score = sum
    cases rule.onlyAbsent with
    | true => simp
    | false =>
      cases sum.isNaN with
      | true => simp
      | false =>
        simp only [Bool.false_eq_true, and_false, or_self, if_false, Option.isNone_some, false_and]
        repeat' split
        all_goals simp

/-- What is left of two scores is one of them, and neither lies beyond it, where a rule keeps
what lies beyond the other. -/
theorem settle_extreme {beyond : Extended → Extended → Prop} [DecidableRel beyond]
    (apart : ∀ left right, beyond left right → ∀ middle, beyond left middle ∨ beyond middle right)
    (asymmetric : ∀ left right, beyond left right → ¬ beyond right left)
    (step : ∀ old score : Score, score.isNaN = false → rule.next (some old) score =
      some (if beyond score.value old.value then score else old))
    {given : List Score} (numbers : ∀ score ∈ given, score.isNaN = false) (old : Score) :
    ∃ score, rule.settle (some old) given = some score ∧ score.IsExtreme beyond (old :: given) := by
  -- Two scores of one value leave the old one, which is as far out as the other.
  have irreflexive : ∀ value, ¬ beyond value value := fun value far => asymmetric _ _ far far
  -- By induction on the given scores, with the score that the ones so far have left.
  induction given generalizing old with
  | nil =>
    -- Nothing lies beyond itself.
    refine ⟨old, rfl, ⟨old, List.mem_cons_self, rfl⟩, ?_⟩
    intro other member
    rw [List.mem_singleton.mp member]
    exact irreflexive old.value
  | cons first rest ih =>
    obtain ⟨number, numbers⟩ := List.forall_mem_cons.mp numbers
    -- The rest goes on from what the first score leaves.
    show ∃ score, rule.settle (rule.next (some old) first) rest = some score ∧ _
    rw [step old first number]
    split
    · next far =>
      obtain ⟨score, left, extreme⟩ := ih numbers first
      exact ⟨score, left, extreme.cons apart (Or.inr rfl) (asymmetric _ _ far) (irreflexive _)⟩
    · next near =>
      obtain ⟨score, left, extreme⟩ := ih numbers old
      exact ⟨score, left, extreme.cons apart (Or.inl rfl) (irreflexive _) near⟩

/-- A rule for greater scores leaves the greatest one. -/
theorem settle_greatest (plain : rule.increment = false) (free : rule.onlyAbsent = false)
    (greater : rule.onlyGreater = true) (single : rule.onlyLess = false) {given : List Score}
    (numbers : ∀ score ∈ given, score.isNaN = false) (old : Score) :
    ∃ score, rule.settle (some old) given = some score ∧ score.IsGreatest (old :: given) := by
  refine settle_extreme (fun left right less middle => (Extended.lt_or_lt_of_lt less middle).symm)
    (fun left right => Extended.lt_asymm) (fun old score number => ?_) numbers old
  rw [next_some plain number]
  by_cases less : old.value < score.value
  · -- A greater number is another one.
    have different : score.value ≠ old.value := fun same =>
      Extended.lt_asymm less (by rw [same] at less ⊢; exact less)
    simp [free, single, less, different]
  · simp [free, greater, less]

/-- A rule for lesser scores leaves the least one. -/
theorem settle_least (plain : rule.increment = false) (free : rule.onlyAbsent = false)
    (single : rule.onlyGreater = false) (less : rule.onlyLess = true) {given : List Score}
    (numbers : ∀ score ∈ given, score.isNaN = false) (old : Score) :
    ∃ score, rule.settle (some old) given = some score ∧ score.IsLeast (old :: given) := by
  refine settle_extreme (fun left right less middle => Extended.lt_or_lt_of_lt less middle)
    (fun left right => Extended.lt_asymm) (fun old score number => ?_) numbers old
  rw [next_some plain number]
  -- The same with the order the other way round.
  by_cases lesser : score.value < old.value
  · have different : score.value ≠ old.value := fun same =>
      Extended.lt_asymm lesser (by rw [same] at lesser ⊢; exact lesser)
    simp [free, single, lesser, different]
  · simp [free, less, lesser]

/-- A rule without conditions on the order leaves the last number. -/
theorem settle_last (plain : rule.increment = false) (free : rule.onlyAbsent = false)
    (notGreater : rule.onlyGreater = false) (notLess : rule.onlyLess = false) {given : List Score}
    (numbers : ∀ score ∈ given, score.isNaN = false) (old : Score) :
    ∃ score, rule.settle (some old) given = some score ∧
      (old :: given).getLast?.map Score.value = some score.value := by
  -- By induction on the given scores, of which the last one is always what stays.
  induction given generalizing old with
  | nil => exact ⟨old, rfl, rfl⟩
  | cons first rest ih =>
    obtain ⟨number, numbers⟩ := List.forall_mem_cons.mp numbers
    show ∃ score, rule.settle (rule.next (some old) first) rest = some score ∧ _
    rw [next_some plain number, List.getLast?_cons_cons]
    by_cases same : first.value = old.value
    · -- The old score stays, but it stands for the same number.
      obtain ⟨score, left, last⟩ := ih numbers old
      refine ⟨score, by simpa [free, notGreater, notLess, same] using left, ?_⟩
      cases rest with
      | nil => simpa [same] using last
      | cons second rest => simpa using last
    · -- Another number takes the place of the old score.
      obtain ⟨score, left, last⟩ := ih numbers first
      exact ⟨score, by simpa [free, notGreater, notLess, same] using left, last⟩

/-- A rule for absent members keeps what is there. -/
theorem settle_kept (plain : rule.increment = false) (absent : rule.onlyAbsent = true)
    {given : List Score} (numbers : ∀ score ∈ given, score.isNaN = false) (old : Score) :
    rule.settle (some old) given = some old := by
  -- By induction on the given scores: a score that is there stays whatever comes.
  induction given with
  | nil => rfl
  | cons first rest ih =>
    obtain ⟨number, numbers⟩ := List.forall_mem_cons.mp numbers
    show rule.settle (rule.next (some old) first) rest = some old
    rw [next_some plain number, if_pos absent]
    exact ih numbers

/-- A rule for present members leaves out those that are not there. -/
theorem settle_absent (present : rule.onlyPresent = true)
    {given : List Score} (numbers : ∀ score ∈ given, score.isNaN = false) :
    rule.settle none given = none := by
  -- And none comes where none may.
  induction given with
  | nil => rfl
  | cons first rest ih =>
    obtain ⟨number, numbers⟩ := List.forall_mem_cons.mp numbers
    show rule.settle (rule.next none first) rest = none
    rw [next_none number, if_pos present]
    exact ih numbers

/-- Scores given in turn to a member that is there leave what the rule declares of all of them. -/
theorem settle_some (plain : rule.increment = false)
    (oneWay : ¬ (rule.onlyGreater = true ∧ rule.onlyLess = true)) {given : List Score}
    (numbers : ∀ score ∈ given, score.isNaN = false) (old : Score) :
    ∃ score, rule.settle (some old) given = some score ∧
      if rule.onlyAbsent then score = old
      else if rule.onlyGreater then score.IsGreatest (old :: given)
      else if rule.onlyLess then score.IsLeast (old :: given)
      else (old :: given).getLast?.map Score.value = some score.value := by
  -- The conditions exclude each other in this order.
  cases absent : rule.onlyAbsent with
  | true => exact ⟨old, settle_kept plain absent numbers old, rfl⟩
  | false =>
    cases greater : rule.onlyGreater with
    | true =>
      have single : rule.onlyLess = false := Bool.not_eq_true _ ▸ fun less => oneWay ⟨greater, less⟩
      exact settle_greatest plain absent greater single numbers old
    | false =>
      cases less : rule.onlyLess with
      | true => exact settle_least plain absent greater less numbers old
      | false => exact settle_last plain absent greater less numbers old

/-- Scores given in turn leave what the rule declares, unless they shall both grow and shrink. -/
theorem leaves_settle (plain : rule.increment = false)
    (oneWay : ¬ (rule.onlyGreater = true ∧ rule.onlyLess = true)) {given : List Score}
    (several : given ≠ []) (numbers : ∀ score ∈ given, score.isNaN = false)
    (present : Option Score) : rule.Leaves present given (rule.settle present given) := by
  obtain ⟨first, rest, rfl⟩ := List.exists_cons_of_ne_nil several
  cases present with
  | none =>
    unfold Leaves
    dsimp only
    split
    · next required => exact settle_absent required numbers
    · next free =>
      -- The first score makes the member present, and the rest goes on from there.
      obtain ⟨number, later⟩ := List.forall_mem_cons.mp numbers
      obtain ⟨score, left, wins⟩ := settle_some plain oneWay later first
      refine ⟨score, ?_, ?_⟩
      · show rule.settle (rule.next none first) rest = some score
        rw [next_none number, if_neg free]
        exact left
      · split at wins
        · next absent =>
          rw [if_pos absent, wins]
          rfl
        · next anyway =>
          rw [if_neg anyway]
          exact wins
  | some old =>
    obtain ⟨score, left, wins⟩ := settle_some plain oneWay numbers old
    rw [List.getLast?_cons_cons] at wins
    exact ⟨score, left, wins⟩

end AddRule
end ScoreStore
