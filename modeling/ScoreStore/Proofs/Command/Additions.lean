import ScoreStore.Proofs.Command.Writes
import ScoreStore.Proofs.SortedSet.Rules

/-!
Giving scores to several members in turn: the scores that are left, what is counted, and
when the key gets a new version.
-/

namespace ScoreStore

/-- The scores that some elements give to a member, in their order. -/
def Element.scoresOf (member : Bytes) (elements : List Element) : List Score :=
  (elements.filter fun element => element.member = member).map Element.score

/-- The scores that are given to a member are some exactly if the member is named. -/
theorem Element.scoresOf_ne_nil_iff {member : Bytes} {elements : List Element} :
    scoresOf member elements ≠ [] ↔ member ∈ elements.map Element.member := by
  rw [scoresOf, Ne, List.map_eq_nil_iff, List.filter_eq_nil_iff, List.mem_map]
  simp

/-- The reply to an increment with some outcome. -/
def AddOutcome.told : AddOutcome → Reply
  | added score | updated score | unchanged score => .bulk score.write
  | skipped => .missing
  | notANumber => Refusal.sumNotANumber.reply

namespace SortedSet

/-- How many of some elements, given to a set in turn, change it. -/
def changes (rule : AddRule) (set : SortedSet) : List Element → Nat
  | [] => 0
  | element :: rest =>
    let after := (set.add rule element.member element.score).2
    (if after.elements = set.elements then 0 else 1) + after.changes rule rest

variable {set : SortedSet} {rule : AddRule}

/-- Not more elements change a set than are given to it. -/
theorem changes_le_length (rule : AddRule) (set : SortedSet) (elements : List Element) :
    set.changes rule elements ≤ elements.length := by
  induction elements generalizing set with
  | nil => exact Nat.le_refl 0
  | cons element rest ih =>
    -- One element changes the set once at most.
    have later := ih (set.add rule element.member element.score).2
    rw [changes, List.length_cons]
    split <;> omega

/-- What becomes of a set when a score is given to a member: it enters new, takes the place of
another one, or nothing happens. -/
inductive Given (set : SortedSet) (member : Bytes) : AddOutcome → SortedSet → Prop where
  /-- The member is new. -/
  | added {score : Score} (absent : set.score? member = none) :
    set.Given member (.added score) (set.enter member score)
  /-- The member had another score. -/
  | updated {old score : Score} (present : set.score? member = some old) :
    set.Given member (.updated score) ((set.withdraw member old).enter member score)
  /-- No score is written. -/
  | kept {outcome : AddOutcome} (unwritten : outcome.written? = none) : set.Given member outcome set

/-- An attempt to give a score has one of these outcomes. -/
theorem given_add (set : SortedSet) (rule : AddRule) (member : Bytes) (score : Score) :
    set.Given member (set.add rule member score).1 (set.add rule member score).2 := by
  -- One case for each way that giving a score can end.
  unfold add
  cases present : set.score? member with
  | none =>
    dsimp only
    split
    · exact .kept rfl
    · split
      · exact .kept rfl
      · exact .added present
  | some old =>
    dsimp only
    generalize (if rule.increment = true then old.add score else score) = new
    split
    · exact .kept rfl
    · split
      · exact .kept rfl
      · split
        · exact .kept rfl
        · split
          · exact .kept rfl
          · exact .updated present

/-- Entering a member makes a set greater by one unless the member was there. -/
theorem size_enter (set : SortedSet) (member : Bytes) (score : Score) :
    (set.enter member score).size + (if (set.score? member).isSome then 1 else 0) =
      set.size + 1 :=
  set.scores.size_set member score

namespace Sound

/-- A score given to a member settles the score of that member, and of no other. -/
theorem score?_add (sound : set.Sound) (rule : AddRule) (member : Bytes) (score : Score)
    (other : Bytes) : (set.add rule member score).2.score? other =
      if other = member then rule.next (set.score? other) score else set.score? other := by
  -- What is true of the map from members to scores is read off at the one member.
  have effect := congrFun (toMap_snd_add set rule member score) other
  rw [fst_add sound] at effect
  -- The outcome tells what is written under the member.
  show (set.add rule member score).2.toMap other = _
  rw [effect]
  by_cases same : other = member
  · subst same
    rw [if_pos rfl, AddRule.next]
    cases (rule.verdict (set.score? other) score).written? with
    | none => rfl
    | some new => exact Function.update_self other (some new) set.toMap
  · -- At any other member nothing is written.
    rw [if_neg same]
    cases (rule.verdict (set.score? member) score).written? with
    | none => rfl
    | some new => exact Function.update_of_ne same (some new) set.toMap

/-- A set has other elements afterwards exactly if a score is written. -/
theorem elements_add_iff (sound : set.Sound) {member : Bytes} {score : Score} :
    (set.add rule member score).2.elements = set.elements ↔
      (set.add rule member score).1.written? = none := by
  constructor
  · intro same
    cases written : (set.add rule member score).1.written? with
    | none => rfl
    | some new =>
      -- The member would have had the score that is written for it.
      exfalso
      have settled := sound.score?_add rule member score member
      rw [if_pos rfl, AddRule.next, ← fst_add sound, written] at settled
      have inside := (sound.add rule member score).mem_elements_iff.mpr settled
      rw [same] at inside
      have present := sound.mem_elements_iff.mp inside
      rw [fst_add sound, present] at written
      exact AddRule.value_ne_of_written written rfl
  · -- What writes nothing gives the set back.
    intro kept
    rw [snd_add_of_not_written kept]

/-- Given in turn, numbers settle the scores of all members, each one by the
numbers that are given to it. -/
theorem score?_addAll_eq (sound : set.Sound) (plain : rule.increment = false)
    {elements : List Element} (numbers : ∀ element ∈ elements, element.score.isNaN = false)
    (tally : AddTally) (member : Bytes) :
    (set.addAll rule tally elements).2.score? member =
      rule.settle (set.score? member) (Element.scoresOf member elements) := by
  -- By induction on the elements, each of which settles one step for its own member.
  induction elements generalizing set tally with
  | nil => rfl
  | cons element rest ih =>
    obtain ⟨number, numbers⟩ := List.forall_mem_cons.mp numbers
    have first := sound.score?_add rule element.member element.score member
    have proceeds := SortedSetAction.fst_add_ne_notANumber set plain number element.member
    rw [addAll]
    split
    · next stops => exact absurd (AddTally.record?_eq_none_iff.mp stops) proceeds
    · next next _ =>
      -- The first score counts only for its own member.
      rw [ih (sound.add rule element.member element.score) numbers next, first]
      unfold Element.scoresOf
      by_cases own : element.member = member
      · rw [if_pos own.symm, List.filter_cons_of_pos (by simpa using own), List.map_cons]
        rfl
      · rw [if_neg (Ne.symm own), List.filter_cons_of_neg (by simpa using own)]

/-- What is counted of one attempt: a new member by the size of the set,
and a write by its change. -/
theorem record?_add (sound : set.Sound) {member : Bytes} {score : Score}
    (proceeds : (set.add rule member score).1 ≠ .notANumber) (tally : AddTally) :
    ∃ next, tally.record? (set.add rule member score).1 = some next ∧
      next.added + set.size = tally.added + (set.add rule member score).2.size ∧
      next.added + next.updated = tally.added + tally.updated +
        if (set.add rule member score).2.elements = set.elements then 0 else 1 := by
  have changed : (set.add rule member score).2.elements = set.elements ↔
      (set.add rule member score).1.written? = none := sound.elements_add_iff
  have given := set.given_add rule member score
  generalize set.add rule member score = result at proceeds changed given ⊢
  obtain ⟨outcome, after⟩ := result
  simp only [changed]
  -- By what becomes of the set: a new member, another score, or nothing.
  cases given with
  | @added new absent =>
    have size := set.size_enter member new
    rw [absent] at size
    refine ⟨{ tally with added := tally.added + 1, last := some new }, rfl, ?_, ?_⟩
    · show tally.added + 1 + set.size = tally.added + (set.enter member new).size
      simp only [Option.isSome_none, Bool.false_eq_true, if_false] at size
      omega
    · show tally.added + 1 + tally.updated = tally.added + tally.updated + 1
      omega
  | @updated old new present =>
    -- The member leaves the order, but not the map by which members are counted.
    have size : (set.enter member new).size + (if (set.score? member).isSome then 1 else 0) =
        set.size + 1 := set.size_enter member new
    rw [present] at size
    refine ⟨{ tally with updated := tally.updated + 1, last := some new }, rfl, ?_, ?_⟩
    · show tally.added + set.size = tally.added + (set.enter member new).size
      simp only [Option.isSome_some, if_true] at size
      omega
    · show tally.added + (tally.updated + 1) = tally.added + tally.updated + 1
      omega
  | kept unwritten =>
    -- Neither the set nor the counts are others.
    cases outcome with
    | added | updated => cases unwritten
    | notANumber => exact absurd rfl proceeds
    | unchanged old => exact ⟨{ tally with last := some old }, rfl, rfl, rfl⟩
    | skipped => exact ⟨{ tally with last := none }, rfl, rfl, rfl⟩

/-- What is counted of numbers given in turn: members that are new by the size of the set, and
all writes by its changes. -/
theorem addAll_counts (sound : set.Sound) (plain : rule.increment = false)
    {elements : List Element} (numbers : ∀ element ∈ elements, element.score.isNaN = false)
    (tally : AddTally) :
    ∃ total, (set.addAll rule tally elements).1 = some total ∧
      total.added + set.size = tally.added + (set.addAll rule tally elements).2.size ∧
      total.added + total.updated = tally.added + tally.updated + set.changes rule elements := by
  -- By induction on the elements, with the tally of the ones so far.
  induction elements generalizing set tally with
  | nil => exact ⟨tally, rfl, rfl, rfl⟩
  | cons element rest ih =>
    obtain ⟨number, numbers⟩ := List.forall_mem_cons.mp numbers
    have proceeds := SortedSetAction.fst_add_ne_notANumber set plain number element.member
    obtain ⟨next, counted, added, all⟩ := sound.record?_add proceeds tally
    -- The rest is counted from what the first element came to.
    obtain ⟨total, result, addedLater, allLater⟩ :=
      ih (sound.add rule element.member element.score) numbers next
    simp only [addAll, counted, changes]
    exact ⟨total, result, by omega, by omega⟩

/-- On a sound set an attempt gives a member another score exactly if it changes the elements. -/
theorem changesScore_eq (sound : set.Sound) (element : Element) (rest : List Element) :
    set.changesScore rule (element :: rest) =
      (decide ((set.add rule element.member element.score).2.elements ≠ set.elements) ||
        ((set.add rule element.member element.score).1 != .notANumber &&
          (set.add rule element.member element.score).2.changesScore rule rest)) := by
  have changed : (set.add rule element.member element.score).2.elements = set.elements ↔
      (set.add rule element.member element.score).1.written? = none := sound.elements_add_iff
  -- Both sides ask of the first element whether it writes, in other words.
  rw [changesScore_cons]
  congr 1
  rw [Bool.eq_iff_iff, Option.isSome_iff_ne_none, decide_eq_true_iff]
  exact not_congr changed.symm

/-- Numbers given in turn change nothing exactly if no score of a member becomes another one. -/
theorem changes_eq_zero_iff (sound : set.Sound) (plain : rule.increment = false)
    {elements : List Element} (numbers : ∀ element ∈ elements, element.score.isNaN = false) :
    set.changes rule elements = 0 ↔ set.changesScore rule elements = false := by
  -- By induction on the elements.
  induction elements generalizing set with
  | nil => exact iff_of_true rfl rfl
  | cons element rest ih =>
    obtain ⟨number, numbers⟩ := List.forall_mem_cons.mp numbers
    have proceeds := SortedSetAction.fst_add_ne_notANumber set plain number element.member
    have later := ih (sound.add rule element.member element.score) numbers
    -- The first element counts as a change, or else only the others can.
    rw [changes, sound.changesScore_eq, bne_iff_ne.mpr proceeds, Bool.true_and,
      Bool.or_eq_false_iff, ← later, Nat.add_eq_zero_iff, decide_eq_false_iff_not, not_not]
    refine and_congr_left fun _ => ?_
    split
    · next same => exact iff_of_true rfl same
    · next different => exact iff_of_false Nat.one_ne_zero different

end Sound
end SortedSet

namespace AddOutcome

variable {outcome : AddOutcome}

/-- The reply is missing exactly where a condition prevented the increment. -/
theorem told_eq_missing_iff : outcome.told = .missing ↔ outcome = .skipped := by
  cases outcome <;> simp [told, Refusal.reply]

/-- The reply tells of a sum that is no number exactly where there was none. -/
theorem told_eq_refusal_iff :
    outcome.told = Refusal.sumNotANumber.reply ↔ outcome = .notANumber := by
  cases outcome <;> simp [told, Refusal.reply]

/-- A text in the reply is the score that the outcome tells, as it is written. -/
theorem result?_of_told {text : Bytes} (told : outcome.told = .bulk text) :
    ∃ score, outcome.result? = some score ∧ score.write = text := by
  -- A content is told of a score only.
  cases outcome with
  | added score | updated score | unchanged score => exact ⟨score, rfl, Reply.bulk.inj told⟩
  | skipped | notANumber => cases told

/-- No other reply is told. -/
theorem told_forms (outcome : AddOutcome) : outcome.told = .missing ∨
    outcome.told = Refusal.sumNotANumber.reply ∨ ∃ text, outcome.told = .bulk text := by
  cases outcome with
  | added score | updated score | unchanged score => exact Or.inr (Or.inr ⟨_, rfl⟩)
  | skipped => exact Or.inl rfl
  | notANumber => exact Or.inr (Or.inl rfl)

end AddOutcome

namespace SortedSetAction

variable {set : SortedSet} {rule : AddRule} {countChanges : Bool} {element : Element}

/-- An increment of one member is one attempt, whose outcome is told. -/
theorem effect_increment (increment : rule.increment = true) :
    (add rule countChanges [element]).effect set =
      ((set.add rule element.member element.score).1.told,
        (set.add rule element.member element.score).2) := by
  -- The tally after one outcome tells its score, unless there was no sum to tally.
  unfold effect
  generalize made : set.add rule element.member element.score = result
  obtain ⟨outcome, after⟩ := result
  cases outcome <;>
    simp [SortedSet.addAll, made, AddTally.record?, AddTally.reply, increment, AddOutcome.told,
      Reply.ofBytes?]

/-- An increment that is told without a score writes nothing. -/
theorem writes_of_told (silent :
    (set.add rule element.member element.score).1.told = .missing ∨
      (set.add rule element.member element.score).1.told = Refusal.sumNotANumber.reply) :
    (add rule countChanges [element]).writes set = false := by
  rw [AddOutcome.told_eq_missing_iff, AddOutcome.told_eq_refusal_iff] at silent
  -- There is one element, and neither outcome writes.
  rw [writes, SortedSet.changesScore_cons]
  rcases silent with skipped | lacking
  · simp [skipped, AddOutcome.written?, SortedSet.changesScore]
  · simp [lacking, AddOutcome.written?]

end SortedSetAction

namespace SortedSet.Sound

variable {set : SortedSet} {rule : AddRule} {member : Bytes} {amount : Score}

/-- An increment is told as missing exactly if a condition stands against it. -/
theorem told_add_eq_missing_iff (sound : set.Sound) (increment : rule.increment = true)
    (number : amount.isNaN = false) : (set.add rule member amount).1.told = .missing ↔
      rule.Prevents (set.score? member) amount := by
  rw [AddOutcome.told_eq_missing_iff, fst_add sound]
  exact AddRule.verdict_eq_skipped_iff increment number

/-- An increment is refused for its sum exactly if it has none. -/
theorem told_add_eq_refusal_iff (sound : set.Sound) (increment : rule.increment = true)
    (number : amount.isNaN = false) :
    (set.add rule member amount).1.told = Refusal.sumNotANumber.reply ↔
      rule.LacksSum (set.score? member) amount := by
  rw [AddOutcome.told_eq_refusal_iff, fst_add sound]
  exact AddRule.verdict_eq_notANumber_iff increment number

/-- A text that is told is the score that the member has afterwards, as it is written. -/
theorem score?_of_told_add (sound : set.Sound) {text : Bytes}
    (told : (set.add rule member amount).1.told = .bulk text) :
    ((set.add rule member amount).2.score? member).map Score.write = some text := by
  obtain ⟨score, result, rfl⟩ := AddOutcome.result?_of_told told
  rw [fst_add sound] at result
  rw [sound.score?_add rule member amount member, if_pos rfl, AddRule.next_of_result? result]
  rfl

end SortedSet.Sound

namespace Database

variable {database after : Database} {key : Bytes} {set : SortedSet} {rule : AddRule}

/-- A key that is stored gets the next version, as long as the greatest one is not reached. -/
theorem lt_version_put (database : Database) (key : Bytes) (value : Value)
    (below : (database.put key value).lastVersion < maxVersion) :
    database.lastVersion < (database.put key value).version key := by
  -- Below the greatest version the next one was not cut off.
  simp only [put, Database.touch, revise, version, Table.get?_set, if_true, Option.getD_some]
    at below ⊢
  omega

/-- Giving scores in turn gives the key a version that is greater than all earlier ones, if it
changes a score. -/
theorem lt_version_addMembers (stored : database.sortedSet key = .ok set) {tally : AddTally}
    {elements : List Element} {total : Option AddTally}
    (ran : database.addMembers key rule tally elements = (.ok total, after))
    (wrote : set.changesScore rule elements = true)
    (below : after.lastVersion < maxVersion) : database.lastVersion < after.version key := by
  -- By induction on the elements: a write leaves a version that later writes only go beyond.
  induction elements generalizing database set tally with
  | nil => cases wrote
  | cons element rest ih =>
    obtain ⟨early, storedNext⟩ := storeAdded_spec stored rule element.member element.score
    have first : database.addMember key rule element.member element.score =
        .ok ((set.add rule element.member element.score).1,
          database.storeAdded key (set.add rule element.member element.score)) := by
      simp [addMember, stored, Except.map]
    cases recorded : tally.record? (set.add rule element.member element.score).1 with
    | none =>
      -- What stops the command writes nothing.
      have stops := AddTally.record?_eq_none_iff.mp recorded
      simp [SortedSet.changesScore_cons, stops, AddOutcome.written?] at wrote
    | some next =>
      simp only [addMembers, first, recorded] at ran
      obtain ⟨_, result, _, late⟩ := addMembers_spec storedNext rule next rest
      obtain ⟨_, rfl⟩ := Prod.mk.inj (result.symm.trans ran)
      have middle := Nat.lt_of_le_of_lt (late.grows below) below
      cases again : (set.add rule element.member element.score).2.changesScore rule rest with
      | true =>
        -- A later write gives a version beyond the one that the first left.
        exact Nat.lt_of_le_of_lt (early.grows middle) (ih storedNext ran again)
      | false =>
        -- Otherwise the first element is written, and its version stays.
        have kept := late.kept key fun written => by simp [again] at written
        have written : (set.add rule element.member element.score).1.written?.isSome = true := by
          simpa [SortedSet.changesScore_cons, again] using wrote
        rw [version, kept, ← version]
        rw [storeAdded_eq, written, if_pos rfl] at middle ⊢
        exact lt_version_put database key _ middle

end Database
end ScoreStore
