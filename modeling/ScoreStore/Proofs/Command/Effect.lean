import ScoreStore.Command.Run
import ScoreStore.Proofs.Keyspace.Writes
import ScoreStore.Proofs.SortedSet.ScoreMap

/-!
What actions do to the value under their key, apart from any database, and that only the
content of the value matters.
-/

namespace ScoreStore

namespace SortedSet

/-- Gives scores in turn, and stops where a score would be no number. -/
def addAll (rule : AddRule) (set : SortedSet) (tally : AddTally) :
    List Element → Option AddTally × SortedSet
  | [] => (some tally, set)
  | element :: rest =>
    -- The set is kept as far as it got when a score is refused.
    let result := set.add rule element.member element.score
    match tally.record? result.1 with
    | none => (none, result.2)
    | some next => result.2.addAll rule next rest

/-- Removes members in turn, and counts those that were present. -/
def removeAll (set : SortedSet) : List Bytes → Nat × SortedSet
  | [] => (0, set)
  | member :: rest =>
    let result := set.remove member
    -- A member that is listed twice is counted once, since the first time takes it away.
    let others := result.2.removeAll rest
    (if result.1 then others.1 + 1 else others.1, others.2)

/-- From no members none are removed. -/
theorem removeAll_empty (members : List Bytes) : empty.removeAll members = (0, empty) := by
  induction members with
  | nil => rfl
  | cons member rest ih =>
    -- The empty set is left as it is, so that the others are removed from it as well.
    have absent : empty.remove member = (false, empty) := rfl
    simp only [removeAll, absent, ih, Bool.false_eq_true, if_false]

/-- The value that a set is stored as: none at all without members. -/
def stored? (set : SortedSet) : Option Value :=
  -- A key with an empty set does not exist.
  if set.isEmpty then none else some (.sortedSet set)

end SortedSet

/-- The reply of an action on a sorted set, and the set after it. -/
def SortedSetAction.effect (set : SortedSet) : SortedSetAction → Reply × SortedSet
  | add rule countChanges elements =>
    -- The tally starts empty, whatever was added before.
    let result := set.addAll rule {} elements
    (AddTally.reply rule countChanges result.1, result.2)
  | size => (.count set.size, set)
  | score member => (.ofBytes? ((set.score? member).map Score.write), set)
  | rank reverse member =>
    let found := if reverse then set.reverseRank? member else set.rank? member
    ((found.map Reply.count).getD .missing, set)
  | count selection => (.count (selection.select false set).length, set)
  | list selection reverse page withScores =>
    let selected := selection.select reverse set
    let shown := match page with
      | none => selected
      | some page => page.cut selected
    (.ofElements withScores shown, set)
  | remove members =>
    let result := set.removeAll members
    (.count result.1, result.2)
  | removeSelected selection =>
    -- What is selected is read before the first member goes.
    let result := set.removeAll ((selection.select false set).map Element.member)
    (.count result.1, result.2)

/-- The reply of an action that names one key, and the value under the key after it. -/
def Action.effect (value : Option Value) : Action → Reply × Option Value
  | typeOf _ => (.status ((value.map Value.typeName).getD "none"), value)
  | set _ content => (.ok, some (.string content))
  | get _ =>
    let told := match value with
      | none => .missing
      | some (.string content) => .bulk content
      | some (.sortedSet _) => Refusal.wrongType.reply
    (told, value)
  | sortedSet _ action =>
    match value with
    | none => ((action.effect .empty).1, (action.effect .empty).2.stored?)
    | some (.string _) => (Refusal.wrongType.reply, value)
    | some (.sortedSet members) => ((action.effect members).1, (action.effect members).2.stored?)
  -- The other actions name no key, or several.
  | _ => (.ok, value)

namespace SortedSet

/-- Two sets with the same scores and the same order, whichever way they came about. -/
structure Alike (left right : SortedSet) : Prop where
  scores : ∀ member, left.score? member = right.score? member
  ordered : left.ordered = right.ordered

/-- Sound sets with the same elements are alike. -/
theorem Sound.alike {left right : SortedSet} (leftSound : left.Sound) (rightSound : right.Sound)
    (same : left.elements = right.elements) : Alike left right where
  scores := by
    intro member
    -- A score is present in either set just if its pair is among the elements.
    refine Option.ext fun score => ?_
    rw [← leftSound.mem_elements_iff, ← rightSound.mem_elements_iff, same]
  ordered := same

namespace Alike

variable {left right : SortedSet} (alike : Alike left right)
include alike

theorem size : left.size = right.size := by
  -- As many members have a score in one as in the other.
  refine Table.size_eq_of_contains fun member => ?_
  rw [Table.contains, Table.contains]
  exact congrArg Option.isSome (alike.scores member)

theorem isEmpty : left.isEmpty = right.isEmpty := by
  rw [SortedSet.isEmpty, SortedSet.isEmpty, alike.size]

theorem select (selection : Selection) (reverse : Bool) :
    selection.select reverse left = selection.select reverse right := by
  -- A selection looks at the elements, and by members at the same ones sorted anew.
  have elements : left.elements = right.elements := alike.ordered
  unfold Selection.select SortedSet.byMember
  rw [elements]

theorem rank? (member : Bytes) : left.rank? member = right.rank? member := by
  unfold SortedSet.rank?
  rw [alike.scores, alike.ordered]

theorem reverseRank? (member : Bytes) : left.reverseRank? member = right.reverseRank? member := by
  unfold SortedSet.reverseRank?
  rw [alike.rank?, alike.size]

theorem enter (member : Bytes) (score : Score) :
    Alike (left.enter member score) (right.enter member score) where
  scores := by
    intro other
    have same := alike.scores other
    -- The new score is the one of its member, and the others are those that agreed before.
    unfold SortedSet.score? at same ⊢
    simp only [SortedSet.enter, Table.get?_set, same]
  ordered := congrArg (Element.insert ⟨member, score⟩) alike.ordered

theorem withdraw (member : Bytes) (score : Score) :
    Alike (left.withdraw member score) (right.withdraw member score) where
  -- Taking out of the order leaves the scores alone.
  scores := alike.scores
  ordered := congrArg (Element.erase ⟨member, score⟩) alike.ordered

/-- The same is given to alike sets, with the same outcome. -/
theorem add (rule : AddRule) (member : Bytes) (score : Score) :
    (left.add rule member score).1 = (right.add rule member score).1 ∧
      Alike (left.add rule member score).2 (right.add rule member score).2 := by
  -- The sets are read at one member only.
  unfold SortedSet.add
  rw [alike.scores member]
  -- With the same score found, the rule decides alike, and only its last case changes the set.
  cases right.score? member with
  | none =>
    dsimp only
    split_ifs
    · exact ⟨rfl, alike⟩
    · exact ⟨rfl, alike⟩
    · exact ⟨rfl, alike.enter member score⟩
  | some old =>
    dsimp only
    generalize (if rule.increment = true then old.add score else score) = new
    split_ifs
    · exact ⟨rfl, alike⟩
    · exact ⟨rfl, alike⟩
    · exact ⟨rfl, alike⟩
    · exact ⟨rfl, alike⟩
    · exact ⟨rfl, (alike.withdraw member old).enter member new⟩

/-- The same is removed from alike sets. -/
theorem remove (member : Bytes) :
    (left.remove member).1 = (right.remove member).1 ∧
      Alike (left.remove member).2 (right.remove member).2 := by
  unfold SortedSet.remove
  rw [alike.scores member]
  -- A member without a score changes neither set.
  cases right.score? member with
  | none => exact ⟨rfl, alike⟩
  | some score =>
    refine ⟨rfl, fun other => ?_, congrArg (Element.erase ⟨member, score⟩) alike.ordered⟩
    have same := alike.scores other
    -- Without the member the scores of the others agree as before.
    unfold SortedSet.score? at same ⊢
    simp only [Table.get?_erase, same]

omit alike in
theorem addAll (alike : Alike left right) (rule : AddRule) (tally : AddTally)
    (elements : List Element) :
    (left.addAll rule tally elements).1 = (right.addAll rule tally elements).1 ∧
      Alike (left.addAll rule tally elements).2 (right.addAll rule tally elements).2 := by
  -- After each element the sets are alike again, and so is what was counted.
  induction elements generalizing left right tally with
  | nil => exact ⟨rfl, alike⟩
  | cons element rest ih =>
    obtain ⟨outcome, next⟩ := alike.add rule element.member element.score
    simp only [SortedSet.addAll, outcome]
    -- Whether the tally goes on depends on the outcome, which is the same.
    cases tally.record? (right.add rule element.member element.score).1 with
    | none => exact ⟨rfl, next⟩
    | some tally => exact ih next tally

omit alike in
theorem removeAll (alike : Alike left right) (members : List Bytes) :
    (left.removeAll members).1 = (right.removeAll members).1 ∧
      Alike (left.removeAll members).2 (right.removeAll members).2 := by
  -- The sets stay alike from member to member, so that the counts agree at the end.
  induction members generalizing left right with
  | nil => exact ⟨rfl, alike⟩
  | cons member rest ih =>
    obtain ⟨present, next⟩ := alike.remove member
    obtain ⟨counted, last⟩ := ih next
    refine ⟨?_, last⟩
    simp only [SortedSet.removeAll, present, counted]

/-- An action has the same reply for alike sets, and makes alike sets of them. -/
theorem effect (action : SortedSetAction) :
    (action.effect left).1 = (action.effect right).1 ∧
      Alike (action.effect left).2 (action.effect right).2 := by
  -- Only adding and removing change the sets, and the others read what is alike.
  cases action with
  | add rule countChanges elements =>
    obtain ⟨tally, after⟩ := alike.addAll rule {} elements
    exact ⟨congrArg (AddTally.reply rule countChanges) tally, after⟩
  | size => exact ⟨congrArg Reply.count alike.size, alike⟩
  | score member =>
    refine ⟨?_, alike⟩
    simp only [SortedSetAction.effect, alike.scores]
  | rank reverse member =>
    refine ⟨?_, alike⟩
    simp only [SortedSetAction.effect, alike.rank?, alike.reverseRank?]
  | count selection =>
    refine ⟨?_, alike⟩
    simp only [SortedSetAction.effect, alike.select]
  | list selection reverse page withScores =>
    refine ⟨?_, alike⟩
    simp only [SortedSetAction.effect, alike.select]
  | remove members =>
    obtain ⟨counted, after⟩ := alike.removeAll members
    exact ⟨congrArg Reply.count counted, after⟩
  | removeSelected selection =>
    simp only [SortedSetAction.effect, alike.select]
    obtain ⟨counted, after⟩ :=
      alike.removeAll ((selection.select false right).map Element.member)
    exact ⟨congrArg Reply.count counted, after⟩

end Alike
end SortedSet

/-- What can be seen of a value: a string, or the elements of a sorted set. -/
inductive Content where
  | string (content : Bytes)
  | sortedSet (elements : List Element)
deriving DecidableEq

/-- The content of a value. -/
def Value.content : Value → Content
  | string content => .string content
  | sortedSet set => .sortedSet set.elements

/-- Alike sets are stored with the same content. -/
theorem SortedSet.Alike.content_stored? {left right : SortedSet} (alike : Alike left right) :
    left.stored?.map Value.content = right.stored?.map Value.content := by
  unfold stored?
  rw [alike.isEmpty]
  -- Whether anything is stored depends on whether there are elements.
  split
  · rfl
  · exact congrArg (some ∘ Content.sortedSet) alike.ordered

/-- An action has the same reply for values with the same content, and leaves
values with the same content. -/
theorem Action.effect_congr {left right : Option Value}
    (leftProper : ∀ value, left = some value → value.Proper)
    (rightProper : ∀ value, right = some value → value.Proper)
    (same : left.map Value.content = right.map Value.content) (action : Action) :
    (action.effect left).1 = (action.effect right).1 ∧
      (action.effect left).2.map Value.content = (action.effect right).2.map Value.content := by
  -- Values with the same content are both missing, the same string, or alike sets.
  cases left with
  | none =>
    obtain rfl : right = none := Option.map_eq_none_iff.mp same.symm
    -- A missing value is the empty set for both.
    exact ⟨rfl, rfl⟩
  | some first =>
    obtain ⟨second, rfl, contents⟩ := Option.map_eq_some_iff.mp same.symm
    cases first with
    | string content =>
      cases second with
      -- A string and a set have different contents.
      | sortedSet set => cases contents
      | string other =>
        obtain rfl := Content.string.inj contents
        exact ⟨rfl, rfl⟩
    | sortedSet set =>
      cases second with
      | string content => cases contents
      | sortedSet other =>
        -- Both sets are sound, so that the same elements make them alike.
        have alike : SortedSet.Alike set other := SortedSet.Sound.alike (leftProper _ rfl).1
          (rightProper _ rfl).1 (Content.sortedSet.inj contents).symm
        cases action with
        | sortedSet key action =>
          obtain ⟨reply, after⟩ := alike.effect action
          exact ⟨reply, after.content_stored?⟩
        -- What was stored before is overwritten.
        | set => exact ⟨rfl, rfl⟩
        -- Nothing else looks into a sorted set or changes it.
        | _ => exact ⟨rfl, same⟩

end ScoreStore
