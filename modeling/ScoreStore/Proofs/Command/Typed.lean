import ScoreStore.Proofs.Connection.Local

/-!
Actions on values of a type: what they say of a key that holds nothing, which of them make a set
there, and that a wrong type is told only where there is one.
-/

namespace ScoreStore

/-- The reply of an action on a key that holds nothing, unless the action makes a set there. -/
def SortedSetAction.emptyReply? : SortedSetAction → Option Reply
  | add rule _ _ =>
    if rule.onlyPresent then some (if rule.increment then .missing else .count 0) else none
  | size | count _ | remove _ | removeSelected _ => some (.count 0)
  | score _ | rank _ _ => some .missing
  | list _ _ _ _ => some (.array [])

/-- Neither bytes nor their absence tell of a wrong type. -/
theorem Reply.ofBytes?_ne_wrongType (content : Option Bytes) :
    Reply.ofBytes? content ≠ Refusal.wrongType.reply := by
  -- A content is no error, and neither is that there is none.
  intro same
  cases content with
  | none => cases same
  | some content => cases same

/-- Nothing is selected from the set without members. -/
theorem Selection.select_empty (selection : Selection) (reverse : Bool) :
    selection.select reverse .empty = [] := by
  -- Nothing is nothing in either direction.
  have backwards : directed reverse ([] : List Element) = [] := by cases reverse <;> rfl
  cases selection with
  | byScore range => exact backwards
  | byLex range =>
    have none : range.cut Element.member SortedSet.empty.byMember = [] := by
      unfold LexRange.cut
      split <;> rfl
    rw [select, none, backwards]
  | byRank window =>
    rw [select, show SortedSet.empty.elements = [] from rfl, backwards]
    simp [Window.cut]

/-- A page shows nothing of nothing. -/
theorem Page.cut_nil {α : Type} (page : Page) : page.cut ([] : List α) = [] := by
  simp [cut]

namespace Database

variable {database : Database} {key : Bytes}

/-- Members that must be present are not added where nothing is. -/
theorem addMembers_of_onlyPresent (absent : database.get? key = none) {rule : AddRule}
    (present : rule.onlyPresent = true) (elements : List Element) :
    database.addMembers key rule {} elements = (.ok (some {}), database) := by
  -- Every element is left out, which counts nothing and stores nothing.
  have stored : database.sortedSet key = .ok .empty :=
    sortedSet_eq_ok_iff.mpr (Or.inl ⟨absent, rfl⟩)
  -- By induction on the elements, of which none changes what the next one finds.
  induction elements with
  | nil => rfl
  | cons element rest ih =>
    have outcome : SortedSet.empty.add rule element.member element.score = (.skipped, .empty) := by
      show (if rule.onlyPresent = true then _ else _) = _
      rw [if_pos present]
    have first : database.addMember key rule element.member element.score =
        .ok (.skipped, database) := by
      simp only [addMember, stored, Except.map, outcome, storeAdded]
    rw [addMembers, first]
    exact ih

/-- Nothing is removed where nothing is. -/
theorem removeEach_of_absent (absent : database.get? key = none) (members : List Bytes) :
    database.removeEach key members = (.ok 0, database) := by
  cases members with
  | nil => rfl
  | cons member rest =>
    -- The first member finds no set, which ends the removal.
    have first : database.removeMember key member = .ok (.noSet, database) := by
      simp only [removeMember, sortedSet?, absent, Except.map]
    simp only [removeEach, first]

end Database

namespace SortedSetAction

variable {database : Database} {key : Bytes} {action : SortedSetAction}

/-- On a key that holds nothing an action that makes no set has its one reply, and does nothing. -/
theorem run_of_absent (absent : database.get? key = none) {reply : Reply}
    (idle : action.emptyReply? = some reply) :
    action.run key database = (.ok reply, database) := by
  -- What is read from nothing is the set without members.
  have stored : database.sortedSet key = .ok .empty :=
    Database.sortedSet_eq_ok_iff.mpr (Or.inl ⟨absent, rfl⟩)
  cases action with
  | add rule countChanges elements =>
    -- Only an addition to present members has nothing to add.
    simp only [emptyReply?] at idle
    split at idle
    · next present =>
      obtain rfl := Option.some.inj idle
      simp only [run, Database.addMembers_of_onlyPresent absent present, Except.map,
        AddTally.reply]
      split <;> simp [Reply.ofBytes?]
    · cases idle
  | size | score =>
    obtain rfl := Option.some.inj idle
    simp only [run, stored, Except.map]
    rfl
  | rank reverse member =>
    obtain rfl := Option.some.inj idle
    simp only [run, stored, Except.map]
    cases reverse <;> rfl
  | count selection =>
    obtain rfl := Option.some.inj idle
    simp only [run, stored, Except.map, selection.select_empty]
    rfl
  | list selection reverse page withScores =>
    obtain rfl := Option.some.inj idle
    simp only [run, stored, Except.map, selection.select_empty]
    -- A page of nothing is nothing.
    cases page with
    | none => rfl
    | some page =>
      dsimp only
      rw [Page.cut_nil]
      rfl
  | remove members =>
    obtain rfl := Option.some.inj idle
    simp only [run, Database.removeEach_of_absent absent, Except.map]
  | removeSelected selection =>
    obtain rfl := Option.some.inj idle
    simp only [run, stored, Database.removeEach_of_absent absent, Except.map]

/-- No reply to what is done with a set or with nothing tells of a wrong type. -/
theorem run_tells (key : Bytes) (database : Database) (action : SortedSetAction) :
    Yields (· ≠ Refusal.wrongType.reply) (action.run key database).1 := by
  -- The one error that is told from here is about a sum.
  cases action with
  | add rule countChanges elements =>
    -- A sum that is no number is told in another message, and any other addition by a number.
    refine (Yields.any _).map fun tally _ => ?_
    cases tally with
    | none =>
      intro same
      have different : Refusal.sumNotANumber.message ≠ Refusal.wrongType.message := by decide
      exact different (Reply.error.inj same)
    | some tally =>
      simp only [AddTally.reply]
      split
      · exact Reply.ofBytes?_ne_wrongType _
      · intro same
        cases same
  | size | count | list | remove =>
    refine (Yields.any _).map fun _ _ same => ?_
    cases same
  | score member =>
    refine (Yields.any _).map fun set _ => ?_
    exact Reply.ofBytes?_ne_wrongType _
  | rank reverse member =>
    refine (Yields.any _).map fun set _ same => ?_
    split at same <;> cases same
  -- What is removed is listed first, and then counted.
  | removeSelected selection =>
    simp only [run]
    split
    · exact .error _
    · refine (Yields.any _).map fun _ _ same => ?_
      cases same

end SortedSetAction

namespace SortedSet

variable {set : SortedSet} {rule : AddRule}

/-- What has a score keeps one when scores are given. -/
theorem score?_addAll {member : Bytes} (rule : AddRule) (tally : AddTally)
    (elements : List Element) (present : (set.score? member).isSome = true) :
    ((set.addAll rule tally elements).2.score? member).isSome = true := by
  -- By induction on the elements, each of which keeps the scores that are there.
  induction elements generalizing set tally with
  | nil => exact present
  | cons element rest ih =>
    -- A score that is written takes the place of the one of its member, or comes as a new one.
    have kept : ((set.add rule element.member element.score).2.score? member).isSome = true := by
      have effect := congrFun (toMap_snd_add set rule element.member element.score) member
      show ((set.add rule element.member element.score).2.toMap member).isSome = true
      rw [effect]
      cases (set.add rule element.member element.score).1.written? with
      | none => exact present
      -- A score is only ever replaced by another one.
      | some new =>
        dsimp only
        by_cases same : member = element.member
        · rw [same, Function.update_self]
          rfl
        · rw [Function.update_of_ne same]
          exact present
    rw [addAll]
    split
    · exact kept
    · exact ih _ kept

/-- Where members need not be present, numbers that are given to them make a set with members. -/
theorem isEmpty_addAll_empty (free : rule.onlyPresent = false) {elements : List Element}
    (several : elements ≠ []) (numbers : ∀ element ∈ elements, element.score.isNaN = false) :
    (empty.addAll rule {} elements).2.isEmpty = false := by
  obtain ⟨element, rest, rfl⟩ := List.exists_cons_of_ne_nil several
  -- The first member is new and gets its number, and it keeps one whatever comes after it.
  have number := numbers element List.mem_cons_self
  have first : empty.add rule element.member element.score =
      (.added element.score, empty.enter element.member element.score) := by
    -- The rule asks for no presence, and the score is a number.
    show (if rule.onlyPresent = true then _ else if element.score.isNaN = true then _ else _) = _
    rw [if_neg (by simp [free]), if_neg (by simp [number])]
  have present : ((empty.enter element.member element.score).score? element.member).isSome =
      true := by
    rw [score?, enter, Table.get?_set, if_pos rfl]
    rfl
  obtain ⟨score, last⟩ := Option.isSome_iff_exists.mp (score?_addAll rule
    { added := 1, last := some element.score } rest present)
  have whole : (empty.addAll rule {} (element :: rest)).2 =
      ((empty.enter element.member element.score).addAll rule
        { added := 1, last := some element.score } rest).2 := by
    simp only [addAll, first, AddTally.record?]
  rw [whole]
  exact isEmpty_of_score? last

end SortedSet

/-- On a key that holds nothing every other orderly action makes a set with members. -/
theorem SortedSetAction.isEmpty_effect_empty {action : SortedSetAction} (orderly : action.IsOrderly)
    (makes : action.emptyReply? = none) : (action.effect .empty).2.isEmpty = false := by
  cases action with
  -- Whatever has a reply for no set makes none.
  | size | score | rank | count | list | remove | removeSelected => cases makes
  | add rule countChanges elements =>
    -- Otherwise there would be a reply.
    have free : rule.onlyPresent = false := by
      cases present : rule.onlyPresent with
      | false => rfl
      | true => simp [emptyReply?, present] at makes
    exact SortedSet.isEmpty_addAll_empty free orderly.1 orderly.2.1

/-- Whether a value is a string. -/
def Value.isString : Value → Bool
  | string _ => true
  | sortedSet _ => false

namespace Action

/-- An action looks first whether a key holds a value, and then whether it is of the wanted type. -/
structure ChecksType (action : Action) (wanted : Value → Bool) (idle? : Option Reply)
    (scope : Scope) (value : Option Value) : Prop where
  /-- On a value of another type the action is refused and does nothing. -/
  refused : (∃ held, value = some held ∧ wanted held = false) →
    action.run scope = .ok (Refusal.wrongType.reply, scope)
  /-- Otherwise it has another reply. -/
  told : (∀ held, value = some held → wanted held = true) →
    ∃ reply after, action.run scope = .ok (reply, after) ∧ reply ≠ Refusal.wrongType.reply
  /-- On nothing it does nothing and has its one reply, if it has one. -/
  absent : value = none → ∀ reply, idle? = some reply → action.run scope = .ok (reply, scope)

variable {scope : Scope} {database : Database} {key : Bytes}

/-- Telling a string works on strings. -/
theorem checksType_get (found : scope.database? = some database) :
    (get key).ChecksType Value.isString (some .missing) scope (database.get? key) := by
  -- Telling leaves the database as it was found.
  have same := Scope.withDatabase_self found
  have ran : (get key).run scope =
      .ok (.ofResult ((database.string? key).map .ofBytes?), scope) := by
    rw [run, Scope.onDatabase_of_found found, same]
  refine ⟨?_, ?_, ?_⟩
  · -- A set is no string.
    rintro ⟨held, stored, other⟩
    cases held with
    | string content => cases other
    | sortedSet set =>
      rw [ran, Database.string?, stored]
      rfl
  · -- What is told is a content or that there is none.
    intro wanted
    cases stored : database.get? key with
    | none =>
      refine ⟨.missing, scope, ?_, Reply.ofBytes?_ne_wrongType none⟩
      rw [ran, Database.string?, stored]
      rfl
    | some held =>
      cases held with
      | string content =>
        refine ⟨.bulk content, scope, ?_, Reply.ofBytes?_ne_wrongType (some content)⟩
        rw [ran, Database.string?, stored]
        rfl
      | sortedSet set => cases wanted _ stored
  · -- Without a value the content is missing.
    intro absent reply idle
    obtain rfl := Option.some.inj idle
    rw [ran, Database.string?, absent]
    rfl

/-- What is done with a sorted set works on sorted sets. -/
theorem checksType_sortedSet (found : scope.database? = some database) {action : SortedSetAction}
    (orderly : action.IsOrderly) :
    (sortedSet key action).ChecksType (fun held => !held.isString) action.emptyReply? scope
      (database.get? key) := by
  refine ⟨?_, ?_, ?_⟩
  · rintro ⟨held, stored, other⟩
    cases held with
    | sortedSet set => cases other
    | string content =>
      -- No set is read from a string, and every orderly action reads the set first.
      have wrong : database.sortedSet key = .error {} := by
        simp only [Database.sortedSet, Database.sortedSet?, stored, Except.map]
      obtain ⟨wrong, refused⟩ := SortedSetAction.run_of_wrongType orderly wrong
      rw [run, Scope.onDatabase_of_found found, refused, Scope.withDatabase_self found]
      rfl
  · intro wanted
    obtain ⟨set, stored⟩ : ∃ set, database.sortedSet key = .ok set := by
      cases stored : database.sortedSet key with
      | ok set => exact ⟨set, rfl⟩
      | error wrong =>
        -- A string would be of another type.
        obtain ⟨content, string⟩ := Database.exists_string_of_sortedSet stored
        cases wanted _ string
    -- With a set at hand, every action tells of the set.
    obtain ⟨reply, after, ran, _⟩ := SortedSetAction.run_spec stored action
    refine ⟨reply, scope.withDatabase after, ?_, ?_⟩
    · rw [run, Scope.onDatabase_of_found found, ran]
      rfl
    · exact SortedSetAction.run_tells key database action reply (congrArg Prod.fst ran)
  · intro absent reply idle
    have ran := SortedSetAction.run_of_absent absent idle
    rw [run, Scope.onDatabase_of_found found, ran, Scope.withDatabase_self found]
    rfl

end Action
end ScoreStore
