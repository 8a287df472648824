import ScoreStore.Proofs.Command.Effect

/-! What actions on databases write: the keys whose values they change, and no others. -/

namespace ScoreStore

namespace SortedSet

/-- Whether giving scores in turn ever leaves a member with another score than it had before. -/
def changesScore (rule : AddRule) (set : SortedSet) : List Element → Bool
  | [] => false
  | element :: rest =>
    let (outcome, after) := set.add rule element.member element.score
    -- A score that would be no number ends it.
    after.score? element.member != set.score? element.member ||
      (outcome != .notANumber && after.changesScore rule rest)

/-- Whether a set has a member. -/
def hasMember (set : SortedSet) (member : Bytes) : Bool := (set.score? member).isSome

end SortedSet

/-- Whether an action adds a member to a set, changes a score or removes a member. -/
def SortedSetAction.writes (set : SortedSet) : SortedSetAction → Bool
  | add rule _ elements => set.changesScore rule elements
  | remove members => members.any set.hasMember
  | removeSelected selection =>
    ((selection.select false set).map Element.member).any set.hasMember
  | _ => false

/-- Counting an outcome fails only where the score would be no number. -/
theorem AddTally.record?_eq_none_iff {tally : AddTally} {outcome : AddOutcome} :
    tally.record? outcome = none ↔ outcome = .notANumber := by
  cases outcome <;> simp [AddTally.record?]

namespace SortedSet

variable {set : SortedSet} {rule : AddRule} {member : Bytes} {score : Score}

/-- A score is written only where the member had none, or another one. -/
theorem score?_ne_of_written {new : Score}
    (written : (set.add rule member score).1.written? = some new) :
    set.score? member ≠ some new := by
  unfold add at written
  intro present
  simp only [present] at written
  generalize (if rule.increment = true then new.add score else score) = given at written
  -- Of a present member an attempt that ends with a write has compared both scores.
  split_ifs at written with _ number _ different
  all_goals try cases written
  · exact different (by simpa [Score.same] using number)

/-- An attempt writes a score exactly if the member has another score after it. -/
theorem isSome_written? (set : SortedSet) (rule : AddRule) (member : Bytes) (score : Score) :
    (set.add rule member score).1.written?.isSome =
      ((set.add rule member score).2.score? member != set.score? member) := by
  cases written : (set.add rule member score).1.written? with
  | none =>
    rw [snd_add_of_not_written written]
    simp
  | some new =>
    -- What is written is the score afterwards, and not the one before.
    have effect := congrFun (toMap_snd_add set rule member score) member
    rw [written] at effect
    have after : (set.add rule member score).2.score? member = some new :=
      effect.trans (Function.update_self member (some new) set.toMap)
    rw [after, Option.isSome_some, eq_comm, bne_iff_ne]
    exact (score?_ne_of_written written).symm

/-- The first of several scores is one attempt, after which the others are given. -/
theorem changesScore_cons (set : SortedSet) (rule : AddRule) (element : Element)
    (rest : List Element) : set.changesScore rule (element :: rest) =
      ((set.add rule element.member element.score).1.written?.isSome ||
        ((set.add rule element.member element.score).1 != .notANumber &&
          (set.add rule element.member element.score).2.changesScore rule rest)) := by
  rw [isSome_written?]
  rfl

/-- A set with a score for some member is not empty. -/
theorem isEmpty_of_score? (present : set.score? member = some score) : set.isEmpty = false := by
  -- An empty set has no key among its scores.
  have inside : set.scores.contains member = true := Table.contains_iff.mpr ⟨score, present⟩
  have positive : set.size ≠ 0 := fun none => by
    have absent := Table.size_eq_zero_iff.mp none member
    cases inside.symm.trans absent
  simpa [isEmpty] using positive

end SortedSet

namespace Database

variable {database : Database} {key : Bytes} {set : SortedSet}

/-- A stored value is found under its key. -/
@[simp] theorem get?_put (database : Database) (key : Bytes) (value : Value) :
    (database.put key value).get? key = some value := by
  simp [Database.get?, Database.put, touch, revise]

/-- The set under a key is empty or stored there. -/
theorem sortedSet_eq_ok_iff : database.sortedSet key = .ok set ↔
    (database.get? key = none ∧ set = .empty) ∨ database.get? key = some (.sortedSet set) := by
  -- A string under the key is an error, so nothing else is left.
  unfold sortedSet sortedSet?
  cases database.get? key with
  | none => simp [Except.map, eq_comm]
  | some value => cases value <;> simp [Except.map]

/-- Where a set is not found because of a value of another type, it is not looked up either. -/
theorem sortedSet?_of_error {wrong : WrongType} (stored : database.sortedSet key = .error wrong) :
    database.sortedSet? key = .error wrong := by
  unfold sortedSet at stored
  cases found : database.sortedSet? key with
  | error other => rfl
  | ok set => simp [found, Except.map] at stored

/-- A set in a database with proper values is sound. -/
theorem Proper.sound (proper : database.Proper) (stored : database.sortedSet key = .ok set) :
    set.Sound := by
  rcases sortedSet_eq_ok_iff.mp stored with ⟨_, rfl⟩ | found
  · exact SortedSet.sound_empty
  · exact (proper key _ found).1

/-- The outcome of giving a score is stored exactly if it writes one. -/
theorem storeAdded_eq (database : Database) (key : Bytes) (result : AddOutcome × SortedSet) :
    database.storeAdded key result =
      if result.1.written?.isSome then database.put key (.sortedSet result.2) else database := by
  obtain ⟨outcome, set⟩ := result
  cases outcome <;> rfl

/-- Storing the outcome of giving a score writes the key if the outcome writes a score. -/
theorem storeAdded_spec (stored : database.sortedSet key = .ok set) (rule : AddRule)
    (member : Bytes) (score : Score) :
    Writes (fun other => other = key ∧ (set.add rule member score).1.written?.isSome = true)
        database (database.storeAdded key (set.add rule member score)) ∧
      (database.storeAdded key (set.add rule member score)).sortedSet key =
        .ok (set.add rule member score).2 := by
  have effect := SortedSet.toMap_snd_add set rule member score
  cases written : (set.add rule member score).1.written? with
  | none =>
    -- The set is the old one, and nothing is stored.
    have kept := SortedSet.snd_add_of_not_written written
    rw [storeAdded_eq, written, kept]
    exact ⟨(Writes.refl database).congr fun other => by simp, stored⟩
  | some new =>
    -- The set has the member now, so it may be stored.
    have present : (set.add rule member score).2.toMap member = some new := by
      rw [written] at effect
      simpa using congrFun effect member
    rw [storeAdded_eq, written, Option.isSome_some, if_pos rfl]
    refine ⟨(Writes.put database key fun proper => ?_).congr fun other => by simp, ?_⟩
    · exact ⟨(proper.sound stored).add rule member score, SortedSet.isEmpty_of_score? present⟩
    · exact sortedSet_eq_ok_iff.mpr (Or.inr (get?_put database key _))

/-- Giving scores in turn writes the key if it changes a score. -/
theorem addMembers_spec (stored : database.sortedSet key = .ok set) (rule : AddRule)
    (tally : AddTally) (elements : List Element) :
    ∃ after, database.addMembers key rule tally elements =
        (.ok (set.addAll rule tally elements).1, after) ∧
      after.sortedSet key = .ok (set.addAll rule tally elements).2 ∧
      Writes (fun other => other = key ∧ set.changesScore rule elements = true) database after := by
  -- After each element the set under the key is the one that the outcomes go on from.
  induction elements generalizing database set tally with
  | nil => exact ⟨database, rfl, stored, (Writes.refl database).congr fun _ => by
      simp [SortedSet.changesScore]⟩
  | cons element rest ih =>
    obtain ⟨early, storedNext⟩ := storeAdded_spec stored rule element.member element.score
    have first : database.addMember key rule element.member element.score =
        .ok ((set.add rule element.member element.score).1,
          database.storeAdded key (set.add rule element.member element.score)) := by
      simp [addMember, stored, Except.map]
    cases recorded : tally.record? (set.add rule element.member element.score).1 with
    | none =>
      -- The command ends here, but what was written before stays written.
      have stops := AddTally.record?_eq_none_iff.mp recorded
      simp only [SortedSet.addAll, recorded]
      refine ⟨_, by simp only [addMembers, first, recorded], storedNext,
        early.congr fun other => ?_⟩
      simp [SortedSet.changesScore_cons, stops]
    | some next =>
      have goesOn : (set.add rule element.member element.score).1 ≠ .notANumber := fun stops => by
        simp [AddTally.record?_eq_none_iff.mpr stops] at recorded
      obtain ⟨after, ran, storedLast, late⟩ := ih storedNext next
      simp only [SortedSet.addAll, recorded]
      refine ⟨after, by simp only [addMembers, first, recorded, ran], storedLast,
        (early.trans late).congr fun other => ?_⟩
      simp [SortedSet.changesScore_cons, goesOn, and_or_left]

/-- Storing what is left of a set writes its key. -/
theorem storeRemaining_spec {remaining : SortedSet} (present : database.contains key = true)
    (sound : database.Proper → remaining.Sound) :
    Writes (· = key) database (database.storeRemaining key remaining) ∧
      ∃ left, (database.storeRemaining key remaining).sortedSet key = .ok left ∧
        (remaining.Sound → left = remaining) := by
  -- A set without members is not kept: its key is removed.
  unfold storeRemaining
  split
  · next none =>
    refine ⟨(Writes.delete database key).congr fun other => by simp [present], .empty, ?_,
      fun sound => (sound.eq_empty none).symm⟩
    exact sortedSet_eq_ok_iff.mpr (Or.inl ⟨by simp [Database.get?], rfl⟩)
  · next members =>
    refine ⟨Writes.put database key fun proper => ⟨sound proper, by simpa using members⟩,
      remaining, ?_, fun _ => rfl⟩
    exact sortedSet_eq_ok_iff.mpr (Or.inr (get?_put database key _))

/-- Removing members in turn writes the key if one of them was there. -/
theorem removeEach_spec (stored : database.sortedSet key = .ok set) (members : List Bytes) :
    ∃ count after, database.removeEach key members = (.ok count, after) ∧
      (set.Sound → count = (set.removeAll members).1 ∧
        after.sortedSet key = .ok (set.removeAll members).2) ∧
      Writes (fun other => other = key ∧ members.any set.hasMember = true) database after := by
  -- The first member that is there makes the whole removal a write.
  induction members generalizing database set with
  | nil => exact ⟨0, database, rfl, fun _ => ⟨rfl, stored⟩,
      (Writes.refl database).congr fun _ => by simp⟩
  | cons member rest ih =>
    rcases sortedSet_eq_ok_iff.mp stored with ⟨absent, rfl⟩ | found
    · -- Without a set under the key the removal ends at once.
      have first : database.removeMember key member = .ok (.noSet, database) := by
        simp [removeMember, sortedSet?, absent, Except.map]
      refine ⟨0, database, by simp only [removeEach, first], fun _ => ?_,
        (Writes.refl database).congr fun _ => ?_⟩
      · rw [SortedSet.removeAll_empty]
        exact ⟨rfl, stored⟩
      simp [SortedSet.hasMember, SortedSet.score?, SortedSet.empty]
    · cases scored : set.score? member with
      | none =>
        have first : database.removeMember key member = .ok (.noMember, database) := by
          simp [removeMember, sortedSet?, found, Except.map, SortedSet.remove, scored]
        have same : set.remove member = (false, set) := by simp [SortedSet.remove, scored]
        obtain ⟨count, after, ran, told, writes⟩ := ih stored
        refine ⟨count, after, by simp only [removeEach, first, ran], fun sound => ?_,
          writes.congr fun _ => ?_⟩
        · simpa [SortedSet.removeAll, same] using told sound
        · simp [SortedSet.hasMember, scored]
      | some score =>
        have removed : (set.remove member).1 = true := by simp [SortedSet.remove, scored]
        have first : database.removeMember key member =
            .ok (.removed, database.storeRemaining key (set.remove member).2) := by
          simp [removeMember, sortedSet?, found, Except.map, SortedSet.remove, scored]
        have present : database.contains key = true := Table.contains_iff.mpr ⟨_, found⟩
        obtain ⟨early, left, storedLeft, exact⟩ := storeRemaining_spec present fun proper =>
          (proper.sound stored).remove member
        obtain ⟨count, after, ran, told, late⟩ := ih storedLeft
        refine ⟨count + 1, after, by simp [removeEach, first, ran, Except.map], fun sound => ?_,
          (early.trans late).congr fun other => ?_⟩
        · have next := sound.remove member
          obtain rfl := exact next
          obtain ⟨counted, last⟩ := told next
          refine ⟨?_, last⟩
          simp only [SortedSet.removeAll, removed, if_true, counted]
        · -- The key is written already, whatever happens to the other members.
          simp only [List.any_cons, SortedSet.hasMember, scored]
          simp +contextual

/-- Removing keys in turn writes those that had values. -/
theorem deleteAll_writes (database : Database) (keys : List Bytes) :
    Writes (fun key => key ∈ keys ∧ database.contains key = true) database
      (database.deleteAll keys).2 := by
  induction keys generalizing database with
  | nil => exact (Writes.refl database).congr fun _ => by simp
  | cons key rest ih =>
    refine ((Writes.delete database key).trans (ih (database.delete key).2)).congr fun other => ?_
    -- A key that is listed again is gone by then, but was written the first time.
    by_cases same : other = key
    · subst same
      simp [Database.contains]
    · simp [Database.contains, same, Ne.symm same]

end Database

namespace SortedSetAction

/-- A score that is a number is given as it is, unless it is an increment. -/
theorem fst_add_ne_notANumber (set : SortedSet) {rule : AddRule} {score : Score}
    (plain : rule.increment = false) (number : score.isNaN = false) (member : Bytes) :
    (set.add rule member score).1 ≠ .notANumber := by
  -- The score is not changed by the rule, so that it is a number whatever the rule says.
  unfold SortedSet.add
  cases set.score? member with
  | none =>
    simp only [number, Bool.false_eq_true, if_false]
    split <;> exact nofun
  | some old =>
    simp only [plain, number, Bool.false_eq_true, if_false]
    repeat' split
    all_goals exact nofun

variable {database : Database} {key : Bytes} {set : SortedSet}

/-- An action on the set under a key gets a reply, and writes the key if it changes the set. -/
theorem run_spec (stored : database.sortedSet key = .ok set) (action : SortedSetAction) :
    ∃ reply after, action.run key database = (.ok reply, after) ∧
      (set.Sound → reply = (action.effect set).1 ∧
        after.sortedSet key = .ok (action.effect set).2) ∧
      Database.Writes (fun other => other = key ∧ action.writes set = true) database after := by
  -- Most actions only look at the set.
  have reads (look : SortedSet → Reply) :
      ((database.sortedSet key).map look, database) = (.ok (look set), database) := by
    rw [stored]
    rfl
  have told {reply : Reply} : set.Sound → reply = reply ∧ database.sortedSet key = .ok set :=
    fun _ => ⟨rfl, stored⟩
  have nothing : Database.Writes (fun other => other = key ∧ false = true) database database :=
    (Database.Writes.refl database).congr fun _ => by simp
  cases action with
  | add rule countChanges elements =>
    obtain ⟨after, ran, storedAfter, writes⟩ :=
      Database.addMembers_spec stored rule {} elements
    refine ⟨AddTally.reply rule countChanges _, after, ?_, fun _ => ⟨rfl, storedAfter⟩, writes⟩
    simp only [run, ran, Except.map]
  | size => exact ⟨_, database, reads fun set => .count set.size, told, nothing⟩
  | score member =>
    exact ⟨_, database, reads fun set => .ofBytes? ((set.score? member).map Score.write), told,
      nothing⟩
  | rank reverse member =>
    simp only [run, stored, Except.map, effect]
    generalize (if reverse = true then set.reverseRank? member else set.rank? member) = position
    cases position <;> exact ⟨_, database, rfl, told, nothing⟩
  | count selection =>
    exact ⟨_, database, reads fun set => .count (selection.select false set).length, told, nothing⟩
  | list selection reverse page withScores =>
    exact ⟨_, database, reads _, told, nothing⟩
  | remove members =>
    obtain ⟨count, after, ran, removed, writes⟩ := Database.removeEach_spec stored members
    refine ⟨.count count, after, ?_, fun sound => ?_, writes⟩
    · simp only [run, ran, Except.map]
    · exact ⟨congrArg Reply.count (removed sound).1, (removed sound).2⟩
  | removeSelected selection =>
    -- The members are chosen first, and then removed like any others.
    obtain ⟨count, after, ran, removed, writes⟩ := Database.removeEach_spec stored
      ((selection.select false set).map Element.member)
    refine ⟨.count count, after, ?_, fun sound => ?_, writes⟩
    · simp only [run, stored, ran, Except.map]
    · exact ⟨congrArg Reply.count (removed sound).1, (removed sound).2⟩

/-- An action on a value of another type changes nothing, whatever it is answered. -/
theorem snd_run_of_wrongType {wrong : WrongType} (stored : database.sortedSet key = .error wrong)
    (action : SortedSetAction) : (action.run key database).2 = database := by
  -- Every access meets the same value: the first one fails, so that nothing comes after it.
  have found := Database.sortedSet?_of_error stored
  cases action with
  | add rule countChanges elements =>
    cases elements with
    | nil => rfl
    | cons element rest =>
      simp only [run, Database.addMembers, Database.addMember, stored, Except.map]
  | remove members =>
    cases members with
    | nil => rfl
    | cons member rest =>
      simp only [run, Database.removeEach, Database.removeMember, found, Except.map]
  | removeSelected selection => simp only [run, stored]
  | size | score | rank | count | list => rfl

/-- A refused action leaves the database as it was: nothing is written before the refusal. -/
theorem snd_run_of_refused {wrong : WrongType} {action : SortedSetAction}
    (refused : (action.run key database).1 = .error wrong) :
    (action.run key database).2 = database := by
  cases stored : database.sortedSet key with
  | error other => exact snd_run_of_wrongType stored action
  | ok set =>
    -- On a set there is a reply.
    obtain ⟨reply, after, ran, _⟩ := run_spec stored action
    rw [ran] at refused
    cases refused

end SortedSetAction

/-- The keys of the selected database that an action writes. -/
def Action.writtenIn (database : Database) : Action → List Bytes
  | flush => database.values.keys
  | delete keys => keys.filter database.contains
  | set key _ => [key]
  | sortedSet key action =>
    match database.sortedSet key with
    | .error _ => []
    | .ok members => if action.writes members then [key] else []
  | _ => []

/-- However it ends, an action on the set under a key writes the key if it changes the set. -/
theorem SortedSetAction.writes_run (action : SortedSetAction) (key : Bytes)
    (database : Database) :
    Database.Writes (· ∈ (Action.sortedSet key action).writtenIn database) database
      (action.run key database).2 := by
  -- What is under the key decides: a set, possibly empty, or a value of another type.
  cases stored : database.sortedSet key with
  | error wrong =>
    rw [snd_run_of_wrongType stored]
    exact (Database.Writes.refl database).congr fun _ => by simp [Action.writtenIn, stored]
  | ok set =>
    obtain ⟨_, after, ran, _, writes⟩ := run_spec stored action
    rw [ran]
    refine writes.congr fun other => ?_
    cases changes : action.writes set <;> simp [Action.writtenIn, stored, changes]

end ScoreStore
