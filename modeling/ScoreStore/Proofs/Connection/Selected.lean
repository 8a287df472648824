import ScoreStore.Proofs.Command.Keys
import ScoreStore.Proofs.Connection.Local
import ScoreStore.Proofs.Connection.Outcome

/-!
Work in the selected database: actions read and write the keys that they name there, and
leave the other databases alone.
-/

namespace ScoreStore

namespace Database

variable {left right : Database} {keys : List Bytes}

/-- A removed key has no value, and other keys have theirs. -/
theorem get?_delete (database : Database) (key other : Bytes) :
    (database.delete key).2.get? other = if key = other then none else database.get? other := by
  rw [Database.get?, values_delete, Table.get?_erase, Database.get?]

/-- Removed keys have no values, and other keys have theirs. -/
theorem get?_deleteAll (database : Database) (keys : List Bytes) (other : Bytes) :
    (database.deleteAll keys).2.get? other =
      if other ∈ keys then none else database.get? other := by
  -- A key is gone after its turn, and the turns of others do not bring it back.
  induction keys generalizing database with
  | nil => rfl
  | cons key rest ih =>
    show ((database.delete key).2.deleteAll rest).2.get? other = _
    -- What becomes of the key is settled by the first deletion, and by the others if it is named
    -- again.
    rw [ih, get?_delete]
    by_cases same : key = other
    · simp [same]
    · simp [same, Ne.symm same]

/-- How many keys are removed is told by which of them have values. -/
theorem fst_deleteAll_congr
    (same : ∀ key ∈ keys, (left.get? key).isSome = (right.get? key).isSome) :
    (left.deleteAll keys).1 = (right.deleteAll keys).1 := by
  -- By induction on the keys, on two databases that may differ in what is not counted.
  induction keys generalizing left right with
  | nil => rfl
  | cons key rest ih =>
    obtain ⟨first, others⟩ := List.forall_mem_cons.mp same
    have existed (database : Database) :
        (database.delete key).1 = (database.get? key).isSome := by
      unfold delete
      split
      · next present => exact present.symm
      · next absent => exact (Bool.not_eq_true _ ▸ absent).symm
    -- The first key has no value any more in either database, and the others are as they were.
    have later : ∀ other ∈ rest, ((left.delete key).2.get? other).isSome =
        ((right.delete key).2.get? other).isSome := by
      intro other member
      rw [get?_delete, get?_delete]
      split
      · rfl
      · exact others other member
    have counted := ih later
    simp only [deleteAll, existed, first, counted]

end Database

/-- What can be seen of the value under a key of the selected database. -/
def Scope.contentAt (scope : Scope) (key : Bytes) : Option Content :=
  (valueAt scope.databases (scope.connection.selected, key)).map Value.content

/-- The selected database exists, and its values are proper. -/
def Scope.InOrder (scope : Scope) : Prop :=
  ∃ database, scope.database? = some database ∧ database.Proper

namespace Scope

variable {scope : Scope} {database : Database}

theorem contentAt_eq (found : scope.database? = some database) (key : Bytes) :
    scope.contentAt key = (database.get? key).map Value.content :=
  congrArg (Option.map Value.content) (valueAt_eq found key)

/-- What is seen after the selected database was replaced is what its replacement has. -/
theorem contentAt_withDatabase (found : scope.database? = some database) (after : Database)
    (key : Bytes) :
    (scope.withDatabase after).contentAt key = (after.get? key).map Value.content := by
  -- The selected database is there, so that the new one is found in its place.
  have within : scope.connection.selected < scope.databases.length :=
    (List.getElem?_eq_some_iff.mp found).1
  have located : (scope.withDatabase after).database? = some after :=
    List.getElem?_set_self within
  exact contentAt_eq located key

end Scope

namespace Action

variable {action : Action} {scope after : Scope} {reply : Reply}

/-- An action that names keys writes no others in a database. -/
theorem mem_keys_of_mem_writtenIn {database : Database} {key : Bytes} (keyed : action.keys ≠ [])
    (written : key ∈ action.writtenIn database) : key ∈ action.keys := by
  -- Only three kinds of actions write, and each writes keys that it names.
  cases action with
  | answer | report | select | flush | flushAll | unwatch => exact absurd rfl keyed
  | countExisting | typeOf | get => exact absurd written List.not_mem_nil
  | delete keys => exact List.mem_of_mem_filter written
  | set key content => exact written
  | sortedSet key action =>
    -- The one key is written, or nothing is.
    simp only [writtenIn] at written
    split at written
    · exact absurd written List.not_mem_nil
    · split at written
      · exact written
      · exact absurd written List.not_mem_nil

/-- Every action but the one that flushes all databases writes in the selected one. -/
theorem exists_writtenIn {name : KeyName} (keeps : action ≠ .flushAll)
    (member : name ∈ action.written scope) :
    ∃ database, name.1 = scope.connection.selected ∧ name.2 ∈ action.writtenIn database := by
  -- A key is listed with the index of the selected database.
  have own (database : Database)
      (listed : name ∈ (action.writtenIn database).map (scope.connection.selected, ·)) :
      name.1 = scope.connection.selected ∧ name.2 ∈ action.writtenIn database := by
    obtain ⟨key, inside, rfl⟩ := List.mem_map.mp listed
    exact ⟨rfl, inside⟩
  cases action with
  | flushAll => exact absurd rfl keeps
  | answer | report | select | countExisting | typeOf | get | unwatch | flush | delete | set
  | sortedSet =>
    simp only [written] at member
    split at member
    · exact absurd member List.not_mem_nil
    · next database _ => exact ⟨database, own database member⟩

/-- An action writes nothing but keys that it names in the selected database, unless it flushes. -/
theorem selected_of_mem_written {name : KeyName} (member : name ∈ action.written scope) :
    action = .flushAll ∨ name.1 = scope.connection.selected ∧
      (action.keys ≠ [] → name.2 ∈ action.keys) := by
  -- Flushing all writes everywhere, and anything else only where it is.
  by_cases flushes : action = .flushAll
  · exact Or.inl flushes
  · obtain ⟨database, same, inside⟩ := exists_writtenIn flushes member
    exact Or.inr ⟨same, fun keyed => mem_keys_of_mem_writtenIn keyed inside⟩

/-- Only the writes of an action are among its notes. -/
theorem mem_written_of_notes {number : Nat} {name : KeyName}
    (noted : .wrote name ∈ action.notes number scope) : name ∈ action.written scope := by
  -- The notes of an action are its writes, but for the one that forgets what is watched.
  have listed {names : List KeyName} (noted : .wrote name ∈ names.map Note.wrote) :
      name ∈ names := by
    obtain ⟨other, inside, same⟩ := List.mem_map.mp noted
    exact Note.wrote.inj same ▸ inside
  cases action with
  | unwatch => simp [notes] at noted
  | _ => exact listed noted

/-- Every action but the one that selects leaves the selection alone. -/
theorem selected_run (ran : action.run scope = .ok (reply, after))
    (other : ∀ index, action ≠ .select index) :
    after.connection.selected = scope.connection.selected := by
  -- What works on the selected database touches databases only.
  have onSelected {body : Database → Except WrongType Reply × Database}
      (ran : scope.onDatabase body = .ok (reply, after)) :
      after.connection.selected = scope.connection.selected := by
    cases found : scope.database? with
    | none => simp [Scope.onDatabase, found] at ran
    | some database =>
      rw [Scope.onDatabase_of_found found] at ran
      obtain ⟨_, rfl⟩ := Prod.mk.inj (Except.ok.inj ran)
      rfl
  cases action with
  | select index => exact absurd rfl (other index)
  -- None of these selects a database.
  | answer | report | flushAll | unwatch =>
    obtain ⟨_, rfl⟩ := Prod.mk.inj (Except.ok.inj ran)
    rfl
  | flush | delete | countExisting | typeOf | set | get | sortedSet =>
    simp only [run] at ran
    exact onSelected ran

/-- An action that names one key tells the same of what is the same there,
and leaves the same there. -/
theorem run_congr_of_key? {left right : Scope} {key : Bytes} (leftOrder : left.InOrder)
    (rightOrder : right.InOrder) (orderly : action.IsOrderly) (names : action.key? = some key)
    (same : right.contentAt key = left.contentAt key) :
    ∃ reply leftAfter rightAfter, action.run left = .ok (reply, leftAfter) ∧
      action.run right = .ok (reply, rightAfter) ∧
      rightAfter.contentAt key = leftAfter.contentAt key := by
  obtain ⟨first, found, proper⟩ := leftOrder
  obtain ⟨second, located, otherProper⟩ := rightOrder
  rw [Scope.contentAt_eq found, Scope.contentAt_eq located] at same
  -- Both runs are the effect of the action on the value under the key,
  -- and effects see contents only.
  obtain ⟨leftAfter, ran, value, _⟩ := run_effect found proper names orderly
  obtain ⟨rightAfter, alsoRan, otherValue, _⟩ := run_effect located otherProper names orderly
  obtain ⟨reply, content⟩ := effect_congr (fun value => otherProper key value)
    (fun value => proper key value) same action
  refine ⟨_, _, _, ran, alsoRan.trans (by rw [reply]), ?_⟩
  rw [Scope.contentAt_withDatabase found, Scope.contentAt_withDatabase located, value,
    otherValue, content]

/-- Databases that hold the same under the keys of an action are told of in the same way, and hold
the same under these keys afterwards. -/
theorem run_congr {left right : Scope} (leftOrder : left.InOrder) (rightOrder : right.InOrder)
    (orderly : action.IsOrderly) (keyed : action.keys ≠ [])
    (same : ∀ key ∈ action.keys, right.contentAt key = left.contentAt key) :
    ∃ reply leftAfter rightAfter, action.run left = .ok (reply, leftAfter) ∧
      action.run right = .ok (reply, rightAfter) ∧
      ∀ key ∈ action.keys, rightAfter.contentAt key = leftAfter.contentAt key := by
  -- One key is settled by the effect on it, and several by what is found under each of them.
  have single {key : Bytes} (names : action.key? = some key) (only : action.keys = [key]) :
      ∃ reply leftAfter rightAfter, action.run left = .ok (reply, leftAfter) ∧
        action.run right = .ok (reply, rightAfter) ∧
        ∀ key ∈ action.keys, rightAfter.contentAt key = leftAfter.contentAt key := by
    rw [only] at same ⊢
    simp only [List.forall_mem_singleton] at same ⊢
    exact run_congr_of_key? leftOrder rightOrder orderly names same
  obtain ⟨first, found, _⟩ := leftOrder
  obtain ⟨second, located, _⟩ := rightOrder
  have contents : ∀ key ∈ action.keys,
      (second.get? key).map Value.content = (first.get? key).map Value.content := by
    intro key inside
    rw [← Scope.contentAt_eq found, ← Scope.contentAt_eq located]
    exact same key inside
  have present : ∀ key ∈ action.keys, (second.get? key).isSome = (first.get? key).isSome := by
    intro key inside
    have seen := congrArg Option.isSome (contents key inside)
    rwa [Option.isSome_map, Option.isSome_map] at seen
  cases action with
  | answer | report | select | flush | flushAll | unwatch => exact absurd rfl keyed
  | typeOf key | set key | get key | sortedSet key => exact single rfl rfl
  | delete keys =>
    -- What is counted are the keys with values, and none of them is left.
    refine ⟨.count (first.deleteAll keys).1, left.withDatabase (first.deleteAll keys).2,
      right.withDatabase (second.deleteAll keys).2, ?_, ?_, ?_⟩
    · rw [run, Scope.onDatabase_of_found found]
      rfl
    · have counted : (second.deleteAll keys).1 = (first.deleteAll keys).1 :=
        Database.fst_deleteAll_congr present
      rw [run, Scope.onDatabase_of_found located, ← counted]
      rfl
    · intro key inside
      have gone : key ∈ keys := inside
      rw [Scope.contentAt_withDatabase found, Scope.contentAt_withDatabase located,
        Database.get?_deleteAll, Database.get?_deleteAll, if_pos gone, if_pos gone]
  | countExisting keys =>
    -- What is counted are the keys with values, and all of them stay.
    refine ⟨.count (keys.countP first.contains), left.withDatabase first,
      right.withDatabase second, ?_, ?_, ?_⟩
    · rw [run, Scope.onDatabase_of_found found]
      rfl
    · have counted : keys.countP second.contains = keys.countP first.contains :=
        List.countP_congr fun key inside => by
          have told := present key inside
          exact Bool.eq_iff_iff.mp told
      rw [run, Scope.onDatabase_of_found located, ← counted]
      rfl
    · intro key inside
      rw [Scope.contentAt_withDatabase found, Scope.contentAt_withDatabase located]
      exact contents key inside

/-- What an action does in a database: it tells of the keys that it names there, and
changes nothing elsewhere. -/
structure WorksIn (index : Nat) (scope : Scope) (action : Action) : Prop where
  selected : scope.connection.selected = index
  /-- There is a reply. -/
  answered : ∃ reply after, action.run scope = .ok (reply, after)
  /-- Where the same is under its keys, an action that names keys has the same reply
  and leaves the same there. -/
  read : action.keys ≠ [] → ∀ other : Scope, other.InOrder →
    (∀ key ∈ action.keys, other.contentAt key = scope.contentAt key) →
    ∃ reply after otherAfter, action.run scope = .ok (reply, after) ∧
      action.run other = .ok (reply, otherAfter) ∧
      ∀ key ∈ action.keys, otherAfter.contentAt key = after.contentAt key
  /-- What changes is in the database, and under a key that is named if there is one. -/
  written : ∀ reply after, action.run scope = .ok (reply, after) → action ≠ .flushAll →
    ∀ name, valueAt after.databases name ≠ valueAt scope.databases name →
      name.1 = index ∧ (action.keys ≠ [] → name.2 ∈ action.keys)

theorem worksIn (inOrder : scope.InOrder) (orderly : action.IsOrderly) :
    action.WorksIn scope.connection.selected scope where
  selected := rfl
  answered := by
    obtain ⟨database, found, _⟩ := inOrder
    obtain ⟨reply, after, ran, _⟩ := action.run_spec (List.getElem?_eq_some_iff.mp found).1
    exact ⟨reply, after, ran⟩
  read := fun keyed _ otherOrder same => run_congr inOrder otherOrder orderly keyed same
  written := by
    intro reply after ran keeps name changed
    have moves : Scope.Moves 0 scope _ _ := Scope.Moves.action ran
    -- A value that changes was written, and what is written has its place.
    have noted : .wrote name ∈ action.notes 0 scope := by
      by_contra unwritten
      exact changed (moves.valueAt_kept unwritten)
    exact (selected_of_mem_written (mem_written_of_notes noted)).resolve_left keeps

end Action

namespace Scope

variable {scope final : Scope} {actions : List Action} {replies : List Reply} {number : Nat}
  {name : KeyName} {reading : Except Obstacle Instruction}

/-- Actions that do not select leave the selection alone. -/
theorem selected_runAll (ran : scope.runAll actions = (final, .ok replies))
    (others : ∀ index, .select index ∉ actions) :
    final.connection.selected = scope.connection.selected := by
  -- By induction on the actions, each of which runs where the one before has left the selection.
  induction actions generalizing scope replies with
  | nil =>
    obtain ⟨rfl, _⟩ := Prod.mk.inj ran
    rfl
  | cons action rest ih =>
    rw [runAll] at ran
    split at ran
    · cases (Prod.mk.inj ran).2
    · next reply next here =>
      -- The first action keeps the selection, and so do the others from there.
      have first : next.connection.selected = scope.connection.selected :=
        Action.selected_run here fun index same => others index (same ▸ List.mem_cons_self)
      cases later : next.runAll rest with
      | mk last results =>
        rw [later] at ran
        obtain ⟨rfl, told⟩ := Prod.mk.inj ran
        cases results with
        | error fault => cases told
        | ok found =>
          exact (ih later fun index inside =>
            others index (List.mem_cons_of_mem action inside)).trans first

/-- Actions that neither select nor flush all databases write in the selected one. -/
theorem selected_of_mem_queueNotes (noted : .wrote name ∈ scope.queueNotes number actions)
    (others : ∀ index, .select index ∉ actions) (keeps : .flushAll ∉ actions) :
    name.1 = scope.connection.selected := by
  -- By induction on the actions, with the scope that the ones before have left.
  induction actions generalizing scope with
  | nil => exact absurd noted List.not_mem_nil
  | cons action rest ih =>
    rw [queueNotes] at noted
    split at noted
    · exact absurd noted List.not_mem_nil
    · next reply next here =>
      rcases List.mem_append.mp noted with first | later
      · refine ((Action.selected_of_mem_written
          (Action.mem_written_of_notes first)).resolve_left ?_).1
        exact fun same => keeps (same ▸ List.mem_cons_self)
      · -- The selection is still the same one.
        rw [← Action.selected_run here fun index same => others index (same ▸ List.mem_cons_self)]
        exact ih later (fun index inside => others index (List.mem_cons_of_mem action inside))
          fun inside => keeps (List.mem_cons_of_mem action inside)

/-- An instruction runs an action, on its own or from the queue. -/
def Runs (scope : Scope) (reading : Except Obstacle Instruction) (action : Action) : Prop :=
  reading = .ok (.act action) ∧ scope.connection.queueing = false ∨
    reading = .ok .execute ∧ scope.connection.queueing = true ∧
      scope.connection.dirty = false ∧ scope.watchedModified = false ∧
      action ∈ scope.connection.queue

/-- A connection that runs no selection keeps the one that it has. -/
theorem selected_handle (fits : scope.Fits)
    (others : ∀ index, ¬ scope.Runs reading (.select index)) :
    (scope.handle reading).1.connection.selected = scope.connection.selected := by
  have outcome := outcome_handle fits reading
  generalize scope.handle reading = handled at outcome ⊢
  -- Only an action that runs, now or from the queue, could select.
  cases outcome with
  | failed | refused | queued | begun | misplaced | pointless | aborted | overtaken | discarded
  | quit => rfl
  | ran action read queueing ran connection =>
    refine Action.selected_run ran fun index same => others index (Or.inl ⟨?_, queueing⟩)
    rw [read, same]
  | watching keys read queueing =>
    show (keys.foldl watch scope).connection.selected = _
    rw [connection_watchAll]
  | executed read queueing clean unmodified ran =>
    have none : ∀ index, .select index ∉ scope.connection.queue := fun index inside =>
      others index (Or.inr ⟨read, queueing, clean, unmodified, inside⟩)
    have kept := selected_runAll ran none
    exact kept

/-- What an instruction that runs neither notes as written is in the selected database. -/
theorem selected_of_mem_notes {instruction : Instruction}
    (noted : .wrote name ∈ scope.notes number instruction)
    (others : ∀ index, ¬ scope.Runs (.ok instruction) (.select index))
    (keeps : ¬ scope.Runs (.ok instruction) .flushAll) :
    name.1 = scope.connection.selected := by
  cases instruction with
  | beginTransaction | quit => exact absurd noted List.not_mem_nil
  | discard =>
    simp only [notes] at noted
    split at noted
    · simp at noted
    · exact absurd noted List.not_mem_nil
  | watch keys =>
    simp only [notes] at noted
    split at noted
    · exact absurd noted List.not_mem_nil
    · simp at noted
  | act action =>
    simp only [notes] at noted
    split at noted
    · exact absurd noted List.not_mem_nil
    · next outside =>
      -- An action that runs at once notes what a queue of its own would.
      have outside : scope.connection.queueing = false := Bool.not_eq_true _ ▸ outside
      refine selected_of_mem_queueNotes noted (fun index inside => ?_) fun inside => ?_
      · exact others index (Or.inl ⟨by rw [List.mem_singleton.mp inside], outside⟩)
      · exact keeps (Or.inl ⟨by rw [List.mem_singleton.mp inside], outside⟩)
  | execute =>
    simp only [notes] at noted
    split at noted
    · exact absurd noted List.not_mem_nil
    · next within =>
      have queueing : scope.connection.queueing = true := by simpa using within
      split at noted
      · simp at noted
      · next runs =>
        -- The queue runs, and all that it writes is written by its actions.
        rw [Bool.or_eq_true, not_or, Bool.not_eq_true, Bool.not_eq_true] at runs
        have written : .wrote name ∈
            scope.startQueue.queueNotes number scope.connection.queue := by
          split at noted
          · exact noted
          · simpa using noted
        have own := selected_of_mem_queueNotes written
          (fun index inside => others index (Or.inr ⟨rfl, queueing, runs.1, runs.2, inside⟩))
          fun inside => keeps (Or.inr ⟨rfl, queueing, runs.1, runs.2, inside⟩)
        exact own

/-- A request that runs no selection and no flush of all databases keeps
every value of the others. -/
theorem valueAt_handle (others : ∀ index, ¬ scope.Runs reading (.select index))
    (keeps : ¬ scope.Runs reading .flushAll) (elsewhere : name.1 ≠ scope.connection.selected) :
    valueAt (scope.handle reading).1.databases name = valueAt scope.databases name := by
  -- A value that is not kept was written, which is noted.
  have moves : Moves 0 scope _ _ := Moves.handle scope reading
  refine moves.valueAt_kept fun noted => elsewhere ?_
  cases reading with
  | error obstacle => exact absurd noted List.not_mem_nil
  | ok instruction => exact selected_of_mem_notes noted others keeps

/-- Keys are watched in the selected database, besides those that were watched before. -/
theorem contains_watchAll (keys : List Bytes) {scope : Scope} {database : Database}
    (found : scope.database? = some database) :
    (keys.foldl watch scope).connection.watched.contains name = true ↔
      scope.connection.watched.contains name = true ∨
        name.1 = scope.connection.selected ∧ name.2 ∈ keys := by
  -- By induction on the keys.
  induction keys generalizing scope database with
  | nil => simp
  | cons key rest ih =>
    -- The first key is watched already, or it is now.
    obtain ⟨next, located⟩ := database?_watch found key
    have own : name = (scope.connection.selected, key) ↔
        name.1 = scope.connection.selected ∧ name.2 = key := Prod.ext_iff
    have first : (scope.watch key).connection.watched.contains name = true ↔
        scope.connection.watched.contains name = true ∨
          name = (scope.connection.selected, key) := by
      rw [watch_eq found]
      split
      · next already =>
        refine ⟨Or.inl, fun either => either.elim id fun same => ?_⟩
        rw [same]
        exact already
      · rw [Table.contains_set, Bool.or_eq_true, decide_eq_true_eq, or_comm,
          eq_comm (a := (scope.connection.selected, key))]
    rw [List.foldl_cons, ih located, first, selected_watch found, own, List.mem_cons]
    tauto

/-- All queued actions are orderly. -/
def QueueIsOrderly (scope : Scope) : Prop := ∀ action ∈ scope.connection.queue, action.IsOrderly

/-- What is queued is orderly if what is read is. -/
theorem QueueIsOrderly.handle (orderly : scope.QueueIsOrderly) (fits : scope.Fits)
    (reading : Except Obstacle Instruction)
    (reads : ∀ action, reading = .ok (.act action) → action.IsOrderly) :
    (scope.handle reading).1.QueueIsOrderly := by
  have outcome := outcome_handle fits reading
  generalize scope.handle reading = handled at outcome ⊢
  -- Either the queue is empty, or it is the one that was there.
  have none {left : Scope} (empty : left.connection.queue = []) : left.QueueIsOrderly :=
    fun action inside => absurd (empty ▸ inside) List.not_mem_nil
  have same {left : Scope} (kept : left.connection.queue = scope.connection.queue) :
      left.QueueIsOrderly := fun action inside => orderly action (kept ▸ inside)
  -- The queue gets longer by an action that was read, or it stays, or it is left empty.
  cases outcome with
  | failed | refused | misplaced | pointless | quit => exact same rfl
  | queued action read queueing =>
    intro queued inside
    rcases List.mem_append.mp inside with earlier | last
    · exact orderly queued earlier
    · exact List.mem_singleton.mp last ▸ reads action read
  | ran action read queueing ran connection =>
    refine same ?_
    show _ = scope.connection.queue
    rw [reply, connection]
  | begun | aborted | overtaken | executed | discarded => exact none rfl
  -- Watching puts names down and leaves the queue alone.
  | watching keys read queueing =>
    refine same ?_
    show (keys.foldl watch scope).connection.queue = _
    rw [connection_watchAll]

end Scope
end ScoreStore
