import ScoreStore.Proofs.Command.Entry
import ScoreStore.Proofs.Connection.Fits
import ScoreStore.Proofs.Keyspace.Kept

/-! Commands that name one key do with its value what they say, and nothing with other keys. -/

namespace ScoreStore

namespace Database

variable {database : Database} {key : Bytes} {set : SortedSet}

/-- The set that is found under a key is what is stored there, or else there is nothing. -/
theorem get?_eq_stored? (proper : database.Proper) (stored : database.sortedSet key = .ok set) :
    database.get? key = set.stored? := by
  rcases sortedSet_eq_ok_iff.mp stored with ⟨absent, rfl⟩ | found
  · exact absent
  · -- A set that is stored has members.
    have members : set.isEmpty = false := (proper key _ found).2
    rw [found, SortedSet.stored?, members]
    rfl

/-- Where there is no set under a key, and not nothing either, there is a string. -/
theorem exists_string_of_sortedSet {wrong : WrongType}
    (stored : database.sortedSet key = .error wrong) :
    ∃ content, database.get? key = some (.string content) := by
  unfold sortedSet sortedSet? at stored
  cases found : database.get? key with
  | none => simp [found, Except.map] at stored
  | some value =>
    cases value with
    | string content => exact ⟨content, rfl⟩
    | sortedSet set => simp [found, Except.map] at stored

end Database

namespace SortedSetAction

variable {database : Database} {key : Bytes} {action : SortedSetAction}

/-- Something orderly that is done with a value of another type is refused, and does nothing. -/
theorem run_of_wrongType {wrong : WrongType} (orderly : action.IsOrderly)
    (stored : database.sortedSet key = .error wrong) :
    ∃ wrong, action.run key database = (.error wrong, database) := by
  have found := Database.sortedSet?_of_error stored
  cases action with
  | size | score | rank | count | list | removeSelected =>
    exact ⟨wrong, by simp only [run, stored, Except.map]⟩
  | add rule countChanges elements =>
    -- The first element is refused already.
    obtain ⟨element, rest, rfl⟩ := List.exists_cons_of_ne_nil orderly.1
    exact ⟨wrong, by simp only [run, Database.addMembers, Database.addMember, stored, Except.map]⟩
  | remove members =>
    obtain ⟨member, rest, rfl⟩ := List.exists_cons_of_ne_nil orderly
    exact ⟨wrong, by
      simp only [run, Database.removeEach, Database.removeMember, found, Except.map]⟩

end SortedSetAction

namespace Action

variable {scope : Scope} {database : Database} {action : Action} {key : Bytes}

/-- What is done with the set that is found under a key. -/
theorem effect_sortedSet {set : SortedSet} {own : Bytes} {action : SortedSetAction}
    (stored : database.sortedSet key = .ok set) :
    (Action.sortedSet own action).effect (database.get? key) =
      ((action.effect set).1, (action.effect set).2.stored?) := by
  rcases Database.sortedSet_eq_ok_iff.mp stored with ⟨absent, rfl⟩ | found
  · rw [absent]
    rfl
  · rw [found]
    rfl

/-- An action that names one key does to its value what it says. -/
theorem run_effect (found : scope.database? = some database) (proper : database.Proper)
    (named : action.key? = some key) (orderly : action.IsOrderly) :
    ∃ after, action.run scope =
        .ok ((action.effect (database.get? key)).1, scope.withDatabase after) ∧
      after.get? key = (action.effect (database.get? key)).2 ∧
      Database.KeepsBut (· = key) database after := by
  -- Actions that only look, and those that are refused, leave the database as it is.
  have unchanged := Scope.withDatabase_self found
  have kept : Database.KeepsBut (· = key) database database :=
    (Database.Writes.refl database).keepsBut fun _ none => none.elim
  cases action with
  | answer | report | select | flush | flushAll | delete | countExisting | unwatch => cases named
  | typeOf own =>
    obtain rfl : own = key := Option.some.inj named
    refine ⟨database, ?_, rfl, kept⟩
    rw [run, Scope.onDatabase_of_found found]
    rfl
  | set own content =>
    obtain rfl : own = key := Option.some.inj named
    refine ⟨database.put own (.string content), ?_, Database.get?_put database own _, ?_⟩
    · rw [run, Scope.onDatabase_of_found found]
      rfl
    · have proper : (Value.string content).Proper := trivial
      exact (Database.Writes.put database own fun _ => proper).keepsBut fun _ same => same
  | get own =>
    obtain rfl : own = key := Option.some.inj named
    refine ⟨database, ?_, rfl, kept⟩
    rw [run, Scope.onDatabase_of_found found]
    simp only [Database.string?, effect]
    cases database.get? own with
    | none => rfl
    | some value => cases value <;> rfl
  | sortedSet own action =>
    obtain rfl : own = key := Option.some.inj named
    rw [run, Scope.onDatabase_of_found found]
    cases stored : database.sortedSet own with
    | error wrong =>
      -- A string is left alone, with an error for the reply.
      obtain ⟨content, string⟩ := Database.exists_string_of_sortedSet stored
      obtain ⟨wrong, refused⟩ := SortedSetAction.run_of_wrongType orderly stored
      refine ⟨database, ?_, ?_, kept⟩
      · simp only [refused, effect, string, Reply.ofResult]
      · simp only [effect, string]
    | ok set =>
      -- The set is sound, so that the database follows what is done with the set alone.
      obtain ⟨reply, after, ran, told, writes⟩ := SortedSetAction.run_spec stored action
      obtain ⟨rfl, storedAfter⟩ := told (proper.sound stored)
      refine ⟨after, ?_, ?_, writes.keepsBut fun _ changed => changed.1⟩
      · simp only [ran, effect_sortedSet stored, Reply.ofResult]
      · rw [effect_sortedSet stored]
        exact Database.get?_eq_stored? (writes.proper proper) storedAfter

end Action

/-- The reply to a request that is about one key, and the value under the key after it. -/
def Request.effect (site : Site) (request : Request) (value : Option Value) :
    Reply × Option Value :=
  match request.instruction site with
  | .ok (.act action) => action.effect value
  | .error (.refusal refusal) => (refusal.reply, value)
  -- No request that is about one key is read as anything else.
  | _ => (.ok, value)

namespace Request

/-- The command of a request names one key, and this is the key. -/
structure IsAbout (request : Request) (key : Bytes) : Prop where
  command : ∃ name, CommandName.ofLowercase? request.name = some name ∧ name.namesOneKey = true
  key : request.arguments.head? = some key

variable {request : Request} {key : Bytes}

/-- A request that is about one key is read in the same way everywhere. -/
theorem IsAbout.instruction_site (about : request.IsAbout key) (site other : Site) :
    request.instruction site = request.instruction other := by
  obtain ⟨name, known, single⟩ := about.command
  unfold instruction
  rw [known]
  dsimp only
  split
  · unfold CommandGroup.instruction
    rw [known]
    -- The groups that look around have no command that names one key.
    cases group : name.group with
    | sortedSets | strings | keys | server | transactions => rfl
    | connection | cluster =>
      cases name <;> simp only [CommandName.group, reduceCtorEq] at group <;> cases single
  · rfl

/-- What a request does to values with the same content is the same. -/
theorem effect_congr (site : Site) {left right : Option Value}
    (leftProper : ∀ value, left = some value → value.Proper)
    (rightProper : ∀ value, right = some value → value.Proper)
    (same : left.map Value.content = right.map Value.content) :
    (request.effect site left).1 = (request.effect site right).1 ∧
      (request.effect site left).2.map Value.content =
        (request.effect site right).2.map Value.content := by
  unfold effect
  split
  · exact Action.effect_congr leftProper rightProper same _
  · exact ⟨rfl, same⟩
  · exact ⟨rfl, same⟩

end Request

/-- Outside a transaction a request that is about one key has its effect on the value
under the key, and no other. -/
theorem Scope.handle_effect {scope : Scope} {database : Database} {request : Request}
    {name : KeyName} (about : request.IsAbout name.2)
    (outside : scope.connection.queueing = false) (selected : scope.connection.selected = name.1)
    (found : scope.databases[name.1]? = some database) (proper : database.Proper) (site : Site) :
    ∃ after, scope.handle (request.instruction site) =
        (after, .ok { reply := (request.effect site (valueAt scope.databases name)).1 }) ∧
      valueAt after.databases name = (request.effect site (valueAt scope.databases name)).2 ∧
      KeepsAllBut name scope.databases after.databases ∧
      after.connection.selected = scope.connection.selected ∧
      after.connection.queueing = false := by
  obtain ⟨index, key⟩ := name
  obtain rfl : scope.connection.selected = index := selected
  obtain ⟨verb, known, single⟩ := about.command
  have suits : Yields (·.Suits verb request) (request.instruction site) :=
    Request.instruction_yields known
  have asked := Request.instruction_comes site request
  unfold Request.effect
  cases read : request.instruction site with
  | error obstacle =>
    cases obstacle with
    | fault fault =>
      -- No request is read as a fault.
      rw [read] at asked
      exact asked.elim
    | refusal refusal =>
      -- A refusal is remembered for a transaction, and does nothing to databases.
      exact ⟨scope.markDirty, rfl, rfl, KeepsAllBut.refl _ _, rfl, outside⟩
  | ok instruction =>
    have suited := suits instruction read
    cases instruction with
    -- Only an action can be about one key.
    | beginTransaction | execute | discard | watch | quit => cases single.symm.trans suited
    | act action =>
      -- The key that the action names is the first argument, which is the key of the request.
      obtain ⟨own, first, named⟩ := suited.key single
      obtain rfl : key = own := Option.some.inj (about.key.symm.trans first)
      obtain ⟨after, ran, value, others⟩ := Action.run_effect found proper named suited.orderly
      have within : scope.connection.selected < scope.databases.length :=
        (List.getElem?_eq_some_iff.mp found).1
      rw [← valueAt_eq found] at ran value
      refine ⟨scope.withDatabase after, ?_, ?_, KeepsAllBut.set found others, rfl, outside⟩
      · simp only [handle, follow, act, outside, ran, Bool.false_eq_true, if_false, reply]
      · exact (valueAt_eq (List.getElem?_set_self within) key).trans value

end ScoreStore
