import ScoreStore.Proofs.Command.Reading

/-!
What the table says of a command holds of the action that it is read as: whether it may
write, and the key that it names.
-/

namespace ScoreStore

/-- Whether the command names one key, its first argument. -/
def CommandName.namesOneKey : CommandName → Bool
  -- The commands on strings and types that do so are told apart by name.
  | set | get | typeOf => true
  | name => name.group = .sortedSets

/-- The commands that name one key are those with the first word as first
and last key in the table. -/
theorem CommandName.namesOneKey_iff (name : CommandName) :
    name.namesOneKey = true ↔ name.entry.firstKey = 1 ∧ name.entry.lastKey = 1 := by
  -- The table is finite, so that each entry is compared.
  cases name <;> decide

/-- Whether something that is done with a sorted set may change it. -/
def SortedSetAction.mayWrite : SortedSetAction → Bool
  | add _ _ _ | remove _ | removeSelected _ => true
  | _ => false

/-- Whether an action may change a value. -/
def Action.mayWrite : Action → Bool
  | flush | flushAll | delete _ | set _ _ => true
  | sortedSet _ action => action.mayWrite
  | _ => false

/-- The key that an action names, if it names just one. -/
def Action.key? : Action → Option Bytes
  | typeOf key | set key _ | get key | sortedSet key _ => some key
  | _ => none

/-- What is added or removed is something. Scores are numbers, and only a
single score is an increment. -/
def SortedSetAction.IsOrderly : SortedSetAction → Prop
  | add rule _ elements => elements ≠ [] ∧ (∀ element ∈ elements, element.score.isNaN = false) ∧
      (rule.increment = true → elements.length = 1)
  | remove members => members ≠ []
  | _ => True

/-- An action whose work on a sorted set is orderly, if it has any. -/
def Action.IsOrderly : Action → Prop
  | sortedSet _ action => action.IsOrderly
  | _ => True

/-- An action that is as the table says of the command. -/
structure Action.Suits (name : CommandName) (request : Request) (action : Action) : Prop where
  writes : action.mayWrite = name.entry.writes
  key : name.namesOneKey = true →
    ∃ key, request.arguments.head? = some key ∧ action.key? = some key
  orderly : action.IsOrderly

/-- An orderly action of a command that does not name one key names what it likes. -/
theorem Action.Suits.apart {name : CommandName} {request : Request} {action : Action}
    (writes : action.mayWrite = name.entry.writes) (several : name.namesOneKey = false)
    (orderly : action.IsOrderly) : action.Suits name request :=
  -- The field about keys speaks of commands with one key only, and this is none of them.
  ⟨writes, fun single => absurd (several.symm.trans single) Bool.false_ne_true, orderly⟩

/-- An instruction that is as the table says of the command: only actions are about single keys. -/
def Instruction.Suits (name : CommandName) (request : Request) : Instruction → Prop
  | .act action => action.Suits name request
  | _ => name.namesOneKey = false

/-- Whatever a reading comes to, if it comes to a value, is one of these. -/
def Yields {ε α : Type} (values : α → Prop) (reading : Except ε α) : Prop :=
  ∀ value, reading = .ok value → values value

namespace Yields

variable {ε α β : Type} {values : α → Prop} {results : β → Prop}

theorem ok {value : α} (fits : values value) : Yields values (.ok value : Except ε α) := by
  intro found same
  obtain rfl := Except.ok.inj same
  exact fits

theorem error (reason : ε) : Yields values (.error reason) := fun _ same => nomatch same

/-- Nothing is known of what a reading comes to. -/
theorem any (reading : Except ε α) : Yields (fun _ => True) reading := fun _ _ => trivial

/-- Readings in turn come to what the last one comes to. -/
theorem bind {first : Except ε α} {next : α → Except ε β} (head : Yields values first)
    (tail : ∀ value, values value → Yields results (next value)) :
    Yields results (first >>= next) := by
  intro result read
  -- A failure of the first reading is one of both, and never a value.
  cases first with
  | error reason => cases read
  | ok value => exact tail value (head value rfl) result read

theorem map {reading : Except ε α} {made : α → β} (reads : Yields values reading)
    (fits : ∀ value, values value → results (made value)) : Yields results (reading.map made) := by
  intro result read
  cases reading with
  | error reason => cases read
  | ok value =>
    obtain rfl := Except.ok.inj read
    exact fits value (reads value rfl)

end Yields

/-- A score that was read as a number is one. -/
theorem Score.isNaN_of_readNumber? {token : Bytes} {score : Score}
    (read : readNumber? token = some score) : score.isNaN = false := by
  -- The reader filters out what is no number.
  simpa using (Option.filter_eq_some_iff.mp read).2

namespace SortedSetAction

variable {request : Request} {name : CommandName}

theorem refusable_yields {α : Type} {values : α → Prop} {reading : Except Refusal α}
    (reads : Yields values reading) : Yields values (refusable reading) := by
  intro value read
  -- Making a refusal an obstacle leaves the values as they are.
  cases reading with
  | error refusal => cases read
  | ok found =>
    obtain rfl := Except.ok.inj read
    exact reads found rfl

/-- Pairs are as many as half of the words, and their scores are numbers. -/
theorem readPairs_yields (words : List Bytes) :
    Yields (fun elements => words.length = 2 * elements.length ∧
      ∀ element ∈ elements, element.score.isNaN = false) (readPairs words) := by
  fun_induction readPairs words with
  -- No words are no pairs, one word alone is half a pair, and two make the first pair of the
  -- others.
  | case1 => exact .ok ⟨rfl, fun _ member => absurd member List.not_mem_nil⟩
  | case2 => exact .error _
  | case3 => exact .error _
  | case4 token member rest value read ih =>
    refine ih.map fun elements pairs => ?_
    obtain ⟨length, numbers⟩ := pairs
    refine ⟨?_, ?_⟩
    · simp only [List.length_cons]
      omega
    · exact List.forall_mem_cons.mpr ⟨Score.isNaN_of_readNumber? read, numbers⟩

/-- Options without conflict go with some words, and an increment with one pair at most. -/
theorem count_of_conflict?_eq_none {options : AddOptions} {count : Nat}
    (clear : options.conflict? count = none) :
    0 < count ∧ (options.rule.increment = true → count ≤ 2) := by
  unfold AddOptions.conflict? at clear
  simp only at clear
  -- These two conflicts are the first ones that are looked for.
  split at clear
  · cases clear
  · next some =>
    split at clear
    · cases clear
    · next single => exact ⟨by omega, fun increment => by simpa [increment] using single⟩

theorem readAdd_yields (words : List Bytes) :
    Yields (fun action => action.mayWrite = true ∧ action.IsOrderly) (readAdd words) := by
  unfold readAdd
  generalize AddOptions.read {} words = parts
  obtain ⟨options, pairs⟩ := parts
  dsimp only
  cases clear : options.conflict? pairs.length with
  | some refusal => exact .error refusal
  | none =>
    -- There is at least one pair, since the options leave some words.
    obtain ⟨more, single⟩ := count_of_conflict?_eq_none clear
    refine (readPairs_yields pairs).map fun elements read => ?_
    obtain ⟨length, numbers⟩ := read
    refine ⟨rfl, ?_, numbers, ?_⟩
    · rintro rfl
      rw [List.length_nil] at length
      omega
    · intro increment
      have few := single increment
      omega

theorem readIncrement_yields :
    Yields (fun action => action.mayWrite = true ∧ action.IsOrderly) (readIncrement request) := by
  -- The words are needed in this order, and only the amount can be what no number is.
  refine (Yields.any (request.need 1)).bind fun word _ => ?_
  -- The amount is read as a number, and what is no number is refused.
  have number : Yields (fun score : Score => score.isNaN = false)
      (Request.orRefuse .notAFloat (Score.readNumber? word)) := by
    intro score read
    cases found : Score.readNumber? word with
    | none =>
      rw [found] at read
      cases read
    | some amount =>
      rw [found] at read
      obtain rfl := Except.ok.inj read
      exact Score.isNaN_of_readNumber? found
  refine number.bind fun amount numbers => (Yields.any (request.need 2)).bind fun member _ => ?_
  -- The increment is one pair, so that its rule goes with one element.
  refine .ok ⟨rfl, List.cons_ne_nil _ _, ?_, fun _ => rfl⟩
  intro element only
  rw [List.mem_singleton.mp only]
  exact numbers

/-- A command on sorted sets does something orderly, which may write if the table says so. -/
theorem ofName?_yields {reading : Except Obstacle SortedSetAction}
    (found : ofName? request name = some reading)
    (taken : name.entry.accepts request.words.length = true) :
    Yields (fun action => action.mayWrite = name.entry.writes ∧ action.IsOrderly) reading := by
  have arity := Request.arity_le taken
  cases name <;> simp only [ofName?, Option.some.injEq, reduceCtorEq] at found <;> subst found
  -- Adding has to be looked into, removal needs its words, and the rest is orderly by itself.
  case zadd => exact refusable_yields (readAdd_yields _)
  case zincrby => exact readIncrement_yields
  case zcard => exact .ok ⟨rfl, trivial⟩
  case zrem =>
    -- The count of words leaves at least one member behind the key.
    have several : 3 ≤ request.arguments.length + 1 := arity
    refine .ok ⟨rfl, fun none => ?_⟩
    have short := List.drop_eq_nil_iff.mp none
    omega
  case zscore | zrank | zrevrank | zcount | zlexcount | zremrangebyscore | zremrangebylex
      | zremrangebyrank =>
    -- These are made of ends of ranges or members, none of which makes them write.
    exact (Yields.any _).map fun _ _ => ⟨rfl, trivial⟩
  case zrange | zrevrange | zrangebyscore | zrevrangebyscore | zrangebylex | zrevrangebylex =>
    exact (Yields.any _).bind fun _ _ => (Yields.any _).bind fun _ _ => .ok ⟨rfl, trivial⟩

end SortedSetAction

namespace Request

variable {request : Request} {name : CommandName} {site : Site}

/-- The word that was needed is the argument at its position. -/
theorem need_yields (request : Request) (position : Nat) :
    Yields (request.arguments[position]? = some ·) (request.need position) := by
  intro word read
  -- A word that is needed is there, or else the request is refused.
  unfold need at read
  split at read
  · next found =>
    obtain rfl := Except.ok.inj read
    exact found
  · cases read

/-- The key that was needed is the first argument. -/
theorem key_yields (request : Request) :
    Yields (request.arguments.head? = some ·) (request.need 0) := by
  intro key read
  rw [List.head?_eq_getElem?]
  exact request.need_yields 0 key read

theorem connectionInstruction_yields (group : name.group = .connection) :
    Yields (·.Suits name request) (request.connectionInstruction site name) := by
  -- The group has four commands, and the others are excluded by it.
  cases name <;> simp only [CommandName.group, reduceCtorEq] at group
  case ping =>
    simp only [connectionInstruction]
    -- A ping is answered by a word or by what it brings along, and refused with more.
    split
    · exact .ok (.apart rfl rfl trivial)
    · exact .ok (.apart rfl rfl trivial)
    · exact .error _
  case echo => exact (Yields.any _).bind fun _ _ => .ok (.apart rfl rfl trivial)
  case select =>
    -- What is read is the index, and whether it is one is checked afterwards.
    refine (Yields.any _).bind fun _ _ => (Yields.any _).bind fun index _ => ?_
    split
    · exact .ok (.apart rfl rfl trivial)
    · exact .error _
  case quit => exact .ok rfl

theorem serverInstruction_yields (group : name.group = .server) :
    Yields (·.Suits name request) (request.serverInstruction name) := by
  cases name <;> simp only [CommandName.group, reduceCtorEq] at group
  case command =>
    -- There is one subcommand, and without any words the table itself is told.
    simp only [serverInstruction]
    split
    · exact .ok (.apart rfl rfl trivial)
    · split
      · exact .ok (.apart rfl rfl trivial)
      · exact .error _
  case info => exact .ok (.apart rfl rfl trivial)

theorem clusterInstruction_yields :
    Yields (·.Suits .cluster request) (request.clusterInstruction site) := by
  -- Each of the three subcommands is an answer made in advance.
  unfold clusterInstruction
  split
  · exact .ok (.apart rfl rfl trivial)
  · split
    · exact .ok (.apart rfl rfl trivial)
    · split
      · exact .ok (.apart rfl rfl trivial)
      · exact .error _

theorem keysInstruction_yields (group : name.group = .keys) :
    Yields (·.Suits name request) (request.keysInstruction name) := by
  cases name <;> simp only [CommandName.group, reduceCtorEq] at group
  -- The key of the action is the word that was needed first.
  case typeOf =>
    exact request.key_yields.bind fun key first => .ok ⟨rfl, fun _ => ⟨key, first, rfl⟩, trivial⟩
  -- These name all of their words as keys, or none.
  case del | existing | flushDb | flushAll => exact .ok (.apart rfl rfl trivial)

theorem stringsInstruction_yields (group : name.group = .strings) :
    Yields (·.Suits name request) (request.stringsInstruction name) := by
  cases name <;> simp only [CommandName.group, reduceCtorEq] at group
  case set =>
    -- The value is needed after the key, and nothing is asked of it.
    exact request.key_yields.bind fun key first => (Yields.any _).bind fun _ _ =>
      .ok ⟨rfl, fun _ => ⟨key, first, rfl⟩, trivial⟩
  case get =>
    exact request.key_yields.bind fun key first => .ok ⟨rfl, fun _ => ⟨key, first, rfl⟩, trivial⟩

theorem transactionsInstruction_yields (group : name.group = .transactions) :
    Yields (·.Suits name request) (request.transactionsInstruction name) := by
  cases name <;> simp only [CommandName.group, reduceCtorEq] at group
  -- Watched keys are released by an action, and the others change what is queued.
  case unwatch => exact .ok (.apart rfl rfl trivial)
  case multi | exec | discard | watch => exact .ok rfl

theorem sortedSetAction_yields (taken : name.entry.accepts request.words.length = true) :
    Yields (·.Suits name request) ((request.sortedSetAction name).map Instruction.act) := by
  unfold sortedSetAction
  cases found : SortedSetAction.ofName? request name with
  | none => exact .error _
  | some reading =>
    -- The key comes first, and then what is done with the set under it.
    refine Yields.map (?_ : Yields (fun action : Action => action.Suits name request) _)
      fun action suits => suits
    exact request.key_yields.bind fun key first =>
      (SortedSetAction.ofName?_yields found taken).bind fun action fits =>
        .ok ⟨fits.1, fun _ => ⟨key, first, rfl⟩, fits.2⟩

/-- An action that a request is read as is what the table says of its command. -/
theorem instruction_yields (known : CommandName.ofLowercase? request.name = some name) :
    Yields (·.Suits name request) (request.instruction site) := by
  unfold instruction
  rw [known]
  -- The number of words is checked before any of them is looked at.
  dsimp only
  split
  · next taken =>
    -- Each group reads its own commands.
    unfold CommandGroup.instruction
    rw [known]
    cases group : name.group with
    | cluster =>
      -- The group takes any name, but only one command belongs to it.
      obtain rfl : name = .cluster := by
        cases name <;> simp only [CommandName.group, reduceCtorEq] at group
        rfl
      exact clusterInstruction_yields
    | sortedSets => exact sortedSetAction_yields taken
    | strings => exact stringsInstruction_yields group
    | keys => exact keysInstruction_yields group
    | connection => exact connectionInstruction_yields group
    | server => exact serverInstruction_yields group
    | transactions => exact transactionsInstruction_yields group
  · exact .error _

end Request
end ScoreStore
