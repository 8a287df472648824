import ScoreStore.Proofs.Command.Typed
import ScoreStore.Proofs.Server.Locality
import ScoreStore.Proofs.Server.Safety

/-!
Commands on values of one type look first whether a key holds anything, and only
then at the type of its value.
-/

namespace ScoreStore

/-- Whether a command works on values of one type only: GET on strings, and a
whole group on sorted sets. -/
def CommandName.isTyped (name : CommandName) : Bool := name = .get ∨ name.group = .sortedSets

/-- Whether a value is of the type that a typed command works on. -/
def CommandName.suits (name : CommandName) (value : Value) : Bool :=
  if name = .get then value.isString else !value.isString

/-- Whether an option is given in front of the scores and members to add. -/
def Request.hasOption (request : Request) (option : String) : Bool :=
  ((request.arguments.drop 1).takeWhile AddOptions.isOption).any fun word =>
    Request.lowered word = option

/-- The reply of a typed command on a key that holds nothing, unless the
command makes a set there. -/
def Request.emptyReply? (request : Request) : CommandName → Option Reply
  | .zcard | .zcount | .zlexcount | .zrem | .zremrangebyscore | .zremrangebylex
  | .zremrangebyrank => some (.count 0)
  | .zscore | .zrank | .zrevrank | .get => some .missing
  | .zrange | .zrevrange | .zrangebyscore | .zrevrangebyscore | .zrangebylex
  | .zrevrangebylex => some (.array [])
  | .zadd =>
    if request.hasOption "xx" then
      some (if request.hasOption "incr" then .missing else .count 0)
    else none
  | _ => none

namespace AddOptions

/-- What one word of the options turns on is on after reading if the word is among them. -/
theorem read_flag (flag : AddOptions → Bool) {option : String}
    (turns : ∀ options word more, take? options word = some more →
      flag more = (flag options || decide (word = option)))
    (options : AddOptions) (words : List Bytes) :
    flag (read options words).1 = (flag options ||
      (words.takeWhile isOption).any fun word => Request.lowered word = option) := by
  -- By induction on the words, with the options that are turned on so far.
  induction words generalizing options with
  | nil => simp [read]
  | cons word rest ih =>
    -- The word is taken exactly if it is an option, and the rest is read with what it turns on.
    have same := isSome_take? options word
    rw [read, List.takeWhile_cons]
    cases taken : options.take? (Request.lowered word) with
    | none =>
      rw [taken] at same
      simp [← same]
    | some more =>
      rw [taken] at same
      rw [← same]
      simp only [Option.isSome_some, if_true, List.any_cons]
      rw [ih more, turns options _ more taken, Bool.or_assoc]

theorem read_onlyPresent (words : List Bytes) :
    (read {} words).1.rule.onlyPresent =
      (words.takeWhile isOption).any fun word => Request.lowered word = "xx" := by
  refine (read_flag (fun options => options.rule.onlyPresent) ?_ {} words).trans
    (Bool.false_or _)
  -- One of the options turns this on, and none turns it off.
  intro options word more taken
  unfold take? at taken
  split at taken <;> simp_all [eq_comm]

theorem read_increment (words : List Bytes) :
    (read {} words).1.rule.increment =
      (words.takeWhile isOption).any fun word => Request.lowered word = "incr" := by
  refine (read_flag (fun options => options.rule.increment) ?_ {} words).trans
    (Bool.false_or _)
  -- And so it is with the other option.
  intro options word more taken
  unfold take? at taken
  split at taken <;> simp_all [eq_comm]

end AddOptions

namespace SortedSetAction

variable {request : Request} {name : CommandName}

/-- What is read as something to add makes a set unless an option says
that members must be present. -/
theorem readAdd_emptyReply? (request : Request) :
    Yields (fun action => action.emptyReply? = request.emptyReply? .zadd)
      (readAdd (request.arguments.drop 1)) := by
  -- The two options are read from the words that the reply is told from.
  have present := AddOptions.read_onlyPresent (request.arguments.drop 1)
  have increment := AddOptions.read_increment (request.arguments.drop 1)
  unfold readAdd
  generalize AddOptions.read {} (request.arguments.drop 1) = parts at present increment
  obtain ⟨options, pairs⟩ := parts
  dsimp only at present increment ⊢
  -- Without pairs, or with half of one, the request is refused.
  split
  · exact .error _
  · refine (Yields.any _).map fun elements _ => ?_
    rw [emptyReply?, present, increment]
    rfl

/-- A command on sorted sets is read as an action with the same reply on
a key that holds nothing. -/
theorem ofName?_emptyReply? {reading : Except Obstacle SortedSetAction}
    (found : ofName? request name = some reading) :
    Yields (fun action => action.emptyReply? = request.emptyReply? name) reading := by
  cases name <;> simp only [ofName?, Option.some.injEq, reduceCtorEq] at found <;> subst found
  -- Only for what is added the words matter.
  case zadd => exact refusable_yields (readAdd_emptyReply? request)
  -- An increment has no options, and a set that is not there is made by it.
  case zincrby =>
    exact (Yields.any _).bind fun _ _ => (Yields.any _).bind fun _ _ =>
      (Yields.any _).bind fun _ _ => .ok rfl
  -- The others tell the same of nothing whatever words they have, unless these refuse them.
  case zcard | zrem => exact .ok rfl
  case zscore | zrank | zrevrank | zcount | zlexcount | zremrangebyscore | zremrangebylex
      | zremrangebyrank =>
    exact (Yields.any _).map fun _ _ => rfl
  case zrange | zrevrange | zrangebyscore | zrevrangebyscore | zrangebylex | zrevrangebylex =>
    exact (Yields.any _).bind fun _ _ => (Yields.any _).bind fun _ _ => .ok rfl

end SortedSetAction

namespace Request

variable {request : Request} {name : CommandName} {key : Bytes} {site : Site}

/-- What a typed command is read as: telling a string, or doing something with a sorted set that has
the command's reply on a key that holds nothing. -/
def ReadsTyped (request : Request) (name : CommandName) (key : Bytes) : Instruction → Prop
  | .act (.get own) => name = .get ∧ own = key
  | .act (.sortedSet own action) => name ≠ .get ∧ own = key ∧ action.IsOrderly ∧
      action.emptyReply? = request.emptyReply? name
  | _ => False

/-- A typed command works on the key that is its first argument. -/
theorem instruction_typed (known : CommandName.ofLowercase? request.name = some name)
    (typed : name.isTyped = true) (first : request.arguments.head? = some key) :
    Yields (request.ReadsTyped name key) (request.instruction site) := by
  -- There is one first argument only.
  have own {found : Bytes} (located : request.arguments.head? = some found) : found = key :=
    Option.some.inj (located.symm.trans first)
  unfold instruction
  rw [known]
  dsimp only
  split
  · next taken =>
    -- By the group a name is of, one handler reads its words and its key.
    unfold CommandGroup.instruction
    rw [known]
    rcases of_decide_eq_true typed with rfl | group
    · -- The one typed command on strings.
      show Yields _ (request.stringsInstruction .get)
      exact request.key_yields.bind fun found located => .ok ⟨rfl, own located⟩
    · rw [group]
      have other : name ≠ .get := by
        rintro rfl
        cases group
      show Yields _ ((request.sortedSetAction name).map Instruction.act)
      unfold sortedSetAction
      cases found : SortedSetAction.ofName? request name with
      | none => exact .error _
      | some reading =>
        have orderly := SortedSetAction.ofName?_yields found taken
        have idle := SortedSetAction.ofName?_emptyReply? found
        refine Yields.map (?_ : Yields (fun action => request.ReadsTyped name key (.act action)) _)
          fun action reads => reads
        refine request.key_yields.bind fun found located => ?_
        -- Two readings come together here: what is orderly, and what is told of nothing.
        intro action read
        cases reading with
        | error obstacle => cases read
        | ok inner =>
          obtain rfl := Except.ok.inj read
          exact ⟨other, own located, (orderly inner rfl).2, idle inner rfl⟩
  · exact .error _

namespace ReadsTyped

variable {instruction : Instruction}

/-- What a typed command is read as looks for a value first and for its type then. -/
theorem checksType (reads : request.ReadsTyped name key instruction) {scope : Scope}
    {database : Database} (found : scope.database? = some database) :
    ∃ action, instruction = .act action ∧
      action.ChecksType name.suits (request.emptyReply? name) scope (database.get? key) := by
  -- Only these two kinds of instruction are read from a typed name.
  cases instruction with
  | beginTransaction | execute | discard | watch | quit => exact reads.elim
  | act action =>
    refine ⟨action, rfl, ?_⟩
    cases action with
    | answer | report | select | flush | flushAll | delete | countExisting | typeOf | set
    | unwatch => exact reads.elim
    | get own =>
      obtain ⟨rfl, rfl⟩ := reads
      exact Action.checksType_get found
    | sortedSet own action =>
      obtain ⟨other, rfl, orderly, idle⟩ := reads
      have wanted : name.suits = fun held => !held.isString := by
        funext held
        exact if_neg other
      rw [wanted, ← idle]
      exact Action.checksType_sortedSet found orderly

/-- A typed command without a reply for nothing makes a set with members of it. -/
theorem effect_none (reads : request.ReadsTyped name key instruction)
    (accepted : request.instruction site = .ok instruction)
    (makes : request.emptyReply? name = none) :
    ∃ set, (request.effect site none).2 = some (.sortedSet set) ∧ set.isEmpty = false := by
  rw [effect, accepted]
  -- A string that is not there tells of itself, so that only sets are made.
  cases instruction with
  | beginTransaction | execute | discard | watch | quit => exact reads.elim
  | act action =>
    cases action with
    | answer | report | select | flush | flushAll | delete | countExisting | typeOf | set
    | unwatch => exact reads.elim
    | get own =>
      obtain ⟨rfl, _⟩ := reads
      cases makes
    | sortedSet own action =>
      -- A set with members is stored, where one without would not be.
      obtain ⟨_, _, orderly, idle⟩ := reads
      have members := SortedSetAction.isEmpty_effect_empty orderly (idle.trans makes)
      refine ⟨(action.effect .empty).2, ?_, members⟩
      show (action.effect .empty).2.stored? = _
      rw [SortedSet.stored?, members]
      rfl

end ReadsTyped
end Request

namespace Server

/-- What comes of a typed command on a key of the selected database: first whether the key holds a
value, and then whether it is of the wanted type. -/
structure ChecksType (server : Server) (number : Nat) (request : Request) (verb : CommandName)
    (name : KeyName) : Prop where
  /-- There is a reply. -/
  answered : ∃ reply, (server.handle number request).2 = .ok { reply }
  /-- The reply tells of a wrong type exactly if the key holds a value of another type. -/
  refused : (server.handle number request).2 = .ok { reply := Refusal.wrongType.reply } ↔
    ∃ held, valueAt server.databases name = some held ∧ verb.suits held = false
  /-- A value of another type, all databases and the connection stay what they were. -/
  untouched : (∃ held, valueAt server.databases name = some held ∧ verb.suits held = false) →
    (server.handle number request).1.scope number = server.scope number
  /-- A key that holds nothing is told by the one reply of the command, and nothing is done. -/
  absent : valueAt server.databases name = none → ∀ reply, request.emptyReply? verb = some reply →
    (server.handle number request).2 = .ok { reply } ∧
      (server.handle number request).1.scope number = server.scope number
  /-- A command without such a reply makes a sorted set with members under
  the key, and nothing else. -/
  created : valueAt server.databases name = none → request.emptyReply? verb = none →
    KeepsAllBut name server.databases (server.handle number request).1.databases ∧
      ∃ set, valueAt (server.handle number request).1.databases name = some (.sortedSet set) ∧
        set.isEmpty = false

variable {server : Server} {number : Nat} {request : Request} {verb : CommandName} {name : KeyName}

/-- What a request comes to whose action runs at once. -/
theorem handle_of_run {action : Action} {reply : Reply} {after : Scope}
    (outside : server.isQueueing number = false)
    (accepted : request.instruction server.site = .ok (.act action))
    (ran : action.run (server.scope number) = .ok (reply, after)) :
    server.handle number request = (server.withScope number after, .ok { reply }) := by
  have notQueued : (server.scope number).connection.queueing = false := outside
  rw [handle_eq, accepted]
  simp only [Scope.handle, Scope.follow, Scope.act, notQueued, ran, Scope.reply,
    Bool.false_eq_true, if_false]

/-- In every run a typed command is read as an action that looks for a value
first and for its type then. -/
theorem IsReached.checksType (reached : server.IsReached) {instruction : Instruction}
    (asks : server.AsksAbout number request name) (known : CommandName.ofLowercase? request.name =
      some verb) (typed : verb.isTyped = true)
    (accepted : request.instruction server.site = .ok instruction) :
    ∃ action, instruction = .act action ∧
      action.ChecksType verb.suits (request.emptyReply? verb) (server.scope number)
        (valueAt server.databases name) := by
  obtain ⟨index, key⟩ := name
  -- The key is looked up in the database that the connection has selected.
  obtain rfl : (server.scope number).connection.selected = index := asks.selected
  have within := (reached.fits.connections number).selected
  have found : (server.scope number).database? =
      some server.databases[(server.scope number).connection.selected] :=
    List.getElem?_eq_getElem within
  have reads := Request.instruction_typed known typed asks.about.key instruction accepted
  obtain ⟨action, same, checks⟩ := reads.checksType found
  rw [← valueAt_eq found] at checks
  exact ⟨action, same, checks⟩

/-- In every run typed commands outside a transaction look for a value
first and for its type then. -/
theorem handle_checksType (reached : server.IsReached) {instruction : Instruction}
    (asks : server.AsksAbout number request name) (named : request.name = verb.text)
    (typed : verb.isTyped = true) (accepted : request.instruction server.site = .ok instruction) :
    server.ChecksType number request verb name := by
  have known : CommandName.ofLowercase? request.name = some verb :=
    named ▸ CommandName.ofLowercase?_text verb
  have reads := Request.instruction_typed known typed asks.about.key instruction accepted
  obtain ⟨action, rfl, checks⟩ := reached.checksType asks known typed accepted
  -- Whatever the action does on the scope is the reply and the new server.
  have ran {reply : Reply} {after : Scope}
      (run : action.run (server.scope number) = .ok (reply, after)) :=
    handle_of_run asks.outside accepted run
  by_cases wrong : ∃ held, valueAt server.databases name = some held ∧ verb.suits held = false
  · -- The value is of another type, and there is one.
    have handled := ran (checks.refused wrong)
    have present : valueAt server.databases name ≠ none := by
      intro absent
      obtain ⟨held, stored, _⟩ := wrong
      cases absent.symm.trans stored
    refine ⟨⟨_, by rw [handled]⟩, iff_of_true (by rw [handled]) wrong, fun _ => ?_, ?_, ?_⟩
    · rw [handled, scope_withScope]
    · intro absent
      exact absurd absent present
    · intro absent
      exact absurd absent present
  · -- There is no value, or one of the wanted type, and the reply is not
    -- the one that tells of a type.
    have wanted : ∀ held, valueAt server.databases name = some held →
        verb.suits held = true := by
      intro held stored
      by_contra other
      exact wrong ⟨held, stored, Bool.not_eq_true _ ▸ other⟩
    obtain ⟨reply, after, run, different⟩ := checks.told wanted
    have handled := ran run
    refine ⟨⟨reply, by rw [handled]⟩, iff_of_false ?_ wrong, fun held => absurd held wrong, ?_, ?_⟩
    · rw [handled]
      intro same
      exact different (congrArg Answer.reply (Except.ok.inj same))
    · intro absent reply idle
      have idled := ran (checks.absent absent reply idle)
      rw [idled, scope_withScope]
      exact ⟨rfl, rfl⟩
    · -- What is made is the effect of the command on nothing.
      intro absent makes
      have acts := reached.actsOn asks server.site
      obtain ⟨set, made, members⟩ := reads.effect_none accepted makes
      refine ⟨acts.others, set, ?_, members⟩
      rw [acts.value, absent]
      exact made

/-- An empty page of an empty range is refused where a string is stored. -/
theorem handle_checksType_string :
    let server := (start 1 ⟨"localhost", 6379⟩).run [.connect 1,
      .request 1 ⟨Text.bytes "SET", [Text.bytes "s", Text.bytes "x"]⟩]
    let request : Request := ⟨Text.bytes "ZRANGEBYSCORE", [Text.bytes "s", Text.bytes "(1",
      Text.bytes "1", Text.bytes "LIMIT", Text.bytes "0", Text.bytes "0"]⟩
    server.ChecksType 1 request .zrangebyscore (0, Text.bytes "s") ∧
      ∃ held, valueAt server.databases (0, Text.bytes "s") = some held ∧
        CommandName.zrangebyscore.suits held = false := by
  intro server request
  have about : request.IsAbout (Text.bytes "s") := ⟨⟨.zrangebyscore, by decide +kernel, rfl⟩, rfl⟩
  have asks : server.AsksAbout 1 request (0, Text.bytes "s") :=
    ⟨by decide +kernel, by decide +kernel, about⟩
  -- The words are in order, whatever the key holds.
  have read : (request.instruction server.site).isOk = true := by decide +kernel
  have stored : server.contentAt (0, Text.bytes "s") = some (.string (Text.bytes "x")) := by
    decide +kernel
  refine ⟨?_, ?_⟩
  · -- The request is accepted, so that the type of the value is what it fails on.
    cases accepted : request.instruction server.site with
    | error obstacle =>
      rw [accepted] at read
      cases read
    | ok instruction =>
      exact handle_checksType ⟨1, _, _, rfl⟩ asks (by decide +kernel) rfl accepted
  · -- The value has the content that was set, and no set has such a content.
    obtain ⟨held, found, content⟩ := Option.map_eq_some_iff.mp stored
    cases held with
    | string text => exact ⟨_, found, rfl⟩
    | sortedSet set => cases content

end Server
end ScoreStore
