import ScoreStore.Proofs.Command.Instruction
import ScoreStore.Proofs.Reply.Wire

/-!
What requests can be read as: instructions that fit, or refusals that quote the
request at most, but never a fault.
-/

namespace ScoreStore

/-- The part of the message for a refusal that is not always the same. -/
def Refusal.quoted? : Refusal → Option String
  | .unknownCommand name => some name
  | .wrongCount name => some name
  | .unknownSubcommand name => some name
  | .unsupportedCluster words => some words
  | _ => none

/-- Refusals that quote nothing. -/
def Refusal.IsFixed (refusal : Refusal) : Prop := refusal.quoted? = none

/-- The message for a refusal is a line if what it quotes is one. -/
theorem Refusal.isLine_message {refusal : Refusal}
    (quoted : ∀ text ∈ refusal.quoted?, (Text.bytes text).IsLine) :
    (Text.bytes refusal.message).IsLine := by
  -- Messages that quote something have fixed words on both sides.
  have around {first last : String} (text : String) (before : (Text.bytes first).IsLine)
      (line : (Text.bytes text).IsLine) (after : (Text.bytes last).IsLine) :
      (Text.bytes (first ++ text ++ last)).IsLine := by
    rw [Text.bytes_append, Text.bytes_append]
    exact (before.append line).append after
  cases refusal with
  | unknownCommand name =>
    exact around name (by decide +kernel) (quoted name rfl) (by decide +kernel)
  | wrongCount name => exact around name (by decide +kernel) (quoted name rfl) (by decide +kernel)
  | unknownSubcommand name =>
    exact around name (by decide +kernel) (quoted name rfl) (by decide +kernel)
  | unsupportedCluster words =>
    exact around words (by decide +kernel) (quoted words rfl) (by decide +kernel)
  -- Every other message is one fixed text.
  | _ => decide +kernel

/-- A reading that comes to a value or a refusal of the given kinds, and never to a fault. -/
def Comes {α : Type} (refusals : Refusal → Prop) (values : α → Prop) : Except Obstacle α → Prop
  | .ok value => values value
  | .error (.refusal refusal) => refusals refusal
  | .error (.fault _) => False

namespace Comes

variable {α β : Type} {refusals : Refusal → Prop} {values : α → Prop} {results : β → Prop}

/-- Readings in turn come to what each of them comes to. -/
theorem bind {first : Except Obstacle α} {next : α → Except Obstacle β}
    (head : Comes refusals values first)
    (tail : ∀ value, values value → Comes refusals results (next value)) :
    Comes refusals results (first >>= next) := by
  cases first with
  | ok value => exact tail value head
  | error obstacle => cases obstacle <;> exact head

/-- What is made of a value does not matter to refusals. -/
theorem map {reading : Except Obstacle α} (reads : Comes refusals values reading) {made : α → β}
    (fits : ∀ value, values value → results (made value)) :
    Comes refusals results (reading.map made) := by
  cases reading with
  | ok value => exact fits value reads
  | error obstacle => cases obstacle <;> exact reads

/-- A reading that comes to something comes to anything wider. -/
theorem mono {wider : Refusal → Prop} {more : α → Prop} {reading : Except Obstacle α}
    (reads : Comes refusals values reading) (refused : ∀ refusal, refusals refusal → wider refusal)
    (fits : ∀ value, values value → more value) : Comes wider more reading := by
  cases reading with
  | ok value => exact fits value reads
  | error obstacle =>
    cases obstacle with
    | fault fault => exact reads
    | refusal refusal => exact refused refusal reads

/-- A value that may be missing is refused as told. -/
theorem orRefuse (refusal : Refusal) (fixed : refusal.IsFixed) (value : Option α) :
    Comes Refusal.IsFixed (fun _ => True) (Request.orRefuse refusal value) := by
  cases value
  · exact fixed
  · trivial

/-- A reading that may be refused is refused as it was. -/
theorem refusable {reading : Except Refusal α}
    (refused : ∀ refusal, reading = .error refusal → refusals refusal) :
    Comes refusals (fun _ => True) (SortedSetAction.refusable reading) := by
  cases reading with
  | ok value => trivial
  | error refusal => exact refused refusal rfl

end Comes

namespace Request

variable {request : Request} {position : Nat}

/-- A word that is there is found. -/
theorem need_comes {refusals : Refusal → Prop} (within : position < request.arguments.length) :
    Comes refusals (fun _ => True) (request.need position) := by
  -- A word that is not there would be a fault, and no refusal.
  unfold need
  rw [List.getElem?_eq_getElem within]
  trivial

/-- A word that is there is an integer or refused. -/
theorem needInteger_comes (within : position < request.arguments.length) :
    Comes Refusal.IsFixed (fun _ => True) (request.needInteger position) :=
  (need_comes within).bind fun _ _ => .orRefuse .notAnInteger rfl _

/-- A command takes no fewer words than its entry says. -/
theorem arity_le {name : CommandName} (taken : name.entry.accepts request.words.length = true) :
    name.entry.arity.natAbs ≤ request.arguments.length + 1 := by
  unfold CommandEntry.accepts at taken
  -- A negative number in the entry is a least number of words, and any other one an exact one.
  split at taken
  · exact of_decide_eq_true taken
  · exact Nat.le_of_eq (eq_of_beq taken).symm

end Request

namespace SortedSetAction

variable {request : Request}

/-- Pairs are refused without a quote. -/
theorem isFixed_of_readPairs {words : List Bytes} {refusal : Refusal}
    (refused : readPairs words = .error refusal) : refusal.IsFixed := by
  -- A refusal further on is the refusal of the whole.
  fun_induction readPairs words with
  | case1 => cases refused
  | case2 => cases refused; rfl
  | case3 token member rest bad => cases refused; rfl
  | case4 token member rest value read ih =>
    cases others : readPairs rest with
    | ok elements => rw [others] at refused; cases refused
    | error problem =>
      rw [others] at refused
      cases refused
      exact ih others

/-- Members to add are refused without a quote. -/
theorem isFixed_of_readAdd {words : List Bytes} {refusal : Refusal}
    (refused : readAdd words = .error refusal) : refusal.IsFixed := by
  unfold readAdd at refused
  generalize AddOptions.read {} words = parts at refused
  obtain ⟨options, pairs⟩ := parts
  simp only at refused
  split at refused
  · next problem conflict =>
    cases refused
    -- None of the conflicts between options has a quote.
    unfold AddOptions.conflict? at conflict
    simp only at conflict
    repeat' split at conflict
    all_goals cases conflict
    all_goals rfl
  · cases others : readPairs pairs with
    | ok elements => rw [others] at refused; cases refused
    | error problem =>
      rw [others] at refused
      cases refused
      exact isFixed_of_readPairs others

/-- Options of a listing are refused without a quote. -/
theorem isFixed_of_readOptions {scoresAllowed : Bool} {options : ListOptions} {words : List Bytes}
    {refusal : Refusal} (refused : ListOptions.read scoresAllowed options words = .error refusal) :
    refusal.IsFixed := by
  -- The options are read one after the other, so that the refusal is that of the last one read.
  fun_induction ListOptions.read scoresAllowed options words with
  | case1 => cases refused
  | case2 options word rest scores ih => exact ih refused
  | case3 options word scores limit offset count rest _ _ _ _ ih => exact ih refused
  | case4 => cases refused; rfl
  | case5 => cases refused; rfl
  | case6 => cases refused; rfl

/-- The words after a window are refused without a quote. -/
theorem isFixed_of_readWithScores {words : List Bytes} {refusal : Refusal}
    (refused : readWithScores words = .error refusal) : refusal.IsFixed := by
  unfold readWithScores at refused
  split at refused
  · cases refused
  · split at refused <;> cases refused
    rfl
  · cases refused
    rfl

section Ranges

variable (enough : 2 < request.arguments.length)
include enough

/-- A range of scores is read if its ends are there. -/
theorem readByScore_comes (reverse : Bool) :
    Comes Refusal.IsFixed (fun _ => True) (readByScore reverse request) :=
  (Request.need_comes (by omega)).bind fun _ _ =>
    (Request.need_comes enough).bind fun _ _ => .orRefuse .boundNotAFloat rfl _

/-- A range of members is read if its ends are there. -/
theorem readByLex_comes (reverse : Bool) :
    Comes Refusal.IsFixed (fun _ => True) (readByLex reverse request) :=
  (Request.need_comes (by omega)).bind fun _ _ =>
    (Request.need_comes enough).bind fun _ _ => .orRefuse .boundNotAMember rfl _

/-- A window is read if its ends are there. -/
theorem readByRank_comes : Comes Refusal.IsFixed (fun _ => True) (readByRank request) :=
  (Request.needInteger_comes (by omega)).bind fun _ _ =>
    (Request.needInteger_comes enough).bind fun _ _ => trivial

/-- A listing by position is read if the ends of its window are there. -/
theorem readListByRank_comes (reverse : Bool) :
    Comes Refusal.IsFixed (fun _ => True) (readListByRank reverse request) :=
  (readByRank_comes enough).bind fun _ _ =>
    (Comes.refusable fun _ => isFixed_of_readWithScores).bind fun _ _ => trivial

/-- An increment is read if its amount and member are there. -/
theorem readIncrement_comes : Comes Refusal.IsFixed (fun _ => True) (readIncrement request) :=
  (Request.need_comes (by omega)).bind fun _ _ =>
    (Comes.orRefuse .notAFloat rfl _).bind fun _ _ =>
      (Request.need_comes enough).bind fun _ _ => trivial

end Ranges

/-- A listing of a range is read if its ends are. -/
theorem readListByRange_comes (scoresAllowed : Bool) {reverse : Bool}
    {readRange : Bool → Request → Except Obstacle Selection}
    (range : Comes Refusal.IsFixed (fun _ => True) (readRange reverse request)) :
    Comes Refusal.IsFixed (fun _ => True)
      (readListByRange scoresAllowed reverse readRange request) :=
  range.bind fun _ _ =>
    (Comes.refusable fun _ => isFixed_of_readOptions).bind fun _ _ => trivial

/-- A command on sorted sets with as many words as it takes is read, or refused without a quote. -/
theorem ofName?_comes {name : CommandName} {reading : Except Obstacle SortedSetAction}
    (found : ofName? request name = some reading)
    (taken : name.entry.accepts request.words.length = true) :
    Comes Refusal.IsFixed (fun _ => True) reading := by
  -- The number of words that a command takes covers every position that it reads.
  have arity := Request.arity_le taken
  have made {α β : Type} {made : α → β} {reading : Except Obstacle α}
      (reads : Comes Refusal.IsFixed (fun _ => True) reading) :
      Comes Refusal.IsFixed (fun _ => True) (reading.map made) := reads.map fun _ _ => trivial
  cases name <;> simp only [ofName?, Option.some.injEq, reduceCtorEq] at found <;> subst found
  -- What is left are the commands of the group, together where they are read alike.
  case zadd => exact .refusable fun _ => isFixed_of_readAdd
  case zincrby => exact readIncrement_comes (Nat.le_of_succ_le_succ arity)
  case zcard | zrem => trivial
  case zscore | zrank | zrevrank =>
    exact made (Request.need_comes (Nat.le_of_succ_le_succ arity))
  case zcount | zremrangebyscore =>
    exact made (readByScore_comes (Nat.le_of_succ_le_succ arity) false)
  case zlexcount | zremrangebylex =>
    exact made (readByLex_comes (Nat.le_of_succ_le_succ arity) false)
  case zremrangebyrank => exact made (readByRank_comes (Nat.le_of_succ_le_succ arity))
  case zrange | zrevrange => exact readListByRank_comes (Nat.le_of_succ_le_succ arity) _
  case zrangebyscore | zrevrangebyscore =>
    exact readListByRange_comes true (readByScore_comes (Nat.le_of_succ_le_succ arity) _)
  case zrangebylex | zrevrangebylex =>
    exact readListByRange_comes false (readByLex_comes (Nat.le_of_succ_le_succ arity) _)

end SortedSetAction

/-- A reply that is known in advance is one value on the wire. -/
def Action.Speaks : Action → Prop
  | .answer reply => Wire reply.encode
  | _ => True

/-- The message for a refusal is a line if every word of the request is one. -/
def Refusal.Echoes (request : Request) (refusal : Refusal) : Prop :=
  (∀ word ∈ request.words, word.IsLine) → (Text.bytes refusal.message).IsLine

/-- A message that quotes nothing is a line. -/
theorem Refusal.IsFixed.echoes {refusal : Refusal} (fixed : refusal.IsFixed) (request : Request) :
    refusal.Echoes request :=
  fun _ => isLine_message fun _ quoted => nomatch fixed.symm.trans quoted

/-- An instruction that a request may ask for: its action fits and speaks, and only requests of some
names, on their own, end a transaction. -/
def Request.Asks (site : Site) (request : Request) : Instruction → Prop
  | .act action => action.Fits site.databaseCount ∧ action.Speaks
  | .beginTransaction => True
  | .execute => request.name = "exec" ∧ request.arguments = []
  | .discard => request.name = "discard" ∧ request.arguments = []
  | .watch _ => True
  | .quit => request.name = "quit"

namespace Request

variable {site : Site} {request : Request} {name : CommandName}

/-- What is told of a command is one value. -/
theorem wire_describe (entry : CommandEntry) (name : String) :
    Wire (entry.describe name).encode := by
  have empty : Wire (Reply.array []).encode :=
    Reply.wire_array fun _ member => absurd member List.not_mem_nil
  refine Reply.wire_array fun reply member => ?_
  simp only [List.mem_cons, List.not_mem_nil, or_false] at member
  -- Name, number of words, flags, three positions of keys, and four lists that are always empty.
  rcases member with rfl | rfl | rfl | rfl | rfl | rfl | rfl | rfl | rfl | rfl
  · exact Reply.wire_bulk _
  · exact Reply.wire_integer _
  · exact Reply.wire_ofList _
  · exact Reply.wire_integer _
  · exact Reply.wire_integer _
  · exact Reply.wire_integer _
  · exact empty
  · exact empty
  · exact empty
  · exact empty

/-- The command table is one value. -/
theorem wire_table : Wire CommandName.table.encode :=
  Reply.wire_array (List.forall_mem_map.mpr fun _ _ => wire_describe _ _)

/-- The ranges of slots are one value. -/
theorem wire_slots (endpoint : Endpoint) : Wire (Cluster.slots endpoint).encode := by
  have node : Wire (Reply.array [.bulk (Text.bytes endpoint.host), .count endpoint.port,
      .bulk (Text.bytes Cluster.nodeId)]).encode := by
    refine Reply.wire_array fun reply member => ?_
    simp only [List.mem_cons, List.not_mem_nil, or_false] at member
    rcases member with rfl | rfl | rfl
    · exact Reply.wire_bulk _
    · exact Reply.wire_integer _
    · exact Reply.wire_bulk _
  have range : Wire (Reply.array [.count 0, .count Cluster.lastSlot,
      .array [.bulk (Text.bytes endpoint.host), .count endpoint.port,
        .bulk (Text.bytes Cluster.nodeId)]]).encode := by
    refine Reply.wire_array fun reply member => ?_
    simp only [List.mem_cons, List.not_mem_nil, or_false] at member
    rcases member with rfl | rfl | rfl
    · exact Reply.wire_integer _
    · exact Reply.wire_integer _
    · exact node
  exact Reply.wire_array fun reply member => List.mem_singleton.mp member ▸ range

/-- A word that is a line is one in lowercase too. -/
theorem isLine_lowered {word : Bytes} (line : word.IsLine) : (Text.bytes (lowered word)).IsLine :=
  Text.isLine_lower_ofBytes line

/-- A command about the connection is read as an instruction or refused. -/
theorem connectionInstruction_comes (group : name.group = .connection)
    (named : request.name = name.text)
    (taken : name.entry.accepts request.words.length = true) :
    Comes (·.Echoes request) (request.Asks site) (request.connectionInstruction site name) := by
  have arity := arity_le taken
  cases name <;> simp only [CommandName.group, reduceCtorEq] at group
  case ping =>
    simp only [connectionInstruction]
    -- With no word, with one, and with more, which only this command refuses by itself.
    split
    · exact ⟨trivial, Reply.wire_status (by decide +kernel)⟩
    · exact ⟨trivial, Reply.wire_bulk _⟩
    · exact fun _ => by decide +kernel
  case echo =>
    exact (need_comes (Nat.le_of_succ_le_succ arity)).bind fun message _ =>
      ⟨trivial, Reply.wire_bulk message⟩
  case select =>
    refine (need_comes (Nat.le_of_succ_le_succ arity)).bind fun word _ => ?_
    have index := Comes.orRefuse .badDatabaseIndex rfl (Decimal.signed64? word)
    refine (index.mono (fun _ fixed => fixed.echoes request) fun _ => id).bind fun index _ => ?_
    -- An index that is negative or too great is refused.
    split
    · next within =>
      refine ⟨?_, trivial⟩
      show index.toNat < site.databaseCount
      omega
    · have fixed : Refusal.databaseIndexOutOfRange.IsFixed := rfl
      exact fixed.echoes request
  case quit => exact named

/-- A command about the server is read as an action or refused. -/
theorem serverInstruction_comes (group : name.group = .server) :
    Comes (·.Echoes request) (request.Asks site) (request.serverInstruction name) := by
  cases name <;> simp only [CommandName.group, reduceCtorEq] at group
  -- Without words the whole table is told, and with other words than one nothing.
  case command =>
    simp only [serverInstruction]
    split
    · exact ⟨trivial, wire_table⟩
    · next word rest arguments =>
      split
      · exact ⟨trivial, Reply.wire_integer _⟩
      · -- The first word is quoted in lowercase.
        refine fun lines => Refusal.isLine_message fun text quoted => ?_
        obtain rfl := Option.some.inj quoted
        exact isLine_lowered (lines word (by simp [words, arguments]))
  case info => exact ⟨trivial, trivial⟩

/-- What is in texts with blanks between them is in one of them, or a blank. -/
theorem mem_of_mem_intercalate {texts : List String} {letter : Char}
    (member : letter ∈ (" ".intercalate texts).toList) :
    letter = ' ' ∨ ∃ text ∈ texts, letter ∈ text.toList := by
  rw [String.toList_intercalate] at member
  -- A text is followed by a blank unless it is the last one.
  induction texts with
  | nil => exact absurd member List.not_mem_nil
  | cons text rest ih =>
    have own : letter ∈ text.toList → ∃ found ∈ text :: rest, letter ∈ found.toList :=
      fun inside => ⟨text, List.mem_cons_self, inside⟩
    cases rest with
    | nil => exact Or.inr (own (by simpa using member))
    | cons next others =>
      rw [List.map_cons, List.map_cons, List.intercalate_cons_cons, ← List.map_cons] at member
      rcases List.mem_append.mp member with front | later
      · rcases List.mem_append.mp front with here | blank
        · exact Or.inr (own here)
        · exact Or.inl (List.mem_singleton.mp blank)
      · rcases ih later with blank | ⟨found, inside, holds⟩
        · exact Or.inl blank
        · exact Or.inr ⟨found, List.mem_cons_of_mem text inside, holds⟩

/-- A command about the cluster is read as an action or refused. -/
theorem clusterInstruction_comes :
    Comes (·.Echoes request) (request.Asks site) (request.clusterInstruction site) := by
  unfold clusterInstruction
  split
  · exact ⟨trivial, wire_slots _⟩
  · split
    · exact ⟨trivial, Reply.wire_integer _⟩
    · split
      · exact ⟨trivial, Reply.wire_bulk _⟩
      · -- All words are quoted, with blanks between them.
        refine fun lines => Refusal.isLine_message fun text quoted => ?_
        obtain rfl := Option.some.inj quoted
        refine Text.isLine_bytes fun letter member => ?_
        rcases mem_of_mem_intercalate member with rfl | ⟨found, inside, holds⟩
        · decide
        · obtain ⟨word, argument, rfl⟩ := List.mem_map.mp inside
          exact Text.not_lineEnd_of_mem_ofBytes (lines word (List.mem_cons_of_mem _ argument)) holds

/-- A command about keys is read as an action or refused. -/
theorem keysInstruction_comes (group : name.group = .keys)
    (taken : name.entry.accepts request.words.length = true) :
    Comes (·.Echoes request) (request.Asks site) (request.keysInstruction name) := by
  have arity := arity_le taken
  cases name <;> simp only [CommandName.group, reduceCtorEq] at group
  case typeOf =>
    exact (need_comes (Nat.le_of_succ_le_succ arity)).bind fun _ _ => ⟨trivial, trivial⟩
  case del | existing | flushDb | flushAll => exact ⟨trivial, trivial⟩

/-- A command on strings is read as an action or refused. -/
theorem stringsInstruction_comes (group : name.group = .strings)
    (taken : name.entry.accepts request.words.length = true) :
    Comes (·.Echoes request) (request.Asks site) (request.stringsInstruction name) := by
  have arity := arity_le taken
  cases name <;> simp only [CommandName.group, reduceCtorEq] at group
  case set =>
    have enough : 1 < request.arguments.length := Nat.le_of_succ_le_succ arity
    exact (need_comes (by omega)).bind fun _ _ =>
      (need_comes enough).bind fun _ _ => ⟨trivial, trivial⟩
  case get =>
    exact (need_comes (Nat.le_of_succ_le_succ arity)).bind fun _ _ => ⟨trivial, trivial⟩

/-- A command about transactions is read as what its name says. -/
theorem transactionsInstruction_comes (group : name.group = .transactions)
    (named : request.name = name.text)
    (taken : name.entry.accepts request.words.length = true) :
    Comes (·.Echoes request) (request.Asks site) (request.transactionsInstruction name) := by
  -- The commands that end a transaction take no arguments.
  have bare (one : name.entry.arity = 1) : request.arguments = [] := by
    simpa [CommandEntry.accepts, one, words] using taken
  cases name <;> simp only [CommandName.group, reduceCtorEq] at group
  case multi | watch => trivial
  case exec | discard => exact ⟨named, bare rfl⟩
  case unwatch => exact ⟨trivial, trivial⟩

/-- A command on sorted sets is read as an action or refused. -/
theorem sortedSetAction_comes (group : name.group = .sortedSets)
    (taken : name.entry.accepts request.words.length = true) :
    Comes (·.Echoes request) (request.Asks site)
      ((request.sortedSetAction name).map Instruction.act) := by
  unfold sortedSetAction
  -- The group takes exactly the commands on sorted sets, all of which have a key.
  cases found : SortedSetAction.ofName? request name with
  | none => cases name <;> simp [SortedSetAction.ofName?, CommandName.group] at found group
  | some reading =>
    have arity := arity_le taken
    have some : 0 < request.arguments.length := by
      -- No entry of the group takes fewer words than the name and a key.
      have least : 2 ≤ name.entry.arity.natAbs := by
        cases name <;> simp only [CommandName.group, reduceCtorEq] at group <;> decide
      omega
    have inner := (SortedSetAction.ofName?_comes found taken).mono
      (fun _ fixed => fixed.echoes request) fun _ => id
    refine Comes.map ((need_comes some).bind fun key _ => inner.bind fun action _ => ?_)
      fun action sound => sound
    exact ⟨trivial, trivial⟩

/-- A request with the name of a command is found by it. -/
theorem name_eq_text {known : CommandName}
    (found : CommandName.ofLowercase? request.name = some known) : request.name = known.text :=
  CommandName.ofLowercase?_eq_some_iff.mp found

/-- Every request is read as an instruction that it may ask for, or refused with at most a quote. -/
theorem instruction_comes (site : Site) (request : Request) :
    Comes (·.Echoes request) (request.Asks site) (request.instruction site) := by
  unfold Request.instruction
  split
  · -- The name of no command is told.
    refine fun lines => Refusal.isLine_message fun text quoted => ?_
    obtain rfl := Option.some.inj quoted
    exact isLine_lowered (lines request.verb List.mem_cons_self)
  · next name known =>
    have named := name_eq_text known
    split
    · next taken =>
      -- The group looks for the name once more, and finds the same command.
      unfold CommandGroup.instruction
      rw [known]
      cases group : name.group with
      | cluster => exact clusterInstruction_comes
      | sortedSets => exact sortedSetAction_comes group taken
      | strings => exact stringsInstruction_comes group taken
      | keys => exact keysInstruction_comes group taken
      | connection => exact connectionInstruction_comes group named taken
      | server => exact serverInstruction_comes group
      | transactions => exact transactionsInstruction_comes group named taken
    · -- The name that is quoted is the command's own, and no word of the request.
      refine fun _ => Refusal.isLine_message fun text quoted => ?_
      obtain rfl := Option.some.inj quoted
      cases name <;> decide +kernel

/-- What a request is read as selects only databases that exist. -/
theorem instruction_fits {instruction : Instruction}
    (read : request.instruction site = .ok instruction) :
    instruction.Fits site.databaseCount := by
  have asked := instruction_comes site request
  rw [read] at asked
  cases instruction with
  | act action => exact asked.1
  | _ => trivial

end Request
end ScoreStore
