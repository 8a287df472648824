import ScoreStore.Proofs.Server.Listing
import ScoreStore.Proofs.Server.Typed

/-! What a request to add scores asks for: its options, and the scores and members behind them. -/

namespace ScoreStore

namespace AddOptions

variable {options more : AddOptions} {word : String}

/-- A word that is taken turns on what it is the name of, and nothing else. -/
theorem eq_of_take? (taken : options.take? word = some more) :
    more = {
      rule := {
        onlyAbsent := options.rule.onlyAbsent || word = "nx"
        onlyPresent := options.rule.onlyPresent || word = "xx"
        onlyGreater := options.rule.onlyGreater || word = "gt"
        onlyLess := options.rule.onlyLess || word = "lt"
        increment := options.rule.increment || word = "incr" }
      countChanges := options.countChanges || word = "ch" } := by
  -- A word is the name of one option at most.
  unfold take? at taken
  split at taken <;> cases taken <;> simp

/-- The options that are read are those whose names stand in front of
the first word that is none. -/
theorem fst_read (words : List Bytes) :
    (read {} words).1 =
      let given (option : String) : Bool :=
        (words.takeWhile isOption).any fun word => Request.lowered word = option
      { rule := ⟨given "nx", given "xx", given "gt", given "lt", given "incr"⟩
        countChanges := given "ch" } := by
  -- Each option is read by itself, whatever the others are.
  have flag (turned : AddOptions → Bool) {option : String}
      (turns : ∀ options word more, take? options word = some more →
        turned more = (turned options || decide (word = option)))
      (off : turned {} = false) : turned (read {} words).1 =
        (words.takeWhile isOption).any fun word => Request.lowered word = option := by
    rw [read_flag turned turns {} words, off, Bool.false_or]
  have absent := flag (fun options => options.rule.onlyAbsent)
    (fun _ _ _ taken => by rw [eq_of_take? taken]) rfl
  have present := read_onlyPresent words
  have greater := flag (fun options => options.rule.onlyGreater)
    (fun _ _ _ taken => by rw [eq_of_take? taken]) rfl
  have less := flag (fun options => options.rule.onlyLess)
    (fun _ _ _ taken => by rw [eq_of_take? taken]) rfl
  have increment := read_increment words
  have changes := flag countChanges (fun _ _ _ taken => by rw [eq_of_take? taken]) rfl
  -- The options are equal if all six flags are.
  generalize (read {} words).1 = options at *
  obtain ⟨⟨_, _, _, _, _⟩, _⟩ := options
  dsimp only at *
  subst absent present greater less increment changes
  rfl

/-- Options without conflict do not ask for greater and lesser scores at once. -/
theorem oneWay_of_conflict?_eq_none {options : AddOptions} {count : Nat}
    (clear : options.conflict? count = none) :
    ¬ (options.rule.onlyGreater = true ∧ options.rule.onlyLess = true) := by
  -- Such options are refused at the latest by the last check.
  rintro ⟨greater, less⟩
  simp only [conflict?, greater, less] at clear
  repeat' split at clear
  all_goals simp_all

end AddOptions

/-- The elements that pairs of words spell, as far as each pair is a score and a member. -/
def Element.spelled : List Bytes → List Element
  | token :: member :: rest =>
    match Score.readNumber? token with
    | some score => ⟨member, score⟩ :: spelled rest
    | none => []
  | _ => []

namespace Request

/-- The conditions under which the options of a request let scores be given. -/
def addRule (request : Request) : AddRule where
  onlyAbsent := request.hasOption "nx"
  onlyPresent := request.hasOption "xx"
  onlyGreater := request.hasOption "gt"
  onlyLess := request.hasOption "lt"
  increment := request.hasOption "incr"

/-- The words behind the options of a request. -/
def behindOptions (request : Request) : List Bytes :=
  (request.arguments.drop 1).dropWhile AddOptions.isOption

/-- The members behind the options of a request, each with the score that is given to it. -/
def additions (request : Request) : List Element := Element.spelled request.behindOptions

/-- What a request to add scores under a key asks for, and what it is read as. -/
structure Adds (request : Request) (key : Bytes) (instruction : Instruction) : Prop where
  /-- The spelled scores are given to their members, as far as the options let them. -/
  read : instruction = .act (.sortedSet key
    (.add request.addRule (request.hasOption "ch") request.additions))
  /-- Something is given. -/
  several : request.additions ≠ []
  /-- All words behind the options are scores and members. -/
  whole : request.behindOptions.length = 2 * request.additions.length
  /-- All given scores are numbers. -/
  numbers : ∀ element ∈ request.additions, element.score.isNaN = false
  /-- An increment is given to one member only. -/
  single : request.hasOption "incr" = true → request.additions.length = 1
  /-- Scores are not asked to grow and to shrink at once. -/
  oneWay : ¬ (request.addRule.onlyGreater = true ∧ request.addRule.onlyLess = true)

/-- Behind the options that are read stand the words from the first one that is none. -/
theorem snd_read_eq (request : Request) :
    (AddOptions.read {} (request.arguments.drop 1)).2 = request.behindOptions := by
  rw [AddOptions.snd_read, behindOptions]
  generalize request.arguments.drop 1 = words
  -- The words are those up to there and those from there.
  have cut : (words.takeWhile AddOptions.isOption ++ words.dropWhile AddOptions.isOption).drop
      (words.takeWhile AddOptions.isOption).length = words.dropWhile AddOptions.isOption :=
    List.drop_left
  rw [List.takeWhile_append_dropWhile] at cut
  exact cut

end Request

namespace SortedSetAction

/-- Pairs that can be read are read as the elements that they spell. -/
theorem readPairs_spelled (words : List Bytes) :
    Yields (· = Element.spelled words) (readPairs words) := by
  -- The reader goes on as long as the spelling does, unless it refuses all of the words.
  fun_induction readPairs words with
  | case1 => exact .ok rfl
  | case2 => exact .error _
  | case3 => exact .error _
  | case4 token member rest score read ih =>
    refine ih.map fun elements same => ?_
    rw [Element.spelled, read, same]

/-- What is read as something to add is what the options and the words behind them ask for. -/
theorem readAdd_adds (request : Request) :
    Yields (fun action => ∀ key, request.Adds key (.act (.sortedSet key action)))
      (readAdd (request.arguments.drop 1)) := by
  -- The reading has two parts: the options in front, and pairs behind them.
  have options := AddOptions.fst_read (request.arguments.drop 1)
  have behind := request.snd_read_eq
  intro action read
  have orderly := (readAdd_yields (request.arguments.drop 1) action read).2
  unfold readAdd at read
  generalize AddOptions.read {} (request.arguments.drop 1) = parts at options behind read
  obtain ⟨asked, pairs⟩ := parts
  dsimp only at options behind read
  subst options behind
  split at read
  · -- Options that cannot be combined would have been refused.
    cases read
  · next clear =>
    have oneWay := AddOptions.oneWay_of_conflict?_eq_none clear
    cases spelled : readPairs request.behindOptions with
    | error refusal =>
      rw [spelled] at read
      cases read
    | ok elements =>
      -- The elements that were read are the spelled ones, and all words were read for them.
      obtain rfl := readPairs_spelled _ elements spelled
      have whole := (readPairs_yields _ _ spelled).1
      rw [spelled] at read
      obtain rfl := Except.ok.inj read
      obtain ⟨several, numbers, single⟩ := orderly
      exact fun key => ⟨rfl, several, whole, numbers, single, oneWay⟩

end SortedSetAction

namespace Request

variable {request : Request} {key : Bytes} {site : Site} {instruction : Instruction}

/-- An accepted request to add scores is read as what its words ask for. -/
theorem adds_of_accepted (named : request.name = CommandName.zadd.text)
    (first : request.arguments.head? = some key)
    (accepted : request.instruction site = .ok instruction) : request.Adds key instruction := by
  have known : CommandName.ofLowercase? request.name = some .zadd :=
    named ▸ CommandName.ofLowercase?_text .zadd
  -- With another number of words the request would be refused before they are read.
  have taken : CommandName.zadd.entry.accepts request.words.length = true := by
    -- The dispatch counts the words first.
    by_contra other
    simp [Request.instruction, known, other] at accepted
  have read := SortedSetAction.refusable_yields (SortedSetAction.readAdd_adds request)
  rw [instruction_reading rfl named taken first rfl site] at accepted
  exact read.map (fun action adds => adds key) instruction accepted

/-- A request is accepted if it is read as anything. -/
theorem exists_of_isOk (read : (request.instruction site).isOk = true) :
    ∃ instruction, request.instruction site = .ok instruction := by
  cases accepted : request.instruction site with
  -- An obstacle is no instruction.
  | error obstacle =>
    rw [accepted] at read
    cases read
  | ok instruction => exact ⟨instruction, rfl⟩

end Request
end ScoreStore
