import ScoreStore.Command.Instruction

/-!
How requests are read: commands by their names, and what it means that a selection
is of a database that exists.
-/

namespace ScoreStore

/-- Every command is found by its name. -/
theorem CommandName.ofLowercase?_text (name : CommandName) :
    CommandName.ofLowercase? name.text = some name := by
  cases name <;> decide +kernel

/-- A command is found by no other name. -/
theorem CommandName.ofLowercase?_eq_some_iff {name : CommandName} {text : String} :
    CommandName.ofLowercase? text = some name ↔ text = name.text := by
  constructor
  · -- The keys of the table are compared with the text itself.
    intro found
    have same := List.find?_some found
    exact (eq_of_beq same).symm
  · rintro rfl
    exact ofLowercase?_text name

/-- A request with the name of a command and a number of words that it takes goes to its group. -/
theorem Request.instruction_of_name {request : Request} (name : CommandName)
    (named : request.name = name.text) (taken : name.entry.accepts request.words.length = true)
    (site : Site) : request.instruction site = name.group.instruction site request := by
  simp only [instruction, named, CommandName.ofLowercase?_text, taken, if_true]

/-- A request with only the name of a command about transactions is read as that command. -/
theorem Request.instruction_transactions {request : Request} (name : CommandName)
    (group : name.group = .transactions) (single : name.entry.arity = 1)
    (named : request.name = name.text) (bare : request.arguments = []) (site : Site) :
    request.instruction site = request.transactionsInstruction name := by
  -- A request without arguments is one word, which is the name.
  have taken : name.entry.accepts request.words.length = true := by
    rw [CommandEntry.accepts, single, words, bare]
    rfl
  rw [instruction_of_name name named taken, group]
  -- The group looks for the name once more.
  unfold CommandGroup.instruction
  rw [named, CommandName.ofLowercase?_text]

/-- The request to run the queue is read as such. -/
theorem Request.instruction_exec {request : Request} (named : request.name = CommandName.exec.text)
    (bare : request.arguments = []) (site : Site) : request.instruction site = .ok .execute :=
  instruction_transactions .exec rfl rfl named bare site

/-- The request to drop the queue is read as such. -/
theorem Request.instruction_discard {request : Request}
    (named : request.name = CommandName.discard.text) (bare : request.arguments = [])
    (site : Site) : request.instruction site = .ok .discard :=
  instruction_transactions .discard rfl rfl named bare site

/-- The request to release all watched keys is read as such. -/
theorem Request.instruction_unwatch {request : Request}
    (named : request.name = CommandName.unwatch.text) (bare : request.arguments = [])
    (site : Site) : request.instruction site = .ok (.act .unwatch) :=
  instruction_transactions .unwatch rfl rfl named bare site

/-- An action selects only one of so many databases. -/
def Action.Fits (count : Nat) : Action → Prop
  | .select index => index < count
  | _ => True

/-- An instruction leads only to actions that fit. -/
def Instruction.Fits (count : Nat) : Instruction → Prop
  | .act action => action.Fits count
  | _ => True

end ScoreStore
