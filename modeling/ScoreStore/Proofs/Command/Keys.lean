import ScoreStore.Proofs.Command.Entry

/-! The keys that requests name according to the table are those that they work on. -/

namespace ScoreStore

/-- The keys that an action names. -/
def Action.keys : Action → List Bytes
  | delete keys | countExisting keys => keys
  | typeOf key | set key _ | get key | sortedSet key _ => [key]
  | _ => []

/-- The keys that a request names, according to the table: all arguments, the first one, or none. -/
def Request.keys (request : Request) : List Bytes :=
  match CommandName.ofLowercase? request.name with
  | none => []
  | some name =>
    if name.entry.firstKey = 0 then []
    else if name.entry.lastKey = -1 then request.arguments
    else request.arguments.take 1

/-- What a request is read as works on the keys of the request, and only two commands
select or flush all databases. -/
def Instruction.WorksOn (request : Request) (name : CommandName) : Instruction → Prop
  | .act action => action.keys = request.keys ∧ (∀ index, action = .select index → name = .select) ∧
      (action = .flushAll → name = .flushAll)
  | .watch keys => keys = request.keys
  | _ => request.keys = []

/-- An action that names one key names it and no other. -/
theorem Action.keys_of_key? {action : Action} {key : Bytes} (named : action.key? = some key) :
    action.keys = [key] := by
  cases action with
  -- Actions on all keys or on none have no key of their own.
  | answer | report | select | flush | flushAll | delete | countExisting | unwatch => cases named
  | typeOf | set | get | sortedSet => exact congrArg (fun key => [key]) (Option.some.inj named)

namespace Request

variable {request : Request} {name : CommandName} {site : Site}

/-- The keys of a command without keys. -/
theorem keys_eq_nil (known : CommandName.ofLowercase? request.name = some name)
    (without : name.entry.firstKey = 0) : request.keys = [] := by
  simp only [keys, known, without, if_true]

/-- The keys of a command that takes as many as there are words. -/
theorem keys_eq_arguments (known : CommandName.ofLowercase? request.name = some name)
    (several : name.entry.firstKey ≠ 0 ∧ name.entry.lastKey = -1) :
    request.keys = request.arguments := by
  simp only [keys, known, if_neg several.1, if_pos several.2]

/-- The key of a command that takes one. -/
theorem keys_eq_singleton (known : CommandName.ofLowercase? request.name = some name)
    (single : name.namesOneKey = true) {key : Bytes} (first : request.arguments.head? = some key) :
    request.keys = [key] := by
  -- The first position and the last one are both that of the first argument.
  obtain ⟨own, last⟩ := name.namesOneKey_iff.mp single
  obtain ⟨rest, arguments⟩ : ∃ rest, request.arguments = key :: rest :=
    List.head?_eq_some_iff.mp first
  simp only [keys, known, own, last, arguments]
  rfl

/-- Every request works on the keys that it names. -/
theorem instruction_worksOn (known : CommandName.ofLowercase? request.name = some name) :
    Yields (·.WorksOn request name) (request.instruction site) := by
  cases single : name.namesOneKey with
  | true =>
    -- The one key is the first argument, whatever the command does with it.
    intro instruction read
    have suited := instruction_yields known instruction read
    cases instruction with
    -- These are not of a command on one key.
    | beginTransaction | execute | discard | watch | quit => cases single.symm.trans suited
    | act action =>
      obtain ⟨key, first, named⟩ := suited.key single
      refine ⟨(Action.keys_of_key? named).trans (keys_eq_singleton known single first).symm, ?_, ?_⟩
      · rintro index rfl
        cases named
      · rintro rfl
        cases named
  | false =>
    have without (none : name.entry.firstKey = 0) : request.keys = [] := keys_eq_nil known none
    -- Most of them name no key, and neither select nor flush all databases.
    have plain {action : Action} (idle : action.keys = [])
        (selects : ∀ index, action ≠ .select index)
        (flushes : action ≠ .flushAll) (none : name.entry.firstKey = 0) :
        Instruction.WorksOn request name (.act action) :=
      ⟨idle.trans (without none).symm, fun index same => absurd same (selects index),
        fun same => absurd same flushes⟩
    unfold instruction
    rw [known]
    dsimp only
    split
    · unfold CommandGroup.instruction
      rw [known]
      -- What is left are the commands without keys, and those that take as many as there are words.
      cases name <;> simp only [CommandName.group]
      case set | get | typeOf | zadd | zcard | zcount | zincrby | zlexcount | zrange | zrangebylex
          | zrangebyscore | zrank | zrem | zremrangebylex | zremrangebyrank | zremrangebyscore
          | zrevrange | zrevrangebylex | zrevrangebyscore | zrevrank | zscore =>
        cases single
      case ping =>
        simp only [connectionInstruction]
        split
        · exact .ok (plain rfl (by simp) (by simp) rfl)
        · exact .ok (plain rfl (by simp) (by simp) rfl)
        · exact .error _
      case echo => exact (Yields.any _).bind fun _ _ => .ok (plain rfl (by simp) (by simp) rfl)
      case select =>
        refine (Yields.any _).bind fun _ _ => (Yields.any _).bind fun index _ => ?_
        -- Selecting names a database but no key.
        split
        · exact .ok ⟨(without rfl).symm, fun _ _ => rfl, by simp⟩
        · exact .error _
      case command =>
        simp only [serverInstruction]
        split
        · exact .ok (plain rfl (by simp) (by simp) rfl)
        · split
          · exact .ok (plain rfl (by simp) (by simp) rfl)
          · exact .error _
      case info => exact .ok (plain rfl (by simp) (by simp) rfl)
      case cluster =>
        unfold clusterInstruction
        split
        · exact .ok (plain rfl (by simp) (by simp) rfl)
        · split
          · exact .ok (plain rfl (by simp) (by simp) rfl)
          · split
            · exact .ok (plain rfl (by simp) (by simp) rfl)
            · exact .error _
      case del | existing =>
        exact .ok ⟨(keys_eq_arguments known (by decide)).symm, by simp, by simp⟩
      case flushDb | unwatch => exact .ok (plain rfl (by simp) (by simp) rfl)
      case flushAll => exact .ok ⟨(without rfl).symm, by simp, fun _ => rfl⟩
      -- Watching takes all its words as keys, like deleting.
      case watch => exact .ok (keys_eq_arguments known (by decide)).symm
      case quit | multi | exec | discard => exact .ok (without rfl)
    · exact .error _

/-- A request that names keys is read in the same way everywhere. -/
theorem instruction_site_of_keys (keyed : request.keys ≠ []) (site other : Site) :
    request.instruction site = request.instruction other := by
  unfold instruction
  cases known : CommandName.ofLowercase? request.name with
  -- What the table does not know is refused at every site.
  | none => rfl
  | some name =>
    have some : name.entry.firstKey ≠ 0 := fun none => keyed (keys_eq_nil known none)
    -- The number of words is compared with the table alone.
    dsimp only
    split
    · unfold CommandGroup.instruction
      rw [known]
      -- The groups that look around have no command with keys.
      cases group : name.group with
      | sortedSets | strings | keys | server | transactions => rfl
      | connection | cluster =>
        cases name <;> simp only [CommandName.group, reduceCtorEq] at group <;>
          exact absurd rfl some
    · -- A wrong number of words is refused in the same way.
      rfl

end Request
end ScoreStore
