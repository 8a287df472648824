import ScoreStore.Proofs.Connection.Selected
import ScoreStore.Proofs.Server.Kept
import ScoreStore.Proofs.Server.Locality
import ScoreStore.Proofs.Server.Safety
import ScoreStore.Proofs.Server.Typed

/-!
Selected databases: which of them can be selected, and that a connection works in the one that it
selected until it selects again.
-/

namespace ScoreStore

/-- The argument of a request is the index of one of so many databases. -/
def Request.NamesDatabase (request : Request) (count index : Nat) : Prop :=
  ∃ word, request.arguments = [word] ∧ Decimal.signed64? word = some (index : Int) ∧ index < count

namespace Request

variable {request : Request} {site : Site} {index : Nat}

/-- A command about the connection that takes one argument is read from it. -/
theorem instruction_select {word : Bytes} (named : request.name = CommandName.select.text)
    (arguments : request.arguments = [word]) :
    request.instruction site = request.connectionInstruction site .select := by
  have taken : CommandName.select.entry.accepts request.words.length = true := by
    rw [words, arguments]
    rfl
  -- The name is looked up a second time within the group.
  rw [instruction_of_name .select named taken]
  show CommandGroup.connection.instruction site request = _
  unfold CommandGroup.instruction
  rw [named, CommandName.ofLowercase?_text]

/-- The index of a database is selected, as long as it is not too great for any selection. -/
theorem instruction_select_of_names (named : request.name = CommandName.select.text)
    (names : request.NamesDatabase site.databaseCount index) (small : index ≤ maxDatabaseIndex) :
    request.instruction site = .ok (.act (.select index)) := by
  obtain ⟨word, arguments, read, within⟩ := names
  have needed : request.need 0 = .ok word := by
    rw [need, arguments]
    rfl
  -- The three comparisons that are made are those of natural numbers.
  have inside : (0 : Int) ≤ index ∧ (index : Int) ≤ maxDatabaseIndex ∧
      (index : Int) < site.databaseCount := by omega
  rw [instruction_select named arguments]
  simp only [connectionInstruction, needed]
  show (orRefuse .badDatabaseIndex (Decimal.signed64? word) >>= _) = _
  -- The word stands for the index, which passes all checks.
  rw [read]
  exact if_pos inside

/-- A command that watches some keys is read as such. -/
theorem instruction_watch (named : request.name = CommandName.watch.text)
    (several : request.arguments ≠ []) (site : Site) :
    request.instruction site = .ok (.watch request.arguments) := by
  -- The table takes any number of keys but none.
  have taken : CommandName.watch.entry.accepts request.words.length = true := by
    obtain ⟨key, rest, arguments⟩ := List.exists_cons_of_ne_nil several
    simp [CommandEntry.accepts, CommandName.entry, CommandEntry.immediate, CommandEntry.withArity,
      CommandEntry.withAllKeys, CommandEntry.basic, words, arguments]
  rw [instruction_of_name .watch named taken]
  show CommandGroup.transactions.instruction site request = _
  unfold CommandGroup.instruction
  rw [named, CommandName.ofLowercase?_text]
  rfl

/-- Whatever else is asked to be selected is refused. -/
theorem instruction_select_refused (site : Site) (named : request.name = CommandName.select.text)
    (others : ∀ index, request.NamesDatabase site.databaseCount index → maxDatabaseIndex < index) :
    ∃ refusal, request.instruction site = .error (.refusal refusal) := by
  by_cases taken : CommandName.select.entry.accepts request.words.length = true
  · -- There is one argument, which is no integer, or one that is out of range.
    obtain ⟨word, arguments⟩ : ∃ word, request.arguments = [word] := by
      refine List.length_eq_one_iff.mp ?_
      simpa [CommandEntry.accepts, words, CommandName.entry, CommandEntry.forConnection,
        CommandEntry.withoutKeys, CommandEntry.basic] using taken
    have needed : request.need 0 = .ok word := by
      rw [need, arguments]
      rfl
    rw [instruction_select named arguments]
    simp only [connectionInstruction, needed]
    show ∃ refusal, (orRefuse .badDatabaseIndex (Decimal.signed64? word) >>= _) = _
    cases read : Decimal.signed64? word with
    | none => exact ⟨.badDatabaseIndex, rfl⟩
    | some value =>
      -- An integer in range would be the index of a database that is not too great.
      refine ⟨.databaseIndexOutOfRange, if_neg fun inside => ?_⟩
      have whole : ((value.toNat : Nat) : Int) = value := Int.toNat_of_nonneg inside.1
      have great := others value.toNat ⟨word, arguments, by rw [read, whole], by omega⟩
      omega
  · -- The number of words is wrong already.
    refine ⟨.wrongCount CommandName.select.text, ?_⟩
    simp only [instruction, named, CommandName.ofLowercase?_text, if_neg taken]

end Request

namespace Server

/-- A request of a connection succeeds in selecting a database: on its own, or
in the queue that it runs. -/
def Selects (server : Server) (number : Nat) (request : Request) : Prop :=
  request.name = CommandName.select.text ∧ server.isQueueing number = false ∧
      (server.handle number request).2 = .ok { reply := .ok } ∨
    server.RunsQueue number request ∧
      ∃ index, .select index ∈ (server.scope number).connection.queue

/-- A request of a connection removes all keys of all databases: on its own, or
in the queue that it runs. -/
def FlushesAll (server : Server) (number : Nat) (request : Request) : Prop :=
  request.name = CommandName.flushAll.text ∧ server.isQueueing number = false ∨
    server.RunsQueue number request ∧ .flushAll ∈ (server.scope number).connection.queue

/-- A request that names keys works on these keys in a database: it tells of them,
and changes nothing else. -/
structure WorksOn (server : Server) (number index : Nat) (request : Request) : Prop where
  /-- There is a reply. -/
  answered : ∃ reply, (server.handle number request).2 = .ok { reply }
  /-- Where a connection has the same under these keys in its own database, the reply is the same,
  and so is what is there then. -/
  read : ∀ (other : Server) (otherNumber : Nat), other.IsReached →
    other.isQueueing otherNumber = false →
    let place := (other.scope otherNumber).connection.selected
    (∀ key ∈ request.keys, other.contentAt (place, key) = server.contentAt (index, key)) →
    (other.handle otherNumber request).2 = (server.handle number request).2 ∧
      ∀ key ∈ request.keys, (other.handle otherNumber request).1.contentAt (place, key) =
        (server.handle number request).1.contentAt (index, key)
  /-- What changes is under one of these keys in the database. -/
  written : ∀ name, valueAt (server.handle number request).1.databases name ≠
      valueAt server.databases name → name.1 = index ∧ name.2 ∈ request.keys

/-- A connection works in a database, whatever it asks for next. -/
structure WorksIn (server : Server) (number index : Nat) : Prop where
  selected : (server.scope number).connection.selected = index
  /-- Outside a transaction a request works on the keys that it names there. -/
  direct : ∀ request : Request, server.isQueueing number = false → request.keys ≠ [] →
    server.WorksOn number index request
  /-- Outside a transaction keys are watched there. -/
  watching : ∀ request : Request, server.isQueueing number = false →
    request.name = CommandName.watch.text → request.keys ≠ [] → ∀ name,
      (((server.handle number request).1.watchedBy number).contains name = true ↔
        (server.watchedBy number).contains name = true ∨
          name.1 = index ∧ name.2 ∈ request.keys)
  /-- A queued action works there when the queue runs, up to the first one that selects. -/
  queued : ∀ done action rest,
    (server.scope number).connection.queue = done ++ action :: rest →
    (∀ other, .select other ∉ done) →
    ∃ between replies, (server.scope number).startQueue.runAll done = (between, .ok replies) ∧
      action.WorksIn index between
  /-- Every value of another database is kept, unless all databases are flushed
  or another one is selected. -/
  elsewhere : ∀ request : Request, ¬ server.Selects number request →
    ¬ server.FlushesAll number request → ∀ name : KeyName, name.1 ≠ index →
      valueAt (server.handle number request).1.databases name = valueAt server.databases name

/-- A connection stays open through an event, and does not succeed in selecting a database. -/
def KeepsSelection (server : Server) (number : Nat) : Event → Prop
  | .request other request => other = number → ¬ server.Selects number request
  | .close other => other ≠ number
  | _ => True

/-- A connection stays open through events in turn, and does not succeed in selecting a database. -/
def KeepsSelectionAll (number : Nat) (server : Server) : List Event → Prop
  | [] => True
  | event :: rest =>
    server.KeepsSelection number event ∧ (server.after event).KeepsSelectionAll number rest

/-- What comes of asking to select one of so many databases outside a transaction. -/
structure SelectsAmong (server : Server) (number : Nat) (request : Request) (count : Nat) :
    Prop where
  /-- The request succeeds exactly with the index of a database, as long as it is not
  too great for any selection. -/
  accepted : (server.handle number request).2 = .ok { reply := .ok } ↔
    ∃ index, request.NamesDatabase count index ∧ index ≤ maxDatabaseIndex
  /-- From then on the connection works in this database, until it is closed or
  succeeds in selecting again. -/
  works : ∀ index, request.NamesDatabase count index → index ≤ maxDatabaseIndex →
    ∀ later, (server.after (.request number request)).KeepsSelectionAll number later →
      ((server.after (.request number request)).run later).WorksIn number index
  /-- Otherwise there is an error, and the selection stays. -/
  refused : (server.handle number request).2 ≠ .ok { reply := .ok } →
    (∃ text, (server.handle number request).2 = .ok { reply := .error text }) ∧
      ((server.handle number request).1.scope number).connection.selected =
        (server.scope number).connection.selected

variable {server : Server} {number index : Nat} {request : Request}

/-- The command of a request that is read as an instruction is known. -/
theorem exists_command {instruction : Instruction} {site : Site}
    (read : request.instruction site = .ok instruction) :
    ∃ name, CommandName.ofLowercase? request.name = some name := by
  cases known : CommandName.ofLowercase? request.name with
  | some name => exact ⟨name, rfl⟩
  -- An unknown name is refused.
  | none =>
    rw [Request.instruction, known] at read
    cases read

/-- What a request is read as when it runs the queue. -/
theorem runsQueue_of_execute (read : request.instruction server.site = .ok .execute)
    (queueing : (server.scope number).connection.queueing = true)
    (clean : (server.scope number).connection.dirty = false)
    (unmodified : (server.scope number).watchedModified = false) :
    server.RunsQueue number request := by
  have asked := Request.instruction_comes server.site request
  rw [read] at asked
  exact ⟨asked.1, asked.2, queueing, clean, unmodified⟩

/-- Only a request that succeeds in selecting runs a selection. -/
theorem selects_of_runs (runs : (server.scope number).Runs (request.instruction server.site)
    (.select index)) : server.Selects number request := by
  rcases runs with ⟨read, outside⟩ | ⟨read, queueing, clean, unmodified, inside⟩
  · -- Only one command is read as a selection, which always succeeds when it runs.
    obtain ⟨name, known⟩ := exists_command read
    have works := Request.instruction_worksOn known _ read
    obtain rfl := works.2.1 index rfl
    refine Or.inl ⟨Request.name_eq_text known, outside, ?_⟩
    rw [handle_of_run outside read rfl]
  · exact Or.inr ⟨runsQueue_of_execute read queueing clean unmodified, index, inside⟩

/-- Only a request that flushes all databases runs such a flush. -/
theorem flushesAll_of_runs (runs : (server.scope number).Runs (request.instruction server.site)
    .flushAll) : server.FlushesAll number request := by
  rcases runs with ⟨read, outside⟩ | ⟨read, queueing, clean, unmodified, inside⟩
  · -- As with a selection, by the one command that is read so.
    obtain ⟨name, known⟩ := exists_command read
    have works := Request.instruction_worksOn known _ read
    obtain rfl := works.2.2 rfl
    exact Or.inl ⟨Request.name_eq_text known, outside⟩
  · exact Or.inr ⟨runsQueue_of_execute read queueing clean unmodified, inside⟩

/-- A connection keeps its selection through an event if it does not select. -/
theorem Fits.selected_after (fits : server.Fits) {event : Event}
    (keeps : server.KeepsSelection number event) :
    ((server.after event).scope number).connection.selected =
      (server.scope number).connection.selected := by
  cases event with
  | request other request =>
    by_cases same : other = number
    · -- An own request that runs a selection succeeds in it.
      subst same
      rw [connection_request]
      exact Scope.selected_handle (fits.connections other) fun index runs =>
        keeps rfl (selects_of_runs runs)
    · rw [Server.after, handle_eq, connection_withScope same]
  | connect other =>
    -- Connecting leaves the selection of a number that is open.
    simp only [Server.after, Server.connect]
    split
    · rfl
    · next absent =>
      -- A connection that is opened was seen as a new one before.
      have fresh := Table.contains_eq_false_iff.mp (Bool.not_eq_true _ ▸ absent)
      by_cases same : other = number
      · subst same
        simp [scope, fresh]
      · simp [scope, same]
  | close other =>
    have different : other ≠ number := keeps
    simp only [Server.after, Server.close]
    -- Another connection closes.
    split
    · simp [scope, different]
    · rfl
  | bind | received | command | sent => rfl

theorem Fits.selected_run (fits : server.Fits) {events : List Event}
    (keeps : server.KeepsSelectionAll number events) :
    ((server.run events).scope number).connection.selected =
      (server.scope number).connection.selected := by
  -- Each event keeps the selection, and leaves a server that fits.
  induction events generalizing server with
  | nil => rfl
  | cons event rest ih =>
    exact (ih (fits.after event) keeps.2).trans (fits.selected_after keeps.1)

namespace IsReached

variable (reached : server.IsReached)
include reached

/-- What happens next leads to a server that is reached as well. -/
theorem run (events : List Event) : (server.run events).IsReached := by
  obtain ⟨databaseCount, endpoint, earlier, rfl⟩ := reached
  -- One run after another is one run.
  refine ⟨databaseCount, endpoint, earlier ++ events, ?_⟩
  rw [Server.run, Server.run, Server.run, List.foldl_append]

theorem inOrder (number : Nat) : (server.scope number).InOrder := by
  -- The selected database is one of those that are there.
  have within := (reached.fits.connections number).selected
  have found := List.getElem?_eq_getElem within
  exact ⟨_, found, reached.proper found⟩

/-- In every run all queued actions are orderly. -/
theorem queueIsOrderly (number : Nat) : (server.scope number).QueueIsOrderly := by
  obtain ⟨databaseCount, endpoint, events, rfl⟩ := reached
  have fits := fits_start databaseCount endpoint
  have empty : ((start databaseCount endpoint).scope number).QueueIsOrderly :=
    fun _ inside => absurd inside List.not_mem_nil
  -- Nothing is queued at first, and by induction only orderly actions are from there on.
  generalize start databaseCount endpoint = server at fits empty ⊢
  induction events generalizing server with
  | nil => exact empty
  | cons event rest ih =>
    refine ih (server.after event) (fits.after event) ?_
    by_cases own : ∃ request, event = .request number request
    · obtain ⟨request, rfl⟩ := own
      -- What is queued was read from a request.
      have orderly := empty.handle (fits.connections number)
        (request.instruction server.site) fun action read => by
          obtain ⟨name, known⟩ := exists_command read
          exact (Request.instruction_yields known _ read).orderly
      unfold Scope.QueueIsOrderly at orderly ⊢
      rwa [connection_request]
    · -- No other event queues anything, and what is opened or closed has an empty queue.
      have others : ∀ request, event ≠ .request number request :=
        fun request same => own ⟨request, same⟩
      unfold Scope.QueueIsOrderly at empty ⊢
      rcases connection_after others with same | fresh
      · rwa [same]
      · rw [fresh]
        exact fun _ inside => absurd inside List.not_mem_nil

end IsReached

/-- What a request that is refused outside a transaction comes to. -/
theorem handle_of_refusal {refusal : Refusal}
    (read : request.instruction server.site = .error (.refusal refusal)) :
    server.handle number request =
      (server.withScope number (server.scope number).markDirty,
        .ok { reply := refusal.reply }) := by
  rw [handle_eq, read]
  rfl

/-- What a request that watches keys outside a transaction comes to. -/
theorem handle_of_watch (reached : server.IsReached) {keys : List Bytes}
    (outside : server.isQueueing number = false)
    (read : request.instruction server.site = .ok (.watch keys)) :
    server.handle number request =
      (server.withScope number (keys.foldl Scope.watch (server.scope number)),
        .ok { reply := .ok }) := by
  obtain ⟨database, found, _⟩ := reached.inOrder number
  have notQueueing : (server.scope number).connection.queueing = false := outside
  rw [handle_eq, read]
  simp only [Scope.handle, Scope.follow, Scope.watchAll, notQueueing, found, Bool.false_eq_true,
    if_false]
  rfl

/-- Watching keys touches no value. -/
theorem valueAt_watchAll (keys : List Bytes) (scope : Scope) :
    valueAt (keys.foldl Scope.watch scope).databases = valueAt scope.databases := by
  funext name
  -- At each index the database keeps its values, and at most counts one more watcher.
  apply Indexwise.valueAt_kept (Scope.keepsAllData_watchAll keys scope)
  intro old new same
  rw [Database.get?, same.values, Database.get?]

/-- A request that is refused works on its keys, since it is refused everywhere. -/
theorem WorksOn.of_refusal {refusal : Refusal} {index : Nat}
    (read : request.instruction server.site = .error (.refusal refusal))
    (everywhere : ∀ other : Server,
      request.instruction other.site = request.instruction server.site) :
    server.WorksOn number index request where
  answered := ⟨_, by rw [handle_of_refusal read]⟩
  read := by
    intro other otherNumber _ _ place same
    -- A refusal does not look at databases at all.
    rw [handle_of_refusal read, handle_of_refusal ((everywhere other).trans read)]
    exact ⟨rfl, same⟩
  written := by
    intro name changed
    rw [handle_of_refusal read] at changed
    exact absurd rfl changed

/-- A request that watches keys has one reply, and touches no value. -/
theorem WorksOn.of_watch (reached : server.IsReached) (outside : server.isQueueing number = false)
    {keys : List Bytes} {index : Nat}
    (read : request.instruction server.site = .ok (.watch keys))
    (everywhere : ∀ other : Server,
      request.instruction other.site = request.instruction server.site) :
    server.WorksOn number index request where
  answered := ⟨_, by rw [handle_of_watch reached outside read]⟩
  read := by
    intro other otherNumber otherReached otherOutside place same
    -- Watching tells nothing and changes no value, on either server.
    rw [handle_of_watch reached outside read,
      handle_of_watch otherReached otherOutside ((everywhere other).trans read)]
    refine ⟨rfl, ?_⟩
    intro key inside
    have before := same key inside
    unfold contentAt at before ⊢
    show (valueAt (keys.foldl Scope.watch (other.scope otherNumber)).databases _).map _ =
      (valueAt (keys.foldl Scope.watch (server.scope number)).databases _).map _
    rw [valueAt_watchAll, valueAt_watchAll]
    exact before
  written := by
    intro name changed
    rw [handle_of_watch reached outside read] at changed
    exact absurd (congrFun (valueAt_watchAll keys (server.scope number)) name) changed

/-- A request whose action runs at once works on the keys that the action names. -/
theorem WorksOn.of_action (reached : server.IsReached) (outside : server.isQueueing number = false)
    {action : Action} (read : request.instruction server.site = .ok (.act action))
    (names : action.keys = request.keys) (keyed : action.keys ≠ []) (orderly : action.IsOrderly)
    (everywhere : ∀ other : Server,
      request.instruction other.site = request.instruction server.site) :
    server.WorksOn number (server.scope number).connection.selected request := by
  -- An action with keys selects nothing.
  have stays : ∀ index, action ≠ .select index := by
    rintro index rfl
    exact keyed rfl
  have worksIn := action.worksIn (reached.inOrder number) orderly
  obtain ⟨reply, after, ran⟩ := worksIn.answered
  have handled := handle_of_run outside read ran
  refine ⟨⟨reply, by rw [handled]⟩, ?_, ?_⟩
  · -- The other run starts with the same under the keys, and ends so.
    intro other otherNumber otherReached otherOutside place same
    obtain ⟨told, left, right, ranHere, ranThere, contents⟩ := worksIn.read keyed
      (other.scope otherNumber) (otherReached.inOrder otherNumber)
      fun key inside => same key (names ▸ inside)
    rw [handle_of_run outside read ranHere,
      handle_of_run otherOutside ((everywhere other).trans read) ranThere]
    refine ⟨rfl, ?_⟩
    intro key inside
    have equal := contents key (names.symm ▸ inside)
    unfold Scope.contentAt at equal
    rw [Action.selected_run ranHere stays, Action.selected_run ranThere stays] at equal
    exact equal
  · -- Only a flush of all databases writes anywhere else, and it names no keys.
    intro name changed
    rw [handled] at changed
    have flushes : action ≠ .flushAll := by
      rintro rfl
      exact keyed rfl
    obtain ⟨own, inside⟩ := worksIn.written reply after ran flushes name changed
    exact ⟨own, names ▸ inside keyed⟩

/-- Outside a transaction a request that names keys works on these keys in the selected database. -/
theorem IsReached.worksOn (reached : server.IsReached) (outside : server.isQueueing number = false)
    (keyed : request.keys ≠ []) :
    server.WorksOn number (server.scope number).connection.selected request := by
  have asked := Request.instruction_comes server.site request
  -- What a request with keys is read as does not depend on the server.
  have everywhere (other : Server) :
      request.instruction other.site = request.instruction server.site :=
    Request.instruction_site_of_keys keyed other.site server.site
  cases read : request.instruction server.site with
  | error obstacle =>
    cases obstacle with
    | fault fault =>
      rw [read] at asked
      exact asked.elim
    -- A refusal that does not depend on the server is told by both.
    | refusal refusal => exact .of_refusal read everywhere
  | ok instruction =>
    obtain ⟨name, known⟩ := exists_command read
    have works := Request.instruction_worksOn known _ read
    cases instruction with
    | beginTransaction | execute | discard | quit =>
      -- These name no keys.
      exact absurd works keyed
    | watch keys => exact .of_watch reached outside read everywhere
    | act action =>
      have orderly := (Request.instruction_yields known _ read).orderly
      exact .of_action reached outside read works.1 (works.1.symm ▸ keyed) orderly everywhere

/-- The beginning of a queue leaves databases with proper values, and one of them selected. -/
theorem IsReached.inOrder_between (reached : server.IsReached) {done rest : List Action}
    (queued : (server.scope number).connection.queue = done ++ rest) :
    ∃ between replies, (server.scope number).startQueue.runAll done = (between, .ok replies) ∧
      between.InOrder := by
  obtain ⟨journal, sound⟩ : ∃ journal, server.Sound journal := by
    obtain ⟨databaseCount, endpoint, events, rfl⟩ := reached
    exact ⟨_, (sound_start databaseCount endpoint).run events⟩
  -- Every queue runs, and what it does to the databases is what moves do.
  obtain ⟨between, replies, ran, _, within, _⟩ := queue_runs reached.fits sound queued
  have moves : Scope.Moves number _ _ _ :=
    Scope.Moves.runAll done (server.scope number).startQueue
  rw [ran] at moves
  have tallied : (server.scope number).startQueue.Tallied (server.otherHolders number) :=
    sound.scope number
  have found := List.getElem?_eq_getElem within
  exact ⟨between, replies, ran, _, found, (tallied.moves moves _ _ found).proper⟩

/-- In every run a connection works in the database that it has selected. -/
theorem IsReached.worksIn (reached : server.IsReached) (number : Nat) :
    server.WorksIn number (server.scope number).connection.selected where
  selected := rfl
  direct := fun request outside keyed => reached.worksOn outside keyed
  watching := by
    intro request outside named keyed name
    -- All arguments are keys, and each of them is watched in the selected database.
    have known : CommandName.ofLowercase? request.name = some .watch :=
      named ▸ CommandName.ofLowercase?_text .watch
    have keys := Request.keys_eq_arguments known (by decide)
    obtain ⟨database, found, _⟩ := reached.inOrder number
    have handled := handle_of_watch reached outside
      (Request.instruction_watch named (keys ▸ keyed) server.site)
    rw [watchedBy, handled, scope_withScope, keys]
    -- The keys are watched from the first one to the last.
    exact Scope.contains_watchAll request.arguments found
  queued := by
    intro done action rest queue others
    obtain ⟨between, replies, ran, inOrder⟩ := reached.inOrder_between queue
    have orderly := reached.queueIsOrderly number action (by rw [queue]; simp)
    -- The actions before it select nothing, so that it starts in the same database.
    have kept := Scope.selected_runAll ran others
    have selected : between.connection.selected = (server.scope number).connection.selected := kept
    exact ⟨between, replies, ran, selected ▸ action.worksIn inOrder orderly⟩
  elsewhere := by
    intro request noSelection keeps name other
    rw [handle_eq]
    exact Scope.valueAt_handle (fun index runs => noSelection (selects_of_runs runs))
      (fun runs => keeps (flushesAll_of_runs runs)) other

/-- An error is not the reply to a request that succeeded. -/
theorem error_ne_ok (refusal : Refusal) :
    (Except.ok { reply := refusal.reply } : Except Fault Answer) ≠ .ok { reply := .ok } := by
  -- An error is no status.
  intro same
  cases congrArg Answer.reply (Except.ok.inj same)

/-- In every run a connection outside a transaction can select each database up to a greatest index,
and works there from then on. -/
theorem select_selectsAmong {databaseCount : Nat} (some : 1 ≤ databaseCount) (endpoint : Endpoint)
    (events : List Event) (reached : (start databaseCount endpoint).run events = server)
    (named : request.name = CommandName.select.text) (outside : server.isQueueing number = false) :
    server.SelectsAmong number request databaseCount := by
  have isReached : server.IsReached := ⟨databaseCount, endpoint, events, reached⟩
  -- There are as many databases as at the start, and there is one at least.
  have length : server.site.databaseCount = databaseCount := by
    rw [← reached]
    refine (length_run _ events).trans (List.length_replicate.trans ?_)
    omega
  by_cases names : ∃ index, request.NamesDatabase databaseCount index ∧ index ≤ maxDatabaseIndex
  · -- The index is selected, and the selection stays.
    have handled {index : Nat} (named' : request.NamesDatabase databaseCount index)
        (small : index ≤ maxDatabaseIndex) :=
      handle_of_run outside
        (Request.instruction_select_of_names named (length ▸ named') small) rfl
    obtain ⟨first, namesFirst, small⟩ := names
    have accepted := handled namesFirst small
    refine ⟨iff_of_true (by rw [accepted]) ⟨first, namesFirst, small⟩, ?_, ?_⟩
    · intro index namesIndex fits later keeps
      have next : (server.after (.request number request)).IsReached :=
        isReached.handle number request
      have selected : ((server.after (.request number request)).scope number).connection.selected =
          index := by
        rw [after, handled namesIndex fits, scope_withScope]
      rw [← selected, ← next.fits.selected_run keeps]
      exact (next.run later).worksIn number
    · intro refused
      exact absurd (by rw [accepted]) refused
  · -- The request is refused, which changes nothing but what becomes of a transaction.
    obtain ⟨refusal, read⟩ := Request.instruction_select_refused server.site named
      fun index namesIndex => Nat.lt_of_not_le fun small =>
        names ⟨index, length ▸ namesIndex, small⟩
    have handled : server.handle number request = _ := handle_of_refusal read
    refine ⟨iff_of_false ?_ names, ?_, fun _ => ⟨⟨refusal.message, ?_⟩, ?_⟩⟩
    · -- The reply is an error, and only a status tells of a selection.
      rw [handled]
      exact error_ne_ok refusal
    · intro index namesIndex small
      exact absurd ⟨index, namesIndex, small⟩ names
    · rw [handled]
      rfl
    · rw [handled, scope_withScope]
      rfl

/-- Other connections and other commands do not change what a connection has selected. -/
theorem select_selectsAmong_three :
    let server := (start 3 ⟨"localhost", 6379⟩).run [.connect 1, .connect 2]
    let request : Request := ⟨Text.bytes "SELECT", [Text.bytes "2"]⟩
    let later : List Event := [.request 1 ⟨Text.bytes "SET", [Text.bytes "k", Text.bytes "v"]⟩,
      .request 2 ⟨Text.bytes "SELECT", [Text.bytes "1"]⟩]
    server.SelectsAmong 1 request 3 ∧
      ((server.after (.request 1 request)).run later).WorksIn 1 2 := by
  intro server request later
  have named : request.name = CommandName.select.text := by decide +kernel
  have among : server.SelectsAmong 1 request 3 :=
    select_selectsAmong (by decide) ⟨"localhost", 6379⟩ [.connect 1, .connect 2] rfl named
      (by decide +kernel)
  have names : request.NamesDatabase 3 2 :=
    ⟨Text.bytes "2", rfl, by decide +kernel, by decide⟩
  -- Of the later events, one is a write and one a selection of another connection.
  refine ⟨among, among.works 2 names (by decide) later ⟨?_, ?_, trivial⟩⟩
  · -- The next request of the connection is neither a selection nor the end of a transaction.
    rintro - (⟨select, _⟩ | ⟨⟨exec, _⟩, _⟩)
    · exact absurd select (by decide +kernel)
    · exact absurd exec (by decide +kernel)
  · -- The selection that follows is one of another connection.
    exact fun same => absurd same (by decide)

/-- Not every database can be selected: beyond the greatest index there is one that is refused. -/
theorem not_select_every : ¬ ∀ (databaseCount : Nat) (endpoint : Endpoint) (events : List Event)
    (number : Nat) (request : Request), 1 ≤ databaseCount →
    request.name = CommandName.select.text →
    ((start databaseCount endpoint).run events).isQueueing number = false →
    ((((start databaseCount endpoint).run events).handle number request).2 =
        .ok { reply := .ok } ↔ ∃ index, request.NamesDatabase databaseCount index) := by
  intro every
  let server := (start 65537 ⟨"localhost", 6379⟩).run []
  let request : Request := ⟨Text.bytes "SELECT", [Text.bytes "65536"]⟩
  have named : request.name = CommandName.select.text := by decide +kernel
  have value : Decimal.signed64? (Text.bytes "65536") = some ((65536 : Nat) : Int) := by
    decide +kernel
  -- With one database more than there are indices, the last one would be selected.
  have accepted : (server.handle 1 request).2 = .ok { reply := .ok } :=
    (every 65537 ⟨"localhost", 6379⟩ [] 1 request (by decide) named rfl).mpr
      ⟨65536, Text.bytes "65536", rfl, value, by decide⟩
  -- There is only one index that the request names, and it is beyond the greatest.
  obtain ⟨refusal, read⟩ := Request.instruction_select_refused server.site named
    fun index names => by
      obtain ⟨word, arguments, told, _⟩ := names
      obtain rfl : Text.bytes "65536" = word := (List.cons.inj arguments).1
      have same := Int.ofNat.inj (Option.some.inj (value.symm.trans told))
      rw [← same]
      decide
  have handled : server.handle 1 request = _ := handle_of_refusal read
  rw [handled] at accepted
  exact error_ne_ok refusal accepted

end Server
end ScoreStore
