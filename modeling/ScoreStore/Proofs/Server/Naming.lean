import ScoreStore.Proofs.Server.Selected
import ScoreStore.Proofs.Text.Lowercase
import ScoreStore.Proofs.Text.Utf8

/-! Names of commands: which words are resolved as a name, by the keys of the table and by the
identifiers in any case of the letters, and which requests reach a command. -/

namespace ScoreStore

namespace CommandName

/-- A reader of texts goes by the identifiers of the names in any case of the letters A to Z. -/
def ReadsIdentifiers (read? : String → Option CommandName) : Prop :=
  ∀ text name, read? text = some name ↔
    text.toList.map Char.toLower = name.identifier.toList.map Char.toLower

/-- The word is the key of the name in some case of the letters A to Z. -/
def IsSpelledBy (name : CommandName) (word : Bytes) : Prop :=
  ∃ text : String, word = Text.bytes text ∧ text.toList.map Char.toLower = name.text.toList

/-- The word is the key of the name in some case of the letters A to Z, with signs for kelvins in
place of letters k. -/
def IsSpelledWithKelvins (name : CommandName) (word : Bytes) : Prop :=
  ∃ text : String, word = Text.bytes text ∧ Text.kelvinSign ∈ text.toList ∧
    text.toList.map Text.plainLower = name.text.toList

variable {name : CommandName} {word : Bytes} {text : String} {read? : String → Option CommandName}

theorem isPlain_text (name : CommandName) : Text.IsPlain name.text.toList := by
  -- Checked for each of the names.
  cases name <;> decide +kernel

/-- A name has a letter k only if it is about ranks. -/
theorem eq_of_k_mem_text (member : 'k' ∈ name.text.toList) :
    name = .zrank ∨ name = .zrevrank ∨ name = .zremrangebyrank := by
  revert member
  cases name <;> decide +kernel

/-- The key of each name in the table is its identifier in lowercase letters. -/
theorem map_toLower_identifier (name : CommandName) :
    name.identifier.toList.map Char.toLower = name.text.toList := by
  cases name <;> decide +kernel

/-- What goes by the identifiers finds the name whose key is the text in lowercase letters. -/
theorem ReadsIdentifiers.eq_ofLowercase? (reads : ReadsIdentifiers read?) (text : String) :
    read? text = ofLowercase? (String.ofList (text.toList.map Char.toLower)) := by
  -- Both sides find a name by its lowercase letters, which are those of the identifier.
  refine Option.ext fun name => ?_
  rw [reads, ofLowercase?_eq_some_iff, map_toLower_identifier]
  constructor
  · intro same
    rw [same, String.ofList_toList]
  · intro same
    rw [← same, String.toList_ofList]

theorem ReadsIdentifiers.eq_some_iff (reads : ReadsIdentifiers read?) :
    read? text = some name ↔ text.toList.map Char.toLower = name.text.toList := by
  rw [reads, map_toLower_identifier]

/-- Looking through all names in turn goes by their identifiers. -/
theorem readsIdentifiers_ofAnyCase? : ReadsIdentifiers ofAnyCase? := by
  intro text name
  -- No two names have the same key, so that the first one that fits is the only one.
  have found : ofAnyCase? text = ofLowercase? (String.ofList (text.toList.map Char.toLower)) := by
    refine congrArg (all.find? ·) (funext fun known => ?_)
    rw [Bool.eq_iff_iff, beq_iff_eq, beq_iff_eq, map_toLower_identifier, ← String.toList_inj,
      String.toList_ofList]
  rw [found, ofLowercase?_eq_some_iff, map_toLower_identifier, ← String.toList_inj,
    String.toList_ofList, eq_comm]

/-- A text that becomes a name has no replacement character. -/
theorem replacement_not_mem (same : text.toList.map Text.plainLower = name.text.toList) :
    Text.replacement ∉ text.toList := by
  intro lost
  -- All lowered characters are ASCII, and only few characters are lowered to such.
  have plain : Text.IsPlain (text.toList.map Text.plainLower) := same ▸ isPlain_text name
  have nearly := Text.nearlyPlain_of_map plain
  rcases nearly _ lost with small | sign
  · exact absurd small (by decide)
  · exact absurd sign (by decide)

/-- A text in some case of the letters has no sign for kelvins. -/
theorem kelvinSign_not_mem (same : text.toList.map Char.toLower = name.text.toList) :
    Text.kelvinSign ∉ text.toList := by
  intro sign
  -- Lowering letters from A to Z leaves the sign, and a name has no such character.
  have plain := isPlain_text name Text.kelvinSign (same ▸ List.mem_map.mpr ⟨_, sign, rfl⟩)
  exact absurd plain.2 (by decide)

/-- The lowercase text of a word is a name exactly if the word is that name in some case, with or
without signs for kelvins. -/
theorem ofLowercase?_lowered_iff : ofLowercase? (Request.lowered word) = some name ↔
    name.IsSpelledBy word ∨ name.IsSpelledWithKelvins word := by
  -- The table is asked for a text, and it is the bytes that are to be told.
  rw [ofLowercase?_eq_some_iff, Request.lowered, Text.lower_eq_iff (isPlain_text name),
    Text.holds_ofBytes_iff (fun text => text.toList.map Text.plainLower = name.text.toList)
      fun _ same => replacement_not_mem same]
  constructor
  · rintro ⟨text, rfl, same⟩
    -- Without signs for kelvins a text is lowered as its letters from A to Z are.
    by_cases sign : Text.kelvinSign ∈ text.toList
    · exact Or.inr ⟨text, rfl, sign, same⟩
    · exact Or.inl ⟨text, rfl, (Text.map_plainLower sign).symm.trans same⟩
  · rintro (⟨text, rfl, same⟩ | ⟨text, rfl, _, same⟩)
    · exact ⟨text, rfl, (Text.map_plainLower (kelvinSign_not_mem same)).trans same⟩
    · exact ⟨text, rfl, same⟩

/-- What goes by the identifiers reads the text of a word as a name
exactly if the word spells it. -/
theorem ReadsIdentifiers.ofBytes_iff (reads : ReadsIdentifiers read?) :
    read? (Text.ofBytes word) = some name ↔ name.IsSpelledBy word := by
  rw [reads.eq_some_iff,
    Text.holds_ofBytes_iff fun text => text.toList.map Char.toLower = name.text.toList]
  · rfl
  · intro text same
    exact replacement_not_mem ((Text.map_plainLower (kelvinSign_not_mem same)).trans same)

/-- Only names about ranks can be spelled with signs for kelvins. -/
theorem IsSpelledWithKelvins.eq_ranks (spelled : name.IsSpelledWithKelvins word) :
    name = .zrank ∨ name = .zrevrank ∨ name = .zremrangebyrank := by
  obtain ⟨text, -, sign, same⟩ := spelled
  -- The sign is lowered to a k, and three of the names have one.
  exact eq_of_k_mem_text (same ▸ List.mem_map.mpr ⟨_, sign, rfl⟩)

/-- A word with signs for kelvins is no name in any case of the letters. -/
theorem IsSpelledWithKelvins.not_isSpelledBy {other : CommandName}
    (spelled : name.IsSpelledWithKelvins word) : ¬ other.IsSpelledBy word := by
  rintro ⟨text, rfl, same⟩
  obtain ⟨again, bytes, sign, -⟩ := spelled
  -- The bytes are those of one text only.
  have equal : text = again := by
    rw [← Text.ofBytes_bytes text, bytes, Text.ofBytes_bytes]
  exact kelvinSign_not_mem same (equal ▸ sign)

/-- Both ways to resolve a word agree unless it has signs for kelvins in place of letters k. -/
theorem ReadsIdentifiers.alike_iff (reads : ReadsIdentifiers read?) :
    ofLowercase? (Request.lowered word) = read? (Text.ofBytes word) ↔
      ∀ name : CommandName, ¬ name.IsSpelledWithKelvins word := by
  constructor
  · -- With such signs the word is found in the table alone.
    intro alike name spelled
    have found := ofLowercase?_lowered_iff.mpr (Or.inr spelled)
    exact spelled.not_isSpelledBy (reads.ofBytes_iff.mp (alike ▸ found))
  · -- Without such signs both find what is spelled by its letters.
    intro none
    refine Option.ext fun name => ?_
    rw [ofLowercase?_lowered_iff, reads.ofBytes_iff]
    exact or_iff_left (none name)

end CommandName

/-- The request goes to the handler of a command, unless that command
does not take so many words. -/
def Request.GoesTo (request : Request) (site : Site) (name : CommandName) : Prop :=
  request.instruction site =
    if name.entry.accepts request.words.length then name.group.instruction site request
    else .error (.refusal (.wrongCount name.text))

namespace Request

variable {request : Request} {site : Site}

/-- A request whose name is unknown to all groups is refused by each of
them, but never as unknown. -/
theorem instruction_ne_unknown (unknown : CommandName.ofLowercase? request.name = none)
    (group : CommandGroup) {text : String} :
    group.instruction site request ≠ .error (.refusal (.unknownCommand text)) := by
  intro refused
  unfold CommandGroup.instruction at refused
  rw [unknown] at refused
  cases group with
  | cluster =>
    -- The cluster group takes any name, and has words of its own for what it refuses.
    simp only [clusterInstruction] at refused
    repeat' split at refused
    all_goals cases refused
  | _ => cases refused

/-- A request goes to the handler of some command exactly if its name is found in the table. -/
theorem exists_goesTo_iff :
    (∃ name, request.GoesTo site name) ↔
      ∃ name, CommandName.ofLowercase? request.name = some name := by
  constructor
  · -- A handler never answers as the dispatch answers an unknown name.
    rintro ⟨name, goes⟩
    refine Option.ne_none_iff_exists'.mp fun unknown => ?_
    have refused : request.instruction site =
        .error (.refusal (.unknownCommand request.name)) := by
      rw [instruction, unknown]
    rw [GoesTo, refused] at goes
    by_cases taken : name.entry.accepts request.words.length
    · rw [if_pos taken] at goes
      exact instruction_ne_unknown unknown _ goes.symm
    · rw [if_neg taken] at goes
      cases goes
  · rintro ⟨name, known⟩
    refine ⟨name, ?_⟩
    -- The dispatch asks the table first, and then counts the words.
    rw [GoesTo, instruction, known]

end Request

namespace CommandName

/-- How a word is resolved as the name of a command, by the table and by a reader of texts, and what
becomes of requests that begin with it. -/
structure Resolution (read? : String → Option CommandName) (word : Bytes) : Prop where
  /-- The table knows the word for a name that it spells in some case of the letters, and also with
  signs for kelvins. -/
  byTable : ∀ name, ofLowercase? (Request.lowered word) = some name ↔
    name.IsSpelledBy word ∨ name.IsSpelledWithKelvins word
  /-- The reader takes the word for a name that it spells in some case of the letters only. -/
  byLetters : ∀ name, read? (Text.ofBytes word) = some name ↔ name.IsSpelledBy word
  /-- Both ways agree, also on what is no name, unless there are signs for kelvins in a name. -/
  alike : ofLowercase? (Request.lowered word) = read? (Text.ofBytes word) ↔
    ∀ name : CommandName, ¬ name.IsSpelledWithKelvins word
  /-- Such a name is one about ranks. -/
  ranks : ∀ name : CommandName, name.IsSpelledWithKelvins word →
    name = .zrank ∨ name = .zrevrank ∨ name = .zremrangebyrank
  /-- On the text in lowercase both ways agree always. -/
  lowered : read? (Request.lowered word) = ofLowercase? (Request.lowered word)
  /-- A request goes to the handler of some command exactly if its first
  word is known in the table. -/
  handled : ∀ site arguments, (∃ name, (Request.mk word arguments).GoesTo site name) ↔
    ∃ name : CommandName, name.IsSpelledBy word ∨ name.IsSpelledWithKelvins word
  /-- Every other request is told that its command is unknown, and does
  nothing but spoil a transaction. -/
  unknown : (∀ name : CommandName, ¬ name.IsSpelledBy word ∧ ¬ name.IsSpelledWithKelvins word) →
    ∀ (server : Server) number arguments, server.handle number ⟨word, arguments⟩ =
      (server.withScope number (server.scope number).markDirty,
        .ok { reply := (Refusal.unknownCommand (Request.lowered word)).reply })

/-- Every word is resolved so: the keys of the table and the identifiers in any case of the letters
lead to the same command, but for signs for kelvins, which become letters k in lowercase. -/
theorem resolution (reads : ReadsIdentifiers read?) (word : Bytes) : Resolution read? word where
  byTable _ := ofLowercase?_lowered_iff
  byLetters _ := reads.ofBytes_iff
  alike := reads.alike_iff
  ranks _ spelled := spelled.eq_ranks
  lowered := by
    rw [reads.eq_ofLowercase?, Request.lowered, Text.map_toLower_lower, String.ofList_toList]
  handled site arguments := by
    -- Who handles a request is asked of the table alone.
    rw [Request.exists_goesTo_iff]
    exact exists_congr fun name => ofLowercase?_lowered_iff
  unknown foreign server number arguments := by
    refine Server.handle_of_refusal ?_
    -- What the table does not know is refused before any handler sees it.
    have none : ofLowercase? (Request.lowered word) = none := by
      refine Option.eq_none_iff_forall_ne_some.mpr fun name found => ?_
      exact (ofLowercase?_lowered_iff.mp found).elim (foreign name).1 (foreign name).2
    rw [Request.instruction, Request.name, none]

/-- A word with the sign for kelvins in its last place is resolved so by a search of the names. -/
theorem resolution_kelvin : ReadsIdentifiers ofAnyCase? ∧
    Resolution ofAnyCase? (Text.bytes "ZRAN\u212A") :=
  ⟨readsIdentifiers_ofAnyCase?, resolution readsIdentifiers_ofAnyCase? _⟩

/-- The table knows that word, but the identifiers in any case of the letters do not. -/
theorem not_resolved_alike : ¬ ∀ read? : String → Option CommandName, ReadsIdentifiers read? →
    ∀ word : Bytes, ofLowercase? (Request.lowered word) = read? (Text.ofBytes word) := by
  intro alike
  exact absurd (alike ofAnyCase? readsIdentifiers_ofAnyCase? (Text.bytes "ZRAN\u212A"))
    (by decide +kernel)

end CommandName

end ScoreStore
