import ScoreStore.Bytes

/-! Journals: what happened to keys that connections watch, in the order in which it happened. -/

namespace ScoreStore

/-- A key with the index of its database. -/
abbrev KeyName := Nat × Bytes

/-- Something that happened. -/
inductive Note where
  /-- A key was written. -/
  | wrote (name : KeyName)
  /-- A connection was asked to watch a key. -/
  | watched (number : Nat) (name : KeyName)
  /-- A connection released all its watched keys. -/
  | released (number : Nat)
deriving DecidableEq

/-- What happened so far, oldest first. -/
abbrev Journal := List Note

namespace Journal

variable {journal : Journal} {number : Nat} {name : KeyName}

/-- A connection has watched a key and has not released it since. -/
def Watching (journal : Journal) (number : Nat) (name : KeyName) : Prop :=
  ∃ earlier later, journal = earlier ++ .watched number name :: later ∧ .released number ∉ later

/-- A key was written after a connection watched it, which has not released it since. -/
def Overwritten (journal : Journal) (number : Nat) (name : KeyName) : Prop :=
  ∃ earlier later, journal = earlier ++ .watched number name :: later ∧
    .released number ∉ later ∧ .wrote name ∈ later

/-- Only a watched key counts as written in the meantime. -/
theorem Overwritten.watching (overwritten : journal.Overwritten number name) :
    journal.Watching number name := by
  obtain ⟨earlier, later, split, unreleased, _⟩ := overwritten
  exact ⟨earlier, later, split, unreleased⟩

/-- Nothing is watched before anything happened. -/
theorem not_watching_nil : ¬ Watching [] number name := by
  rintro ⟨earlier, later, split, _⟩
  simp at split

/-- A note at the end of a journal is the chosen one, or one of the notes after it. -/
theorem split_snoc {note chosen : Note} {earlier later : Journal} :
    journal ++ [note] = earlier ++ chosen :: later ↔
      (journal = earlier ∧ note = chosen ∧ later = []) ∨
        ∃ before, later = before ++ [note] ∧ journal = earlier ++ chosen :: before := by
  constructor
  · intro split
    -- The rest after the chosen note is empty, or ends with the last note of all.
    rcases List.eq_nil_or_concat later with none | ⟨before, last, shape⟩
    · subst none
      have ends := List.append_inj' split rfl
      exact Or.inl ⟨ends.1, by simpa using ends.2, rfl⟩
    · subst shape
      rw [List.concat_eq_append, ← List.cons_append, ← List.append_assoc] at split
      have ends := List.append_inj' split rfl
      have same : note = last := by simpa using ends.2
      exact Or.inr ⟨before, by simp [same], ends.1⟩
  · rintro (⟨rfl, rfl, rfl⟩ | ⟨before, rfl, rfl⟩) <;> simp

/-- One more note starts the watch of a key, ends all watches of a connection,
or leaves them as they are. -/
theorem watching_snoc {note : Note} : Watching (journal ++ [note]) number name ↔
    note = .watched number name ∨ (journal.Watching number name ∧ note ≠ .released number) := by
  -- The watch that is still on began with the last note, or went on through it.
  constructor
  · rintro ⟨earlier, later, split, unreleased⟩
    rcases split_snoc.mp split with ⟨_, same, _⟩ | ⟨before, rfl, rfl⟩
    · exact Or.inl same
    · simp only [List.mem_append, List.mem_singleton, not_or] at unreleased
      exact Or.inr ⟨⟨earlier, before, rfl, unreleased.1⟩, Ne.symm unreleased.2⟩
  · -- A watch that has just begun has nothing behind it.
    rintro (rfl | ⟨⟨earlier, later, rfl, unreleased⟩, other⟩)
    · exact ⟨journal, [], rfl, List.not_mem_nil⟩
    · exact ⟨earlier, later ++ [note], by simp, by simp [unreleased, Ne.symm other]⟩

/-- A watched key counts as written from the note of a write until its release. -/
theorem overwritten_snoc {note : Note} : Overwritten (journal ++ [note]) number name ↔
    (journal.Overwritten number name ∧ note ≠ .released number) ∨
      (journal.Watching number name ∧ note = .wrote name) := by
  -- The write came before the last note, or is the last note.
  constructor
  · rintro ⟨earlier, later, split, unreleased, written⟩
    rcases split_snoc.mp split with ⟨_, _, rfl⟩ | ⟨before, rfl, rfl⟩
    · -- Nothing was written since a watch that has only begun.
      exact absurd written List.not_mem_nil
    · simp only [List.mem_append, List.mem_singleton, not_or] at unreleased written
      rcases written with earlierWrite | lastWrite
      · exact Or.inl ⟨⟨earlier, before, rfl, unreleased.1, earlierWrite⟩, Ne.symm unreleased.2⟩
      · exact Or.inr ⟨⟨earlier, before, rfl, unreleased.1⟩, lastWrite.symm⟩
  · rintro (⟨⟨earlier, later, rfl, unreleased, written⟩, other⟩ |
      -- The last note is no release, or it is the write itself.
      ⟨⟨earlier, later, rfl, unreleased⟩, rfl⟩)
    · refine ⟨earlier, later ++ [note], by simp, ?_, by simp [written]⟩
      simp [unreleased, Ne.symm other]
    · exact ⟨earlier, later ++ [.wrote name], by simp, by simp [unreleased], by simp⟩

/-- Writes neither start nor end watches. -/
theorem watching_append_wrote {names : List KeyName} :
    Watching (journal ++ names.map .wrote) number name ↔ journal.Watching number name := by
  -- The notes are appended one at a time.
  induction names generalizing journal with
  | nil => simp
  | cons first rest ih =>
    rw [List.map_cons, List.append_cons, ih, watching_snoc]
    simp

/-- Writes overwrite the written keys that are watched. -/
theorem overwritten_append_wrote {names : List KeyName} :
    Overwritten (journal ++ names.map .wrote) number name ↔
      journal.Overwritten number name ∨ (journal.Watching number name ∧ name ∈ names) := by
  -- No note of a write ends a watch, so each one finds the watches of the start.
  induction names generalizing journal with
  | nil => simp
  | cons first rest ih =>
    rw [List.map_cons, List.append_cons, ih, watching_snoc, overwritten_snoc]
    simp only [ne_eq, reduceCtorEq, not_false_eq_true, and_true, false_or, Note.wrote.injEq,
      List.mem_cons, eq_comm]
    rw [or_assoc, ← and_or_left]

end Journal
end ScoreStore
