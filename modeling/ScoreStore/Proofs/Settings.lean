import ScoreStore.Server
import ScoreStore.Settings.CommandLine

/-! The number of databases that is set: it is never zero, and a server that starts has as many. -/

namespace ScoreStore

variable {settings : Settings}

namespace Settings

/-- Settings in sections have a database. -/
theorem databases_ofSections {sections : List Section}
    (read : ofSections sections = .ok settings) : 0 < settings.databases := by
  -- The number is checked once it is read, and no later step changes it.
  unfold ofSections at read
  simp only [bind, Except.bind, pure, Except.pure] at read
  -- First the number of workers, then that of databases, and the level of the log at last.
  split at read
  · cases read
  · split at read
    · cases read
    · next number _ =>
      by_cases none : number = 0
      · rw [if_pos none] at read
        cases read
      · rw [if_neg none] at read
        split at read
        · cases read
        · obtain rfl := Except.ok.inj read
          exact Nat.pos_of_ne_zero none

/-- Settings in the text of a file have a database. -/
theorem databases_ofText {text : String} (read : ofText text = .ok settings) :
    0 < settings.databases := by
  unfold ofText at read
  split at read
  · cases read
  · exact databases_ofSections read

/-- Settings in a file have a database, whatever the file begins with. -/
theorem databases_ofFileText {text : String} (read : ofFileText text = .ok settings) :
    0 < settings.databases := by
  -- A byte order mark is cut off, and the text behind it is read like any other.
  unfold ofFileText at read
  split at read
  · exact databases_ofText read
  · split at read <;> exact databases_ofText read

end Settings

/-- A command line leaves at least one database, even if it asks for none. -/
theorem CommandLine.databases_apply (line : CommandLine) (some : 0 < settings.databases) :
    0 < (line.apply settings).databases := by
  unfold apply
  -- A number on the command line counts as one at least.
  cases line.databases with
  | none => exact some
  | some number => exact Nat.le_max_left 1 number

/-- A server has as many databases as are set by a file and the command line on top of it, or
by the command line alone. -/
theorem Server.length_databases_start {line : CommandLine} {given : Settings} {text : String}
    (read : given = {} ∨ Settings.ofFileText text = .ok given) :
    let settings := line.apply given
    (start settings.databases settings.endpoint).databases.length = settings.databases := by
  have positive : 0 < given.databases := by
    rcases read with rfl | read
    · decide
    · exact Settings.databases_ofFileText read
  -- The least number of databases that a server has is never needed.
  intro settings
  rw [start, List.length_replicate]
  exact Nat.max_eq_left (line.databases_apply positive)

end ScoreStore
