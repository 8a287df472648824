import ScoreStore.Keyspace.Database
import ScoreStore.Proofs.Table

/-!
Sound databases: which keys have versions, which versions they have, and how watchers are counted.
-/

namespace ScoreStore.Database

/-- How many connections are counted as watchers of a key. -/
def watchCount (database : Database) (key : Bytes) : Nat := (database.watchers.get? key).getD 0

/-- A key that someone is counted for has a count. -/
theorem watched_of_watchCount {database : Database} {key : Bytes}
    (counted : 0 < database.watchCount key) : database.watchers.contains key = true := by
  -- A key without a count would be counted as zero.
  rw [Table.contains_iff]
  cases found : database.watchers.get? key with
  | none => simp [watchCount, found] at counted
  | some count => exact ⟨count, rfl⟩

section Forgetting

variable (database : Database) (key : Bytes)

/-- Settling a version leaves all values alone. -/
@[simp] theorem values_forget : (database.forget key).values = database.values := by
  unfold forget
  split <;> rfl

/-- A deletion takes the value of its key, and no other. -/
@[simp] theorem values_delete : (database.delete key).2.values = database.values.erase key := by
  -- Erasing a key without a value changes nothing.
  unfold delete
  split
  · simp
  · next absent =>
    have kept : database.values.entries.filter (fun entry => entry.1 ≠ key) =
        database.values.entries := by
      refine List.filter_eq_self.mpr fun entry member => decide_eq_true fun same => absent ?_
      exact Table.contains_iff.mpr ⟨entry.2, Table.mem_entries_iff.mp (same ▸ member)⟩
    simp only [Table.erase, kept]

end Forgetting

/-- Settling versions in turn leaves all values alone. -/
@[simp] theorem values_foldl_forget (keys : List Bytes) (database : Database) :
    (keys.foldl forget database).values = database.values := by
  -- Each settling leaves them alone.
  induction keys generalizing database with
  | nil => rfl
  | cons key rest ih => simp [ih]

/-- No value is left after all keys are removed. -/
@[simp] theorem values_flush (database : Database) : database.flush.values = .empty := by
  simp [flush]

/-- The bookkeeping of a database is in order, apart from keys whose
versions are still to be settled. -/
structure SoundBut (pending : List Bytes) (database : Database) : Prop where
  /-- Every key with a value has a version. -/
  versioned : ∀ key, database.contains key = true → database.versions.contains key = true
  /-- Every version was given out. -/
  bounded : ∀ key version, database.versions.get? key = some version →
    1 ≤ version ∧ version ≤ database.lastVersion
  /-- No version was given out twice, as long as the greatest one was not reached. -/
  distinct : database.lastVersion < maxVersion → ∀ key other version,
    database.versions.get? key = some version → database.versions.get? other = some version →
      key = other
  /-- A version is kept for a value or for a watcher. -/
  remembered : ∀ key, key ∉ pending → database.versions.contains key = true →
    database.contains key = true ∨ database.watchers.contains key = true
  /-- The versions do not go beyond the greatest one. -/
  capped : database.lastVersion ≤ maxVersion
  /-- No key is counted with zero watchers. -/
  nonzero : ∀ key, database.watchers.get? key ≠ some 0

/-- The bookkeeping of a database is in order. -/
abbrev Sound (database : Database) : Prop := database.SoundBut []

/-- The database without keys is in order. -/
theorem sound_empty : empty.Sound where
  versioned := fun _ present => nomatch present
  bounded := fun _ _ found => nomatch found
  distinct := fun _ _ _ _ found => nomatch found
  remembered := fun _ _ found => nomatch found
  capped := Nat.zero_le _
  nonzero := fun _ found => nomatch found

namespace SoundBut

variable {database : Database} {key : Bytes} {pending : List Bytes}

/-- No key has a version beyond the one given out last. -/
theorem version_le (sound : database.SoundBut pending) (key : Bytes) :
    database.version key ≤ database.lastVersion := by
  -- A key without a version counts as having version zero.
  rw [version]
  cases found : database.versions.get? key with
  | none => exact Nat.zero_le _
  | some version => exact (sound.bounded key version found).2

/-- A new version settles a key that has a value, given just now or earlier, or a watcher. -/
theorem touch {values : Table Bytes Value} (sound : database.SoundBut (key :: pending))
    (others : ∀ other, key ≠ other → values.contains other = database.contains other)
    (kept : values.contains key = true ∨ database.watchers.contains key = true) :
    (Database.touch { database with values } key).SoundBut pending := by
  -- The new version is greater than all others unless the greatest one is reached.
  have capped := sound.capped
  have positive : 1 ≤ maxVersion := by decide
  refine ⟨fun other present => ?_, fun other version found => ?_,
    fun below first second version firstFound secondFound => ?_, fun other settled found => ?_,
    Nat.min_le_right _ _, sound.nonzero⟩
  · by_cases same : key = other
    · simp [Database.touch, same]
    · have old := sound.versioned other ((others other same).symm.trans present)
      simp [Database.touch, old]
  · -- The new version is the last one, and earlier ones stay below it.
    simp only [Database.touch, Table.get?_set] at found ⊢
    split at found
    · simp only [Option.some.injEq] at found
      omega
    · have := sound.bounded other version found
      omega
  · -- No earlier version can be the new one, which is greater than all of them.
    simp only [Database.touch, Table.get?_set] at below firstFound secondFound
    have unreached : database.lastVersion < maxVersion := by omega
    split at firstFound <;> split at secondFound
    · next firstSame secondSame => exact firstSame.symm.trans secondSame
    · have := sound.bounded second version secondFound
      simp only [Option.some.injEq] at firstFound
      omega
    · have := sound.bounded first version firstFound
      simp only [Option.some.injEq] at secondFound
      omega
    · exact sound.distinct unreached first second version firstFound secondFound
  · by_cases same : key = other
    · exact same ▸ kept
    · -- For any other key nothing has changed.
      have old : database.versions.contains other = true := by
        simpa [Database.touch, same] using found
      have unsettled : other ∉ key :: pending := by simp [settled, Ne.symm same]
      exact (sound.remembered other unsettled old).imp_left ((others other same).trans ·)

/-- Dropping the version of a key without a value settles it, whoever watched it. -/
theorem dropVersion {watchers : Table Bytes Nat} (sound : database.SoundBut (key :: pending))
    (gone : database.contains key = false)
    (others : ∀ other, key ≠ other → watchers.contains other = database.watchers.contains other)
    (nonzero : ∀ other, watchers.get? other ≠ some 0) :
    SoundBut pending { database with watchers, versions := database.versions.erase key } := by
  -- Nothing else refers to the version that is dropped.
  refine ⟨fun other present => ?_, fun other version found => ?_,
    fun below first second version firstFound secondFound => ?_, fun other settled found => ?_,
    sound.capped, nonzero⟩
  · -- A key with a value is not the one that has none.
    have different : key ≠ other := fun same => by
      rw [same] at gone
      cases gone.symm.trans present
    simpa [different] using sound.versioned other present
  · simp only [Table.get?_erase] at found
    split at found
    · cases found
    · exact sound.bounded other version found
  · simp only [Table.get?_erase] at firstFound secondFound
    split at firstFound
    · cases firstFound
    · split at secondFound
      · cases secondFound
      · exact sound.distinct below first second version firstFound secondFound
  · simp only [Table.contains_erase, Bool.and_eq_true, decide_eq_true_eq] at found
    have unsettled : other ∉ key :: pending := by simp [settled, Ne.symm found.1]
    exact (sound.remembered other unsettled found.2).imp_right ((others other found.1).trans ·)

/-- Settling the version of a key without a value leaves fewer keys to settle. -/
theorem forget (sound : database.SoundBut (key :: pending))
    (gone : database.contains key = false) : (database.forget key).SoundBut pending := by
  -- A watched key gets a new version, and otherwise its version goes.
  unfold Database.forget
  split
  · next watched => exact sound.touch (fun _ _ => rfl) (Or.inr watched)
  · exact sound.dropVersion gone (fun _ _ => rfl) sound.nonzero

/-- Settling all keys without values that are left to settle puts a database in order. -/
theorem foldl_forget {keys : List Bytes} (sound : database.SoundBut keys)
    (gone : ∀ key ∈ keys, database.contains key = false) :
    (keys.foldl Database.forget database).Sound := by
  -- Every settled key makes the list of keys to settle shorter, until none is left.
  induction keys generalizing database with
  | nil => exact sound
  | cons key rest ih =>
    refine ih (sound.forget (gone key List.mem_cons_self)) fun other member => ?_
    simpa [Database.contains] using gone other (List.mem_cons_of_mem _ member)

/-- A database in order has no more to settle than any list of keys. -/
theorem weaken (sound : database.Sound) (pending : List Bytes) : database.SoundBut pending :=
  { sound with remembered := fun key _ => sound.remembered key List.not_mem_nil }

/-- Storing a value keeps a database in order. -/
theorem put (sound : database.Sound) (key : Bytes) (value : Value) :
    (database.put key value).Sound := by
  -- The key gets a value and a new version at once.
  refine (sound.weaken [key]).touch (fun other different => ?_) (Or.inl ?_)
  · simp [Database.contains, different]
  · simp

/-- Removing a key keeps a database in order. -/
theorem delete (sound : database.Sound) (key : Bytes) : (database.delete key).2.Sound := by
  -- Without its value, the version of the key is the only one to settle.
  unfold Database.delete
  split
  · have unsettled :
        SoundBut [key] { database with values := database.values.erase key } := by
      refine { sound.weaken [key] with versioned := fun other present => ?_, remembered := ?_ }
      · simp only [Database.contains, Table.contains_erase, Bool.and_eq_true] at present
        exact sound.versioned other present.2
      · intro other settled found
        have different : key ≠ other := fun same => settled (by simp [same])
        simpa [Database.contains, different] using sound.remembered other List.not_mem_nil found
    exact unsettled.forget (by simp [Database.contains])
  · exact sound

/-- Removing all keys keeps a database in order. -/
theorem flush (sound : database.Sound) : database.flush.Sound := by
  -- The versions to settle are those of the keys that had values.
  refine foldl_forget ?_ fun key _ => rfl
  refine { sound.weaken database.values.keys with
    versioned := fun _ present => (nomatch present), remembered := ?_ }
  intro other settled found
  have absent : ¬ database.contains other = true := by simpa [Database.contains] using settled
  exact Or.inr ((sound.remembered other List.not_mem_nil found).resolve_left absent)

/-- Adding a watcher keeps a database in order. -/
theorem watch (sound : database.Sound) (key : Bytes) : (database.watch key).2.Sound := by
  -- A count that is raised is not zero, and all others are the old ones.
  refine { sound with remembered := fun other settled found => ?_, nonzero := fun other => ?_ }
  · refine (sound.remembered other settled found).imp_right fun watched => ?_
    simp [Database.watch, watched]
  · simp only [Database.watch, Table.get?_set]
    split
    · simp
    · exact sound.nonzero other

/-- Taking a watcher keeps a database in order. -/
theorem unwatch (sound : database.Sound) (key : Bytes) : (database.unwatch key).Sound := by
  -- The last watcher takes the version of a key without a value along.
  unfold Database.unwatch
  cases counted : database.watchers.get? key with
  | none => exact sound
  | some count =>
    dsimp only
    split
    · -- Another watcher stays, so the count is lowered but not to zero.
      refine { sound with remembered := fun other settled found => ?_, nonzero := fun other => ?_ }
      · refine (sound.remembered other settled found).imp_right fun watched => ?_
        simp [watched]
      · simp only [Table.get?_set]
        split
        · simp only [ne_eq, Option.some.injEq]
          omega
        · exact sound.nonzero other
    · -- The last watcher leaves, so the count goes and with it a version without a value.
      have counts : ∀ other, (database.watchers.erase key).get? other ≠ some 0 := fun other => by
        rw [Table.get?_erase]
        split
        · simp
        · exact sound.nonzero other
      by_cases present : database.contains key = true
      · rw [if_pos present]
        refine { sound with remembered := fun other settled found => ?_, nonzero := counts }
        by_cases same : key = other
        · exact Or.inl (same ▸ present)
        · simpa [same, Database.contains] using sound.remembered other settled found
      · rw [if_neg present]
        refine (sound.weaken [key]).dropVersion (Bool.not_eq_true _ ▸ present)
          (fun other different => ?_) counts
        simp [different]

end SoundBut

end ScoreStore.Database
