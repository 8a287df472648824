import Mathlib.Data.List.Basic
import ScoreStore.Bytes

/-!
Laws of byte strings: their order is the lexicographic one, first lines stay when bytes follow, and
insertion keeps lists sorted.
-/

namespace ScoreStore

namespace Bytes

/-- The order of byte strings is the lexicographic order of lists of bytes. -/
theorem before_iff_lt {left right : Bytes} : before left right = true ↔ left < right := by
  -- Both orders compare the first bytes, and go on with the rest where these agree.
  fun_induction before left right with
  | case1 left => simp
  | case2 head rest => simp
  | case3 left lefts right rights less =>
    exact ⟨fun _ => List.cons_lt_cons_iff.mpr (Or.inl (UInt8.lt_iff_toNat_lt.mpr less)),
      fun _ => rfl⟩
  | case4 left lefts right rights notLess greater =>
    -- A greater first byte rules out both ways of being less.
    have different : left ≠ right := fun same => by simp [same] at greater
    simp only [Bool.false_eq_true, List.cons_lt_cons_iff, UInt8.lt_iff_toNat_lt, notLess,
      different, false_and, or_self]
  | case5 left lefts right rights notLess notGreater ih =>
    have same : left = right := UInt8.toNat_inj.mp (by omega)
    simp only [List.cons_lt_cons_iff, UInt8.lt_iff_toNat_lt, same, Nat.lt_irrefl, true_and,
      false_or, ih]

/-- No byte string comes before itself. -/
theorem before_irrefl (data : Bytes) : before data data = false := by
  -- Equal first bytes leave the decision to the rest, down to the end.
  induction data with
  | nil => rfl
  | cons byte rest ih => simp [before, ih]

/-- What comes before a byte string also comes before its successors. -/
theorem before_trans {first second third : Bytes} (earlier : before first second = true)
    (later : before second third = true) : before first third = true :=
  before_iff_lt.mpr (List.lt_trans (before_iff_lt.mp earlier) (before_iff_lt.mp later))

/-- The test that allows equality is the order that does. -/
theorem atMost_iff_le {left right : Bytes} : atMost left right = true ↔ left ≤ right := by
  rw [← List.not_lt, ← before_iff_lt, Bool.not_eq_true, atMost, Bool.not_eq_true']

/-- Of two different byte strings one comes before the other. -/
theorem before_total {left right : Bytes} (different : left ≠ right) :
    before left right = true ∨ before right left = true := by
  -- The first difference decides, or else one of the two is longer.
  fun_induction before left right with
  | case1 left =>
    cases left with
    | nil => exact absurd rfl different
    | cons head rest => exact Or.inr rfl
  | case2 head rest => exact Or.inl rfl
  | case3 left lefts right rights less => exact Or.inl rfl
  | case4 left lefts right rights notLess greater => exact Or.inr (by simp [before, greater])
  | case5 left lefts right rights notLess notGreater ih =>
    have same : left = right := UInt8.toNat_inj.mp (by omega)
    subst same
    simpa [before] using ih fun equal => different (by rw [equal])

section Lines

variable {buffer line rest : Bytes}

/-- A line with its line end takes up the beginning of a buffer. -/
theorem eq_of_splitLine? (split : splitLine? buffer = some (line, rest)) :
    buffer = line ++ lineEnd ++ rest := by
  -- Each byte before the line end belongs to the line.
  fun_induction splitLine? buffer generalizing line rest with
  -- Without two bytes there is no line end to split at.
  | case1 => simp at split
  | case2 => simp at split
  | case3 first second remaining ends =>
    obtain ⟨rfl, rfl⟩ := Prod.mk.inj (Option.some.inj split)
    obtain ⟨rfl, rfl⟩ := ends
    rfl
  | case4 first second remaining ends ih =>
    obtain ⟨⟨shorter, left⟩, inner, same⟩ := Option.map_eq_some_iff.mp split
    obtain ⟨rfl, rfl⟩ := Prod.mk.inj same
    rw [ih inner]
    rfl

/-- A line end after bytes without a carriage return is the first one. -/
theorem splitLine?_line (plain : Ascii.carriageReturn ∉ line) (rest : Bytes) :
    splitLine? (line ++ lineEnd ++ rest) = some (line, rest) := by
  -- By induction on the line, which ends where the buffer has its first line end.
  induction line with
  | nil => rfl
  | cons byte others ih =>
    obtain ⟨other, plain⟩ := not_or.mp (mt List.mem_cons.mpr plain)
    -- There is a next byte, since the line end is still to come.
    obtain ⟨next, tail, more⟩ : ∃ next tail, others ++ lineEnd ++ rest = next :: tail :=
      List.exists_cons_of_ne_nil (by simp [lineEnd])
    have later := ih plain
    simp only [List.cons_append, more] at later ⊢
    have differs : ¬ (byte = Ascii.carriageReturn ∧ next = Ascii.lineFeed) :=
      fun ends => other ends.1.symm
    rw [splitLine?, if_neg differs, later]
    rfl

/-- A line with its line end takes up the beginning of a buffer, and no line
end comes before its own. -/
theorem splitLine?_eq_some_iff : splitLine? buffer = some (line, rest) ↔
    ¬ lineEnd <:+: line ∧ buffer = line ++ lineEnd ++ rest := by
  constructor
  · intro split
    refine ⟨?_, eq_of_splitLine? split⟩
    -- By the recursion of the split, which goes on byte by byte.
    fun_induction splitLine? buffer generalizing line rest with
    | case1 => simp at split
    | case2 => simp at split
    | case3 first second remaining ends =>
      obtain ⟨rfl, rfl⟩ := Prod.mk.inj (Option.some.inj split)
      simp [lineEnd]
    | case4 first second remaining ends ih =>
      obtain ⟨⟨shorter, left⟩, inner, same⟩ := Option.map_eq_some_iff.mp split
      obtain ⟨rfl, rfl⟩ := Prod.mk.inj same
      intro early
      rcases List.infix_cons_iff.mp early with ⟨others, starts⟩ | later
      · -- The line would start with a line end, and so would the buffer.
        have whole := eq_of_splitLine? inner
        obtain ⟨rfl, rfl⟩ := List.cons.inj starts
        exact ends ⟨rfl, (List.cons.inj whole).1⟩
      · -- It cannot be further back either, since the rest of the line is split off first.
        exact ih inner later
  · rintro ⟨plain, rfl⟩
    induction line with
    | nil => rfl
    | cons byte others ih =>
      have notLater : ¬ lineEnd <:+: others := fun later => plain (List.infix_cons later)
      -- There is a next byte, since the line end is still to come.
      obtain ⟨next, tail, more⟩ : ∃ next tail, others ++ lineEnd ++ rest = next :: tail :=
        List.exists_cons_of_ne_nil (by simp [lineEnd])
      have differs : ¬ (byte = Ascii.carriageReturn ∧ next = Ascii.lineFeed) := by
        rintro ⟨rfl, rfl⟩
        cases others with
        | nil => exact absurd (List.cons.inj more).1 (by decide)
        | cons second others =>
          obtain ⟨rfl, _⟩ := List.cons.inj more
          exact plain ⟨[], others, rfl⟩
      have later := ih notLater
      simp only [List.cons_append, more] at later ⊢
      rw [splitLine?, if_neg differs, later]
      rfl

/-- A line is as long as the position of the first line end. -/
theorem find?_lineEnd (buffer : Bytes) :
    find? lineEnd buffer = (splitLine? buffer).map fun (line, _) => line.length := by
  -- The search and the split go through the buffer alike.
  fun_induction splitLine? buffer with
  | case1 => rfl
  | case2 byte => simp [find?, lineEnd]
  | case3 first second remaining ends =>
    obtain ⟨rfl, rfl⟩ := ends
    rfl
  | case4 first second remaining ends ih =>
    have elsewhere : ¬ lineEnd.isPrefixOf (first :: second :: remaining) = true := by
      intro starts
      simp only [lineEnd, List.isPrefixOf, Bool.and_true, Bool.and_eq_true, beq_iff_eq] at starts
      exact ends ⟨starts.1.symm, starts.2.symm⟩
    rw [find?, if_neg elsewhere, ih]
    cases splitLine? (second :: remaining) <;> rfl

/-- Lines are told apart from what follows by their line ends. -/
theorem eq_of_line_append {first second more : Bytes} (plain : Ascii.carriageReturn ∉ first)
    (other : Ascii.carriageReturn ∉ second)
    (same : first ++ lineEnd ++ rest = second ++ lineEnd ++ more) :
    first = second ∧ rest = more := by
  have split := splitLine?_line plain rest
  rw [same, splitLine?_line other] at split
  exact (Prod.mk.inj (Option.some.inj split)).imp Eq.symm Eq.symm

/-- A line that has arrived stays the first one. -/
theorem splitLine?_append (split : splitLine? buffer = some (line, rest)) (more : Bytes) :
    splitLine? (buffer ++ more) = some (line, rest ++ more) := by
  fun_induction splitLine? buffer generalizing line rest with
  | case1 => simp at split
  | case2 => simp at split
  | case3 first second remaining ends =>
    obtain ⟨rfl, rfl⟩ := Prod.mk.inj (Option.some.inj split)
    -- The line end has come, so that what follows does not matter.
    simp only [List.cons_append, splitLine?, if_pos ends]
  | case4 first second remaining ends ih =>
    obtain ⟨⟨shorter, left⟩, inner, same⟩ := Option.map_eq_some_iff.mp split
    obtain ⟨rfl, rfl⟩ := Prod.mk.inj same
    have later := ih inner
    simp only [List.cons_append] at later
    simp only [List.cons_append, splitLine?, if_neg ends, later, Option.map_some]

/-- The first line of a buffer without a line end goes beyond the buffer, unless
the line end itself was cut. -/
theorem splitLine?_append_of_none {more : Bytes} (missing : splitLine? buffer = none)
    (split : splitLine? (buffer ++ more) = some (line, rest)) :
    buffer.length ≤ line.length ∨
      buffer = line ++ [Ascii.carriageReturn] ∧ more = Ascii.lineFeed :: rest := by
  -- By the recursion of the split, up to the byte in front of the cut.
  fun_induction splitLine? buffer generalizing line rest with
  | case1 => exact Or.inl (Nat.zero_le _)
  | case2 byte =>
    -- Only the last byte can be the carriage return of a line end that was cut.
    cases more with
    | nil => simp [splitLine?] at split
    | cons next others =>
      simp only [List.cons_append, List.nil_append, splitLine?] at split
      split at split
      · next ends =>
        obtain ⟨rfl, rfl⟩ := Prod.mk.inj (Option.some.inj split)
        obtain ⟨rfl, rfl⟩ := ends
        exact Or.inr ⟨rfl, rfl⟩
      · obtain ⟨⟨shorter, left⟩, _, same⟩ := Option.map_eq_some_iff.mp split
        obtain ⟨rfl, rfl⟩ := Prod.mk.inj same
        exact Or.inl (by simp)
  | case3 first second remaining ends => simp at missing
  | case4 first second remaining ends ih =>
    simp only [List.cons_append, splitLine?, if_neg ends] at split
    obtain ⟨⟨shorter, left⟩, inner, same⟩ := Option.map_eq_some_iff.mp split
    obtain ⟨rfl, rfl⟩ := Prod.mk.inj same
    rcases ih (Option.map_eq_none_iff.mp missing) inner with longer | ⟨whole, cut⟩
    · exact Or.inl (by simpa using longer)
    · exact Or.inr ⟨by rw [whole]; rfl, cut⟩

end Lines

end Bytes

section Sorting

variable {α : Type} (precedes : α → α → Bool)

/-- Insertion adds the item and keeps all others. -/
@[simp] theorem mem_insertSorted {item other : α} {items : List α} :
    other ∈ insertSorted precedes item items ↔ other = item ∨ other ∈ items := by
  -- The item either passes the head or stops in front of it.
  induction items with
  | nil => simp [insertSorted]
  | cons head rest ih =>
    by_cases later : precedes head item = true
    · simp only [insertSorted, later, if_true, List.mem_cons, ih, or_left_comm]
    · simp only [insertSorted, if_neg later, List.mem_cons]

/-- Inserting an item into a sorted list keeps it sorted, if the item can be
compared with all others. -/
theorem pairwise_insertSorted (transitive : ∀ {first second third}, precedes first second = true →
      precedes second third = true → precedes first third = true)
    {item : α} {items : List α} (sorted : items.Pairwise (precedes · ·))
    (comparable : ∀ other ∈ items, precedes other item = true ∨ precedes item other = true) :
    (insertSorted precedes item items).Pairwise (precedes · ·) := by
  -- The item stops before the first one that does not precede it.
  induction items with
  | nil => simp [insertSorted]
  | cons head rest ih =>
    obtain ⟨ahead, sorted⟩ := List.pairwise_cons.mp sorted
    by_cases later : precedes head item = true
    · rw [insertSorted, if_pos later]
      -- What was inserted behind the head comes after it.
      have tail := ih sorted fun other member => comparable other (List.mem_cons_of_mem _ member)
      refine List.pairwise_cons.mpr ⟨fun other member => ?_, tail⟩
      rcases (mem_insertSorted precedes).mp member with rfl | member
      · exact later
      · exact ahead other member
    · -- Everything behind the head comes after the item as well.
      have first : precedes item head = true :=
        (comparable head List.mem_cons_self).resolve_left later
      rw [insertSorted, if_neg later]
      refine List.pairwise_cons.mpr ⟨fun other member => ?_, List.pairwise_cons.mpr ⟨ahead, sorted⟩⟩
      rcases List.mem_cons.mp member with rfl | member
      · exact first
      · exact transitive first (ahead other member)

/-- Sorting keeps all items and adds none. -/
@[simp] theorem mem_sortBy {item : α} {items : List α} :
    item ∈ sortBy precedes items ↔ item ∈ items := by
  unfold sortBy
  -- By induction on the items, which are inserted from the last one on.
  induction items with
  | nil => rfl
  | cons head rest ih => rw [List.foldr_cons, mem_insertSorted, ih, List.mem_cons]

/-- Items that can be compared with one another end up sorted. -/
theorem pairwise_sortBy (transitive : ∀ {first second third}, precedes first second = true →
      precedes second third = true → precedes first third = true) {items : List α}
    (comparable : items.Pairwise fun first second =>
      precedes first second = true ∨ precedes second first = true) :
    (sortBy precedes items).Pairwise (precedes · ·) := by
  -- By induction on the items: each is inserted into those behind it, which are sorted.
  induction items with
  | nil => exact List.Pairwise.nil
  | cons head rest ih =>
    obtain ⟨ahead, comparable⟩ := List.pairwise_cons.mp comparable
    refine pairwise_insertSorted precedes transitive (ih comparable) fun other member => ?_
    exact (ahead other ((mem_sortBy precedes).mp member)).symm

end Sorting

end ScoreStore
