import ScoreStore.Proofs.Bytes
import ScoreStore.Proofs.Table
import ScoreStore.SortedSet

/-! Sound sorted sets: both views of a set hold the same pairs, in strictly ascending order. -/

namespace ScoreStore

namespace Element

/-- Elements come in the order of their scores, and of their members where scores agree. -/
theorem before_iff {left right : Element} :
    left.before right = true ↔ left.score.place < right.score.place ∨
      left.score.place = right.score.place ∧ Bytes.before left.member right.member = true := by
  simp [before]

/-- What comes before an element also comes before its successors. -/
theorem before_trans {first second third : Element} (earlier : first.before second = true)
    (later : second.before third = true) : first.before third = true := by
  -- Only where all three scores agree do the members decide.
  rw [before_iff] at earlier later ⊢
  rcases earlier with less | ⟨same, earlier⟩
  · rcases later with further | ⟨equal, _⟩ <;> exact Or.inl (by omega)
  · rcases later with less | ⟨equal, later⟩
    · exact Or.inl (by omega)
    · exact Or.inr ⟨by omega, Bytes.before_trans earlier later⟩

/-- Of two elements in different places one comes before the other. -/
theorem before_total {left right : Element} (apart : left.ties right = false) :
    left.before right = true ∨ right.before left = true := by
  -- Where the scores agree the members differ, and their order decides.
  rw [before_iff, before_iff]
  by_cases same : left.score.place = right.score.place
  · have different : left.member ≠ right.member := fun equal => by
      simp [ties, same, equal] at apart
    rcases Bytes.before_total different with less | greater
    · exact Or.inl (Or.inr ⟨same, less⟩)
    · exact Or.inr (Or.inr ⟨same.symm, greater⟩)
  · rcases Int.lt_or_gt_of_ne same with less | greater
    · exact Or.inl (Or.inl less)
    · exact Or.inr (Or.inl greater)

/-- Inserting an element where its place is free adds it and keeps all others. -/
theorem mem_insert {element other : Element} {ordered : List Element}
    (free : ∀ known ∈ ordered, element.ties known = false) :
    other ∈ element.insert ordered ↔ other = element ∨ other ∈ ordered := by
  -- A place that is taken would keep its element instead.
  have notTaken : ordered.any element.ties = false :=
    List.any_eq_false.mpr fun known member => by simp [free known member]
  rw [insert, notTaken, if_neg (by decide), mem_insertSorted]

/-- Insertion keeps an ascending list ascending. -/
theorem pairwise_insert {element : Element} {ordered : List Element}
    (ascending : ordered.Pairwise (before · ·)) :
    (element.insert ordered).Pairwise (before · ·) := by
  -- An element whose place is free can be compared with all others.
  unfold insert
  split
  · exact ascending
  · next free =>
    refine pairwise_insertSorted before before_trans ascending fun other member => ?_
    have apart : element.ties other = false := by
      simpa using List.any_eq_false.mp (Bool.not_eq_true _ ▸ free) other member
    exact (before_total apart).symm

/-- Taking an element out keeps an ascending list ascending. -/
theorem pairwise_erase {element : Element} {ordered : List Element}
    (ascending : ordered.Pairwise (before · ·)) :
    (element.erase ordered).Pairwise (before · ·) :=
  ascending.sublist List.filter_sublist

end Element

namespace SortedSet

/-- Both views of a sorted set hold the same pairs, ascending and with numbers as scores. -/
structure Sound (set : SortedSet) : Prop where
  /-- The elements are the members with their scores. -/
  agree : ∀ element, element ∈ set.ordered ↔ set.scores.get? element.member = some element.score
  /-- Every element comes before those that follow. -/
  ascending : set.ordered.Pairwise (Element.before · ·)
  /-- Every score is a number. -/
  numbers : ∀ element ∈ set.ordered, element.score.isNaN = false

/-- The set without members is sound. -/
theorem sound_empty : empty.Sound where
  agree := fun element => by simp [empty]
  ascending := List.Pairwise.nil
  numbers := fun element member => nomatch member

namespace Sound

variable {set : SortedSet} {member : Bytes} {score : Score}

/-- A member has a score exactly when the pair is an element. -/
theorem mem_elements_iff (sound : set.Sound) :
    ⟨member, score⟩ ∈ set.elements ↔ set.score? member = some score :=
  sound.agree ⟨member, score⟩

/-- A set has elements exactly if some member has a score. -/
theorem elements_ne_nil_iff (sound : set.Sound) :
    set.elements ≠ [] ↔ ∃ member, (set.score? member).isSome = true := by
  -- Elements and scores are the same pairs.
  constructor
  · intro nonempty
    obtain ⟨element, member⟩ := List.exists_mem_of_ne_nil _ nonempty
    have scored : set.score? element.member = some element.score := sound.mem_elements_iff.mp member
    exact ⟨element.member, by rw [scored]; rfl⟩
  · rintro ⟨member, present⟩
    obtain ⟨score, scored⟩ := Option.isSome_iff_exists.mp present
    exact List.ne_nil_of_mem (sound.mem_elements_iff.mpr scored)

/-- The score of a member is a number. -/
theorem number (sound : set.Sound) (present : set.score? member = some score) :
    score.isNaN = false :=
  sound.numbers ⟨member, score⟩ (sound.mem_elements_iff.mpr present)

/-- No member occurs twice among the elements. -/
theorem nodup_members (sound : set.Sound) : set.members.Nodup := by
  -- Two elements with one member have one score, but no element comes before itself.
  refine List.pairwise_map.mpr (sound.ascending.imp_of_mem ?_)
  intro left right leftMember rightMember earlier same
  have leftScore := (sound.agree left).mp leftMember
  have rightScore := (sound.agree right).mp rightMember
  rw [same, rightScore, Option.some.injEq] at leftScore
  simp [Element.before, same, leftScore, Bytes.before_irrefl] at earlier

/-- The members are those that have a score. -/
theorem mem_members_iff (sound : set.Sound) :
    member ∈ set.members ↔ set.scores.contains member = true := by
  -- An element and a score of its member are the same pair.
  simp only [members, List.mem_map, Table.contains_iff]
  constructor
  · rintro ⟨element, inside, rfl⟩
    exact ⟨element.score, (sound.agree element).mp inside⟩
  · rintro ⟨score, present⟩
    exact ⟨⟨member, score⟩, (sound.agree _).mpr present, rfl⟩

/-- The number of members is the number of elements. -/
theorem size_eq (sound : set.Sound) : set.size = set.elements.length := by
  -- The keys of the map and the members of the elements are the same, each once.
  have permuted : set.scores.keys.Perm set.members :=
    (List.perm_ext_iff_of_nodup set.scores.nodup_keys sound.nodup_members).mpr fun member => by
      rw [sound.mem_members_iff, Table.mem_keys_iff]
  simpa [Table.keys, members, size, Table.size, elements] using permuted.length_eq

/-- There is just one sound set without members. -/
theorem eq_empty (sound : set.Sound) (none : set.isEmpty = true) : set = empty := by
  have size : set.size = 0 := by simpa [isEmpty] using none
  have elements : set.elements = [] := List.length_eq_zero_iff.mp (sound.size_eq.symm.trans size)
  -- Neither view holds anything.
  obtain ⟨⟨entries, distinct⟩, ordered⟩ := set
  obtain rfl : entries = [] := List.length_eq_zero_iff.mp size
  obtain rfl : ordered = [] := elements
  rfl

/-- The position of a member is less than the number of members. -/
theorem rank?_lt_size {position : Nat} (sound : set.Sound)
    (ranked : set.rank? member = some position) : position < set.size := by
  obtain ⟨score, present, rfl⟩ := Option.map_eq_some_iff.mp ranked
  have inside : ⟨member, score⟩ ∈ set.ordered := sound.mem_elements_iff.mpr present
  rw [sound.size_eq, elements]
  refine Nat.lt_of_le_of_ne List.countP_le_length fun all => ?_
  -- The element of the member itself does not come before it.
  have before := List.countP_eq_length.mp all _ inside
  simp [Element.before, Bytes.before_irrefl] at before

/-- Withdrawing a member by its score takes out its element and no other. -/
theorem mem_withdraw_iff (sound : set.Sound) (present : set.score? member = some score)
    {element : Element} : element ∈ (set.withdraw member score).ordered ↔
      element ∈ set.ordered ∧ element.member ≠ member := by
  -- An element of the member has the score by which it is looked for.
  simp only [withdraw, Element.erase, List.mem_filter, and_congr_right_iff]
  intro inside
  by_cases same : element.member = member
  · have known := (sound.agree element).mp inside
    rw [same, show set.scores.get? member = some score from present, Option.some.injEq] at known
    simp [Element.ties, same, known]
  · simp [Element.ties, same, Ne.symm same]

/-- Entering a member after its earlier element has left makes a sound set. -/
theorem enter {rest : SortedSet} (sound : set.Sound) (scores : rest.scores = set.scores)
    (left : ∀ element, element ∈ rest.ordered ↔ element ∈ set.ordered ∧ element.member ≠ member)
    (ascending : rest.ordered.Pairwise (Element.before · ·)) (number : score.isNaN = false) :
    (rest.enter member score).Sound := by
  -- No element of the member is left, so the place of the new one is free.
  have free : ∀ known ∈ rest.ordered, Element.ties ⟨member, score⟩ known = false := by
    intro known inside
    simp [Element.ties, Ne.symm ((left known).mp inside).2]
  refine ⟨fun element => ?_, Element.pairwise_insert ascending, fun element inside => ?_⟩
  · -- Under the member both views hold the new pair only, and elsewhere the old ones.
    simp only [SortedSet.enter, Element.mem_insert free, left, scores, Table.get?_set]
    by_cases same : member = element.member
    · rw [if_pos same, Option.some.injEq]
      refine ⟨fun found => found.elim (fun equal => by rw [equal])
        fun old => absurd same.symm old.2, fun equal => Or.inl ?_⟩
      cases element
      simp_all
    · rw [if_neg same, ← sound.agree]
      exact ⟨fun found => found.elim (fun equal => absurd (by rw [equal]) same) And.left,
        fun inside => Or.inr ⟨inside, Ne.symm same⟩⟩
  · rcases (Element.mem_insert free).mp inside with rfl | old
    · exact number
    · exact sound.numbers element ((left element).mp old).1

/-- Entering a new member keeps a set sound. -/
theorem enter_absent (sound : set.Sound) (absent : set.score? member = none)
    (number : score.isNaN = false) : (set.enter member score).Sound := by
  -- A member without a score has no element that would have to leave first.
  refine sound.enter rfl (fun element => ?_) sound.ascending number
  refine ⟨fun inside => ⟨inside, fun same => ?_⟩, And.left⟩
  have present := (sound.agree element).mp inside
  rw [same] at present
  cases absent.symm.trans present

/-- Moving a member to another score keeps a set sound. -/
theorem enter_withdraw {old : Score} (sound : set.Sound) (present : set.score? member = some old)
    (number : score.isNaN = false) : ((set.withdraw member old).enter member score).Sound :=
  sound.enter rfl (fun _ => sound.mem_withdraw_iff present)
    (Element.pairwise_erase sound.ascending) number

/-- Giving a member a score, as far as a rule allows it, keeps a set sound. -/
theorem add (sound : set.Sound) (rule : AddRule) (member : Bytes) (score : Score) :
    (set.add rule member score).2.Sound := by
  -- Only the two outcomes that write change the set.
  unfold SortedSet.add
  cases present : set.score? member with
  | none =>
    dsimp only
    split
    · exact sound
    · split
      · exact sound
      · next number => exact sound.enter_absent present (Bool.not_eq_true _ ▸ number)
  | some old =>
    -- It does not matter how the new score was computed, as long as it is a number.
    dsimp only
    generalize (if rule.increment = true then old.add score else score) = new
    split
    · exact sound
    · split
      · exact sound
      · next number =>
        split
        · exact sound
        · split
          · exact sound
          · exact sound.enter_withdraw present (Bool.not_eq_true _ ▸ number)

/-- Removing a member keeps a set sound. -/
theorem remove (sound : set.Sound) (member : Bytes) : (set.remove member).2.Sound := by
  -- Both views lose the pair of the member and nothing else.
  unfold SortedSet.remove
  cases present : set.score? member with
  | none => exact sound
  | some score =>
    refine ⟨fun element => ?_, Element.pairwise_erase sound.ascending, fun element inside => ?_⟩
    · refine (sound.mem_withdraw_iff present).trans ?_
      rw [sound.agree, Table.get?_erase]
      by_cases same : member = element.member
      · simp [same]
      · simp [same, Ne.symm same]
    · exact sound.numbers element ((sound.mem_withdraw_iff present).mp inside).1

end Sound

end SortedSet
end ScoreStore
