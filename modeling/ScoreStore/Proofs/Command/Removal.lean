import Mathlib.Data.List.Dedup
import ScoreStore.Proofs.Command.Writes
import ScoreStore.Proofs.Range.Cut

/-!
Removing members in turn takes out their elements, each counted once, and
leaves the others in their order.
-/

namespace ScoreStore

/-- Taking some elements of a set out of it leaves all others in their
order, and counts those taken. -/
structure SortedSet.Removal (set : SortedSet) (gone : List Element) (count : Nat)
    (left : SortedSet) : Prop where
  /-- What is left is sound. -/
  sound : left.Sound
  /-- All others are left, with their scores and in their order. -/
  elements : left.elements = set.elements.filter fun element => element ∉ gone
  /-- Each element is counted once. -/
  counted : count = gone.length
  /-- The set is smaller by as many. -/
  size : set.size = left.size + gone.length

/-- Removing a member makes a set smaller by one if the member is there. -/
theorem SortedSet.size_remove (set : SortedSet) (member : Bytes) :
    set.size = (set.remove member).2.size + if (set.remove member).1 then 1 else 0 := by
  -- The map by which members are counted loses the entry of the member, if it has one.
  have erased := set.scores.size_erase member
  unfold remove
  cases present : set.score? member with
  | none => rfl
  | some score =>
    have contained : set.scores.contains member = true := Table.contains_iff.mpr ⟨score, present⟩
    rw [contained] at erased
    exact erased.symm

namespace SortedSet.Sound

variable {set : SortedSet}

/-- No element occurs twice. -/
theorem nodup_elements (sound : set.Sound) : set.elements.Nodup :=
  List.Nodup.of_map Element.member sound.nodup_members

/-- An element is known by its member. -/
theorem eq_of_member {left right : Element} (sound : set.Sound) (first : left ∈ set.elements)
    (second : right ∈ set.elements) (same : left.member = right.member) : left = right := by
  -- Both elements tell the one score of their member.
  have leftScore := sound.mem_elements_iff.mp first
  have rightScore := sound.mem_elements_iff.mp second
  rw [same, rightScore] at leftScore
  cases left
  cases right
  simp_all

/-- A set has a member exactly if one of its elements has it. -/
theorem hasMember_iff (sound : set.Sound) {member : Bytes} :
    set.hasMember member = true ↔ ∃ element ∈ set.elements, element.member = member := by
  rw [hasMember, Option.isSome_iff_exists]
  constructor
  · rintro ⟨score, present⟩
    exact ⟨⟨member, score⟩, sound.mem_elements_iff.mpr present, rfl⟩
  · rintro ⟨element, inside, rfl⟩
    exact ⟨element.score, sound.mem_elements_iff.mp inside⟩

/-- Removing a member leaves the elements of the others. -/
theorem elements_remove (sound : set.Sound) (member : Bytes) :
    (set.remove member).2.elements =
      set.elements.filter fun element => element.member ≠ member := by
  unfold SortedSet.remove
  cases present : set.score? member with
  | none =>
    -- No element has the member.
    refine (List.filter_eq_self.mpr fun element inside => ?_).symm
    have scored := sound.mem_elements_iff.mp inside
    refine decide_eq_true fun same => ?_
    rw [same, present] at scored
    cases scored
  | some score =>
    -- An element is taken out for its place in the order, which only the element of the member has.
    refine List.filter_congr fun element inside => ?_
    have tied : Element.ties ⟨member, score⟩ element = true ↔ element.member = member := by
      rw [Element.ties, Bool.and_eq_true, beq_iff_eq, beq_iff_eq]
      refine ⟨fun tied => tied.2.symm, fun same => ⟨?_, same.symm⟩⟩
      have scored := sound.mem_elements_iff.mp inside
      rw [same, present, Option.some.injEq] at scored
      rw [scored]
    rw [Bool.eq_iff_iff, Bool.not_eq_true', ← Bool.not_eq_true, tied, decide_eq_true_eq]

/-- Removing members in turn leaves the elements of the others, and makes the set smaller
by as many as are counted. -/
theorem removeAll (sound : set.Sound) (members : List Bytes) :
    (set.removeAll members).2.Sound ∧
      (set.removeAll members).2.elements =
        set.elements.filter (fun element => element.member ∉ members) ∧
      set.size = (set.removeAll members).2.size + (set.removeAll members).1 := by
  induction members generalizing set with
  | nil => exact ⟨sound, by simp [SortedSet.removeAll], rfl⟩
  | cons member rest ih =>
    -- The other members are removed from what the first removal leaves.
    obtain ⟨last, elements, size⟩ := ih (sound.remove member)
    have first := set.size_remove member
    refine ⟨last, ?_, ?_⟩
    · show ((set.remove member).2.removeAll rest).2.elements = _
      rw [elements, sound.elements_remove, List.filter_filter]
      refine List.filter_congr fun element _ => ?_
      rw [← Bool.decide_and, decide_eq_decide, List.mem_cons, not_or, and_comm]
    · -- A member that is listed again is gone by then, so that it is counted only once.
      simp only [SortedSet.removeAll]
      split
      · next present =>
        rw [if_pos present] at first
        omega
      · next absent =>
        rw [if_neg absent] at first
        omega

/-- Removing the members of some elements, whatever others and however often,
takes out these elements. -/
theorem removal (sound : set.Sound) {gone : List Element} {members : List Bytes}
    (inside : ∀ element ∈ gone, element ∈ set.elements) (once : gone.Nodup)
    (named : ∀ element ∈ set.elements, element.member ∈ members ↔ element ∈ gone) :
    set.Removal gone (set.removeAll members).1 (set.removeAll members).2 := by
  obtain ⟨last, elements, size⟩ := sound.removeAll members
  have others : (set.removeAll members).2.elements =
      set.elements.filter fun element => element ∉ gone := by
    rw [elements]
    refine List.filter_congr fun element member => ?_
    rw [decide_eq_decide, named element member]
  -- What is taken out and what is left make up the whole.
  have taken : (set.elements.filter fun element => element ∈ gone).length = gone.length := by
    refine List.Perm.length_eq ((List.perm_ext_iff_of_nodup (sound.nodup_elements.filter _)
      once).mpr fun element => ?_)
    rw [List.mem_filter, decide_eq_true_eq]
    exact and_iff_right_of_imp (inside element)
  have whole := List.length_eq_length_filter_add (l := set.elements)
    (fun element => decide (element ∈ gone))
  have left := last.size_eq
  have all := sound.size_eq
  rw [others] at left
  simp only [decide_not] at left
  refine ⟨last, others, by omega, by omega⟩

/-- What is selected upwards are elements of the set, and none of them twice. -/
theorem select_inside (sound : set.Sound) (selection : Selection) :
    (∀ element ∈ selection.select false set, element ∈ set.elements) ∧
      (selection.select false set).Nodup := by
  -- Every selection is cut out of the elements, either in their own
  -- order or in that of the members.
  have ofElements {part : List Element} (cut : part.Sublist set.elements) :
      (∀ element ∈ part, element ∈ set.elements) ∧ part.Nodup :=
    ⟨fun _ member => cut.subset member, sound.nodup_elements.sublist cut⟩
  cases selection with
  | byScore range =>
    exact ofElements ((List.takeWhile_sublist _).trans (List.dropWhile_sublist _))
  | byLex range =>
    have cut : (range.cut Element.member set.byMember).Sublist set.byMember := by
      unfold LexRange.cut
      split
      · exact List.nil_sublist _
      · exact (List.takeWhile_sublist _).trans (List.dropWhile_sublist _)
    have once : set.byMember.Nodup := by
      refine sound.byMember_ascending.imp ?_
      intro left right less same
      exact List.lt_irrefl right.member (same ▸ less)
    exact ⟨fun _ member => mem_byMember.mp (cut.subset member), once.sublist cut⟩
  | byRank window => exact ofElements ((List.drop_sublist _ _).trans (List.take_sublist _ _))

/-- Removing what is selected takes out exactly that. -/
theorem removal_select (sound : set.Sound) (selection : Selection) :
    set.Removal (selection.select false set)
      (set.removeAll ((selection.select false set).map Element.member)).1
      (set.removeAll ((selection.select false set).map Element.member)).2 := by
  obtain ⟨inside, once⟩ := sound.select_inside selection
  refine sound.removal inside once fun element member => ⟨fun named => ?_, List.mem_map_of_mem⟩
  -- Elements with one member are one element.
  obtain ⟨other, selected, same⟩ := List.mem_map.mp named
  exact sound.eq_of_member (inside other selected) member same ▸ selected

/-- Removing listed members takes out the elements that have them, as many
as there are distinct ones. -/
theorem removal_members (sound : set.Sound) (members : List Bytes) :
    let gone := set.elements.filter fun element => element.member ∈ members
    set.Removal gone (set.removeAll members).1 (set.removeAll members).2 ∧
      gone.length = (members.dedup.filter set.hasMember).length := by
  intro gone
  refine ⟨sound.removal (fun _ member => List.mem_of_mem_filter member)
    (sound.nodup_elements.filter _) fun element member => ?_, ?_⟩
  · rw [List.mem_filter, decide_eq_true_eq]
    exact (and_iff_right member).symm
  · -- The members of what is taken out are the listed ones that are there, each once.
    have once : (gone.map Element.member).Nodup :=
      sound.nodup_members.sublist (List.filter_sublist.map Element.member)
    have permuted : (gone.map Element.member).Perm (members.dedup.filter set.hasMember) := by
      refine (List.perm_ext_iff_of_nodup once ((List.nodup_dedup members).filter _)).mpr
        fun member => ?_
      rw [List.mem_map, List.mem_filter, List.mem_dedup, sound.hasMember_iff]
      constructor
      · rintro ⟨element, taken, rfl⟩
        rw [List.mem_filter, decide_eq_true_eq] at taken
        exact ⟨taken.2, element, taken.1, rfl⟩
      · rintro ⟨listed, element, inside, rfl⟩
        exact ⟨element, List.mem_filter.mpr ⟨inside, decide_eq_true listed⟩, rfl⟩
    simpa using permuted.length_eq

end SortedSet.Sound
end ScoreStore
