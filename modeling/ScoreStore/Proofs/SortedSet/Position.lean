import ScoreStore.Proofs.SortedSet.ScoreMap

/-!
Ranks are positions: as many elements come before a member as its position says, and as many after
it as its position from the end.
-/

namespace ScoreStore

namespace Element

/-- No element comes before itself. -/
theorem before_irrefl (element : Element) : element.before element = false := by
  simp [before, Bytes.before_irrefl]

/-- In ascending order as many elements come before one of them as its position says. -/
theorem countP_before {ordered : List Element} {element : Element} {position : Nat}
    (ascending : ordered.Pairwise (Element.before · ·))
    (found : ordered[position]? = some element) :
    ordered.countP (fun other => other.before element) = position := by
  -- The first element comes before the one at any later position, and none of the others before it.
  induction ordered generalizing position with
  | nil => cases found
  | cons first others ih =>
    obtain ⟨least, later⟩ := List.pairwise_cons.mp ascending
    cases position with
    | zero =>
      obtain rfl : first = element := Option.some.inj found
      have none : others.countP (fun other => other.before first) = 0 := by
        refine List.countP_eq_zero.mpr fun other member earlier => ?_
        have round := before_trans (least other member) earlier
        rw [before_irrefl] at round
        cases round
      rw [List.countP_cons_of_neg (by simp [before_irrefl]), none]
    | succ position =>
      have behind : others[position]? = some element := found
      have earlier : first.before element = true := least element (List.mem_of_getElem? behind)
      rw [List.countP_cons, ih later behind, if_pos earlier]

end Element

namespace SortedSet

/-- Ranks are the positions of elements, and ranks in reverse those from the end. -/
structure Ranks (set : SortedSet) : Prop where
  /-- A member has a rank just if its element is at that position. -/
  position : ∀ member position, set.rank? member = some position ↔
    ∃ score, set.elements[position]? = some ⟨member, score⟩
  /-- The rank in reverse belongs to the same position, and with the rank and the element
  itself makes up the size. -/
  reverse : ∀ member rank, set.rank? member = some rank →
    ∃ reverseRank, set.reverseRank? member = some reverseRank ∧ rank + reverseRank + 1 = set.size ∧
      ∃ score, set.elements.reverse[reverseRank]? = some ⟨member, score⟩
  /-- Just those that are no members have no rank. -/
  absent : ∀ member, set.rank? member = none ↔ member ∉ set.members
  /-- Just those that are no members have no rank in reverse. -/
  absentReverse : ∀ member, set.reverseRank? member = none ↔ member ∉ set.members

namespace Sound

variable {set : SortedSet} {member : Bytes} {rank : Nat}

/-- A member has a rank just if its element is at that position. -/
theorem rank?_eq_some_iff (sound : set.Sound) : set.rank? member = some rank ↔
    ∃ score, set.elements[rank]? = some ⟨member, score⟩ := by
  constructor
  · intro ranked
    -- The element is at some position, which is what its rank counts.
    obtain ⟨score, present, counted⟩ := Option.map_eq_some_iff.mp ranked
    obtain ⟨position, found⟩ := List.mem_iff_getElem?.mp (sound.mem_elements_iff.mpr present)
    have same : rank = position :=
      counted.symm.trans (Element.countP_before sound.ascending found)
    exact ⟨score, same ▸ found⟩
  · rintro ⟨score, found⟩
    have present := sound.mem_elements_iff.mp (List.mem_of_getElem? found)
    rw [rank?, present, Option.map_some, Element.countP_before sound.ascending found]

/-- Just those that are no members have no rank. -/
theorem rank?_eq_none_iff (sound : set.Sound) :
    set.rank? member = none ↔ member ∉ set.members := by
  rw [sound.mem_members_iff, Table.contains_iff, rank?, Option.map_eq_none_iff,
    Option.eq_none_iff_forall_ne_some, not_exists]
  rfl

/-- The rank in reverse is the position of the element from the end. -/
theorem exists_reverseRank? (sound : set.Sound) (ranked : set.rank? member = some rank) :
    ∃ reverseRank, set.reverseRank? member = some reverseRank ∧ rank + reverseRank + 1 = set.size ∧
      ∃ score, set.elements.reverse[reverseRank]? = some ⟨member, score⟩ := by
  obtain ⟨score, found⟩ := sound.rank?_eq_some_iff.mp ranked
  have inside : rank < set.size := sound.rank?_lt_size ranked
  have size := sound.size_eq
  -- The rank is below the size, so that neither difference is cut off at zero.
  refine ⟨set.size - 1 - rank, by rw [reverseRank?, ranked, Option.map_some], by omega, score, ?_⟩
  have position : set.elements.length - 1 - (set.size - 1 - rank) = rank := by omega
  rw [List.getElem?_reverse (by omega), position, found]

/-- In a sound set ranks are positions. -/
theorem ranks (sound : set.Sound) : set.Ranks where
  position := fun _ _ => sound.rank?_eq_some_iff
  reverse := fun _ _ => sound.exists_reverseRank?
  absent := fun _ => sound.rank?_eq_none_iff
  absentReverse := fun _ => Option.map_eq_none_iff.trans sound.rank?_eq_none_iff

end Sound

end SortedSet
end ScoreStore
