import Mathlib.Data.List.Sort
import ScoreStore.Proofs.Command.Entry
import ScoreStore.Proofs.SortedSet.ScoreMap

/-!
Ranges select what lies between their ends: on a sound set the scan of an
ascending list finds exactly that.
-/

namespace ScoreStore

section Scanning

variable {α : Type} {items : List α} {above below : α → Bool}

/-- Where what lies below an end comes first, the items up to the first one
beyond it are all of them. -/
theorem takeWhile_eq_filter
    (closed : items.Pairwise fun first second => below second = true → below first = true) :
    items.takeWhile below = items.filter below := by
  -- The two can part at the first item beyond the end only.
  induction items with
  | nil => rfl
  | cons head rest ih =>
    obtain ⟨ahead, closed⟩ := List.pairwise_cons.mp closed
    by_cases inside : below head = true
    · rw [List.takeWhile_cons_of_pos inside, List.filter_cons_of_pos inside, ih closed]
    · -- Nothing after an item beyond the end comes back below it.
      have none : rest.filter below = [] :=
        List.filter_eq_nil_iff.mpr fun other member later => inside (ahead other member later)
      rw [List.takeWhile_cons_of_neg inside, List.filter_cons_of_neg inside, none]

/-- Where moreover what lies above an end comes last, a scan finds all items between two ends. -/
theorem takeWhile_dropWhile_eq_filter
    (lower : items.Pairwise fun first second => above first = true → above second = true)
    (upper : items.Pairwise fun first second => below second = true → below first = true) :
    (items.dropWhile fun item => !above item).takeWhile below =
      items.filter fun item => above item && below item := by
  -- Skipping stops at the first item above the lower end, and from there the upper end decides.
  induction items with
  | nil => rfl
  | cons head rest ih =>
    obtain ⟨ahead, lowerRest⟩ := List.pairwise_cons.mp lower
    by_cases inside : above head = true
    · -- The first item above the lower end stops the skipping, and all others lie above it too.
      have all : ∀ item ∈ head :: rest, (above item && below item) = below item := by
        intro item member
        rcases List.mem_cons.mp member with rfl | member
        · rw [inside, Bool.true_and]
        · rw [ahead item member inside, Bool.true_and]
      rw [List.dropWhile_cons_of_neg (by simp [inside]), takeWhile_eq_filter upper,
        List.filter_congr all]
    · -- An item that is not above the lower end is skipped, and the filter leaves it out.
      rw [List.dropWhile_cons_of_pos (by simp [inside]), List.filter_cons_of_neg (by simp [inside]),
        ih lowerRest (List.pairwise_cons.mp upper).2]

end Scanning

namespace ScoreBound

/-- The bound lies below a score, or at it where the end belongs to the range. -/
def IsBelow (bound : ScoreBound) (score : Score) : Prop :=
  match bound with
  | unbounded => True
  | inclusive least => ¬ score.value < least.value
  | exclusive least => least.value < score.value

/-- The bound lies above a score, or at it where the end belongs to the range. -/
def IsAbove (bound : ScoreBound) (score : Score) : Prop :=
  match bound with
  | unbounded => True
  | inclusive greatest => ¬ greatest.value < score.value
  | exclusive greatest => score.value < greatest.value

instance (bound : ScoreBound) (score : Score) : Decidable (bound.IsBelow score) :=
  match bound with
  | unbounded => isTrue trivial
  | inclusive least => inferInstanceAs (Decidable (¬ score.value < least.value))
  | exclusive least => inferInstanceAs (Decidable (least.value < score.value))

instance (bound : ScoreBound) (score : Score) : Decidable (bound.IsAbove score) :=
  match bound with
  | unbounded => isTrue trivial
  | inclusive greatest => inferInstanceAs (Decidable (¬ greatest.value < score.value))
  | exclusive greatest => inferInstanceAs (Decidable (score.value < greatest.value))

/-- The end of the range is a number, if there is one. -/
def IsNumber : ScoreBound → Prop
  | unbounded => True
  | inclusive score => score.isNaN = false
  | exclusive score => score.isNaN = false

variable {bound : ScoreBound} {token : Bytes} {score lesser greater : Score}

/-- What is read as a bound is none, or a number. -/
theorem isNumber_of_read? (read : read? token = some bound) : bound.IsNumber := by
  -- The token is empty, or a number with a bracket in front of it or none.
  unfold read? at read
  split at read
  · obtain rfl := Option.some.inj read
    trivial
  · obtain ⟨score, number, rfl⟩ := Option.map_eq_some_iff.mp read
    exact Score.isNaN_of_readNumber? number
  · obtain ⟨score, number, rfl⟩ := Option.map_eq_some_iff.mp read
    exact Score.isNaN_of_readNumber? number

/-- Numbers are tested against a lower end by their values. -/
theorem liesAbove_iff (ends : bound.IsNumber) (number : score.isNaN = false) :
    bound.liesAbove score = true ↔ bound.IsBelow score := by
  cases bound with
  | unbounded => exact iff_of_true rfl trivial
  | inclusive least => exact Score.atMost_iff ends number
  | exclusive least =>
    have finite : least.isNaN = false := ends
    simp [liesAbove, IsBelow, Score.less, finite, number, Score.value_lt_iff finite number]

/-- Numbers are tested against an upper end by their values. -/
theorem liesBelow_iff (ends : bound.IsNumber) (number : score.isNaN = false) :
    bound.liesBelow score = true ↔ bound.IsAbove score := by
  cases bound with
  | unbounded => exact iff_of_true rfl trivial
  | inclusive greatest => exact Score.atMost_iff number ends
  | exclusive greatest =>
    have finite : greatest.isNaN = false := ends
    simp [liesBelow, IsAbove, Score.less, finite, number, Score.value_lt_iff number finite]

/-- What lies above an end is followed by nothing that does not. -/
theorem liesAbove_mono (order : lesser.place ≤ greater.place) (number : greater.isNaN = false)
    (above : bound.liesAbove lesser = true) : bound.liesAbove greater = true := by
  -- An end that is no number has nothing above it, and otherwise places are compared.
  cases bound with
  | unbounded => rfl
  | inclusive least =>
    simp only [liesAbove, Score.atMost, Bool.and_eq_true, decide_eq_true_eq] at above ⊢
    exact ⟨⟨above.1.1, by simp [number]⟩, by omega⟩
  | exclusive least =>
    simp only [liesAbove, Score.less, Bool.and_eq_true, decide_eq_true_eq] at above ⊢
    exact ⟨⟨above.1.1, by simp [number]⟩, by omega⟩

/-- What lies below an end is preceded by nothing that does not. -/
theorem liesBelow_mono (order : lesser.place ≤ greater.place) (number : lesser.isNaN = false)
    (below : bound.liesBelow greater = true) : bound.liesBelow lesser = true := by
  cases bound with
  | unbounded => rfl
  | inclusive greatest =>
    simp only [liesBelow, Score.atMost, Bool.and_eq_true, decide_eq_true_eq] at below ⊢
    exact ⟨⟨by simp [number], below.1.2⟩, by omega⟩
  | exclusive greatest =>
    simp only [liesBelow, Score.less, Bool.and_eq_true, decide_eq_true_eq] at below ⊢
    exact ⟨⟨by simp [number], below.1.2⟩, by omega⟩

end ScoreBound

namespace ScoreRange

variable {set : SortedSet} {range : ScoreRange}

/-- The scan for a range of scores finds what lies between the ends, in the order of the set. -/
theorem cut_eq_filter (sound : set.Sound) (lower : range.lower.IsNumber)
    (upper : range.upper.IsNumber) :
    range.cut set.elements = set.elements.filter fun element =>
      range.lower.IsBelow element.score ∧ range.upper.IsAbove element.score := by
  -- The elements ascend by their scores, and all scores are numbers, so that both ends cut once.
  have ordered : set.elements.Pairwise fun first second => first.score.isNaN = false ∧
      second.score.isNaN = false ∧ first.score.place ≤ second.score.place := by
    refine sound.ascending.imp_of_mem fun {first second} firstMember secondMember earlier => ?_
    refine ⟨sound.numbers first firstMember, sound.numbers second secondMember, ?_⟩
    rcases Element.before_iff.mp earlier with less | same
    · exact Int.le_of_lt less
    · exact Int.le_of_eq same.1
  have later : set.elements.Pairwise fun first second =>
      range.lower.liesAbove first.score = true → range.lower.liesAbove second.score = true :=
    ordered.imp fun numbers => ScoreBound.liesAbove_mono numbers.2.2 numbers.2.1
  have earlier : set.elements.Pairwise fun first second =>
      range.upper.liesBelow second.score = true → range.upper.liesBelow first.score = true :=
    ordered.imp fun numbers => ScoreBound.liesBelow_mono numbers.2.2 numbers.1
  -- The scan is the filter by both tests, which say what the ends mean for numbers.
  rw [cut, takeWhile_dropWhile_eq_filter later earlier]
  refine List.filter_congr fun element member => ?_
  have number := sound.numbers element member
  rw [Bool.eq_iff_iff, Bool.and_eq_true, ScoreBound.liesAbove_iff lower number,
    ScoreBound.liesBelow_iff upper number, decide_eq_true_eq]

end ScoreRange

namespace LexBound

/-- The bound lies below a member, or at it where the end belongs to the range. -/
def IsBelow (bound : LexBound) (member : Bytes) : Prop :=
  match bound with
  | bottom => True
  | top => False
  | inclusive least => least ≤ member
  | exclusive least => least < member

/-- The bound lies above a member, or at it where the end belongs to the range. -/
def IsAbove (bound : LexBound) (member : Bytes) : Prop :=
  match bound with
  | bottom => False
  | top => True
  | inclusive greatest => member ≤ greatest
  | exclusive greatest => member < greatest

instance (bound : LexBound) (member : Bytes) : Decidable (bound.IsBelow member) :=
  match bound with
  | bottom => isTrue trivial
  | top => isFalse id
  | inclusive least => inferInstanceAs (Decidable (least ≤ member))
  | exclusive least => inferInstanceAs (Decidable (least < member))

instance (bound : LexBound) (member : Bytes) : Decidable (bound.IsAbove member) :=
  match bound with
  | bottom => isFalse id
  | top => isTrue trivial
  | inclusive greatest => inferInstanceAs (Decidable (member ≤ greatest))
  | exclusive greatest => inferInstanceAs (Decidable (member < greatest))

variable {bound : LexBound} {member lesser greater : Bytes}

theorem liesAbove_iff : bound.liesAbove member = true ↔ bound.IsBelow member := by
  cases bound with
  | bottom => exact iff_of_true rfl trivial
  | top => exact iff_of_false Bool.false_ne_true id
  | inclusive least => exact Bytes.atMost_iff_le
  | exclusive least => exact Bytes.before_iff_lt

theorem liesBelow_iff : bound.liesBelow member = true ↔ bound.IsAbove member := by
  cases bound with
  | bottom => exact iff_of_false Bool.false_ne_true id
  | top => exact iff_of_true rfl trivial
  | inclusive greatest => exact Bytes.atMost_iff_le
  | exclusive greatest => exact Bytes.before_iff_lt

/-- What a bound lies below is followed by nothing else. -/
theorem IsBelow.mono (below : bound.IsBelow lesser) (order : lesser < greater) :
    -- Only an end that is a member compares anything.
    bound.IsBelow greater := by
  cases bound with
  | bottom => trivial
  | top => exact below
  | inclusive least => exact List.le_of_lt (List.lt_of_le_of_lt below order)
  | exclusive least => exact List.lt_trans below order

/-- What a bound lies above is preceded by nothing else. -/
theorem IsAbove.mono (above : bound.IsAbove greater) (order : lesser < greater) :
    bound.IsAbove lesser := by
  cases bound with
  | bottom => exact above
  | top => trivial
  | inclusive greatest => exact List.le_trans (List.le_of_lt order) above
  | exclusive greatest => exact List.lt_trans order above

end LexBound

/-- The scan for a range of members finds what lies between the ends, where the members ascend. -/
theorem LexRange.cut_eq_filter {α : Type} {member : α → Bytes} {items : List α} (range : LexRange)
    (ascending : items.Pairwise fun first second => member first < member second) :
    range.cut member items = items.filter fun item =>
      range.lower.IsBelow (member item) ∧ range.upper.IsAbove (member item) := by
  unfold cut
  split
  · -- Nothing lies above the end above all members, or below the end below them.
    next empty =>
    refine (List.filter_eq_nil_iff.mpr fun item _ => ?_).symm
    rw [isEmpty, Bool.or_eq_true, beq_iff_eq, beq_iff_eq] at empty
    rw [decide_eq_true_eq]
    rintro ⟨below, above⟩
    rcases empty with upper | lower
    · rw [upper] at above
      exact above
    · rw [lower] at below
      exact below
  · -- In ascending order each end cuts the list once.
    have later : items.Pairwise fun first second =>
        range.lower.liesAbove (member first) = true →
          range.lower.liesAbove (member second) = true :=
      ascending.imp fun order below =>
        LexBound.liesAbove_iff.mpr ((LexBound.liesAbove_iff.mp below).mono order)
    have earlier : items.Pairwise fun first second =>
        range.upper.liesBelow (member second) = true →
          range.upper.liesBelow (member first) = true :=
      ascending.imp fun order above =>
        LexBound.liesBelow_iff.mpr ((LexBound.liesBelow_iff.mp above).mono order)
    -- The two tests are what the ends mean.
    rw [takeWhile_dropWhile_eq_filter later earlier]
    refine List.filter_congr fun item _ => ?_
    rw [Bool.eq_iff_iff, Bool.and_eq_true, LexBound.liesAbove_iff, LexBound.liesBelow_iff,
      decide_eq_true_eq]

namespace SortedSet

variable {set : SortedSet}

/-- Sorting by members keeps all elements. -/
theorem mem_byMember {element : Element} : element ∈ set.byMember ↔ element ∈ set.elements :=
  mem_sortBy _

/-- Sorted by their members, the elements of a sound set ascend strictly. -/
theorem Sound.byMember_ascending (sound : set.Sound) :
    set.byMember.Pairwise fun first second => first.member < second.member := by
  -- No member occurs twice, so that any two of them can be compared.
  have distinct : set.elements.Pairwise fun first second => first.member ≠ second.member :=
    List.pairwise_map.mp sound.nodup_members
  -- Sorting by member needs an order that is total on these members.
  exact (pairwise_sortBy (fun left right : Element => Bytes.before left.member right.member)
    Bytes.before_trans (distinct.imp Bytes.before_total)).imp Bytes.before_iff_lt.mp

end SortedSet

namespace Page

variable {α β : Type}

/-- What a page shows of a list: the items from the offset on, up to the count unless that is
negative, and all items if there is no page. -/
def Shows (page : Option Page) (items shown : List α) : Prop :=
  match page with
  | none => shown = items
  | some page => ∀ position : Nat, shown[position]? =
      if 0 ≤ page.offset ∧ (page.count < 0 ∨ position < page.count) then
        items[page.offset.toNat + position]?
      else none

/-- What is cut out of a list for a page is what the page shows of it. -/
theorem shows_cut (page : Page) (items : List α) : Shows (some page) items (page.cut items) := by
  intro position
  -- A negative offset shows nothing, and a negative count has no end.
  unfold cut
  split
  · next negative => rw [if_neg (by omega), List.getElem?_nil]
  · next offset =>
    split
    · next count => rw [if_pos ⟨by omega, Or.inl count⟩, List.getElem?_drop]
    · next count =>
      rw [List.getElem?_take, List.getElem?_drop]
      -- Positions are compared with the count as whole numbers.
      by_cases inside : (position : Int) < page.count
      · rw [if_pos (by omega), if_pos ⟨by omega, Or.inr inside⟩]
      · rw [if_neg (by omega), if_neg (by omega)]

/-- A page shows one part of a list only. -/
theorem Shows.unique {page : Option Page} {items shown other : List α}
    (paged : Shows page items shown) (again : Shows page items other) : other = shown := by
  cases page with
  -- Without a page all items are shown.
  | none => exact again.trans (Eq.symm paged)
  | some page =>
    -- Each position is told.
    refine List.ext_getElem? fun position => ?_
    rw [again position, paged position]

/-- What is shown of a list is changed as the list is. -/
theorem Shows.map {page : Option Page} {items shown : List α} (paged : Shows page items shown)
    (change : α → β) : Shows page (items.map change) (shown.map change) := by
  cases page with
  | none => exact congrArg (List.map change) paged
  | some page =>
    -- An item that is changed stays at its position.
    intro position
    rw [List.getElem?_map, paged position]
    split
    · rw [List.getElem?_map]
    · rfl

end Page
end ScoreStore
