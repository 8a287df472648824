import ScoreStore.Range.Page

/-! Pages in turn: reading a list page by page up to the first empty page gives the whole list. -/

namespace ScoreStore.Page

variable {α β : Type} {size index : Nat} {items : List α}

/-- What a page holds, by the signs of its offset and of its count. -/
theorem cut_eq (page : Page) (items : List α) : page.cut items =
    if page.offset < 0 then []
    else if 0 ≤ page.count then (items.drop page.offset.toNat).take page.count.toNat
    else items.drop page.offset.toNat := by
  -- The source asks for a negative number, and the statement for one that is not.
  unfold cut
  split
  · rfl
  · split
    · next negative => rw [if_neg (by omega)]
    · next count => rw [if_pos (by omega)]

/-- Nothing is left of a list behind its end. -/
theorem cut_past {page : Page} (past : (items.length : Int) ≤ page.offset) :
    page.cut items = [] := by
  -- Nothing is left behind the end.
  have none : items.drop page.offset.toNat = [] := List.drop_eq_nil_of_le (by omega)
  rw [cut_eq, none, List.take_nil, if_neg (by omega), ite_self]

/-- The page with an index, where all pages before it are as long. -/
def nth (size index : Nat) : Page := ⟨(index * size : Nat), size⟩

/-- Reading pages in turn, from one with an index on up to the first that is
empty, collects these items. -/
inductive Collects (page : Nat → List α) : Nat → List α → Prop
  | done {index : Nat} (empty : page index = []) : Collects page index []
  | next {index : Nat} {items : List α} (shown : page index ≠ [])
      (later : Collects page (index + 1) items) : Collects page index (page index ++ items)

/-- A page in turn holds what the pages before it leave, up to its size. -/
theorem cut_nth (size index : Nat) (items : List α) :
    (nth size index).cut items = (items.drop (index * size)).take size := by
  -- Neither number of a page in turn is negative.
  rw [cut, nth, if_neg (Int.not_lt.mpr (Int.natCast_nonneg _)), Int.toNat_natCast]
  exact (if_neg (Int.not_lt.mpr (Int.natCast_nonneg _))).trans (by rw [Int.toNat_natCast])

/-- A page in turn is empty just if the pages before it leave nothing. -/
theorem cut_nth_eq_nil_iff (positive : 0 < size) :
    (nth size index).cut items = [] ↔ items.length ≤ index * size := by
  -- A page takes at least one element if there is one.
  rw [cut_nth, List.take_eq_nil_iff, List.drop_eq_nil_iff]
  exact or_iff_right (Nat.ne_of_gt positive)

/-- Pages from one with an index on collect what the pages before it leave. -/
theorem collects_drop (positive : 0 < size) (items : List α) (index : Nat) :
    Collects (fun index => (nth size index).cut items) index (items.drop (index * size)) := by
  -- With every page that is not empty less is left.
  induction left : items.length - index * size using Nat.strongRecOn generalizing index with
  | ind left ih =>
    by_cases empty : items.length ≤ index * size
    · rw [List.drop_eq_nil_of_le empty]
      exact .done ((cut_nth_eq_nil_iff positive).mpr empty)
    · -- The next page begins where this one ends.
      have more : (index + 1) * size = index * size + size := Nat.succ_mul index size
      have later := ih _ (by omega) (index + 1) rfl
      rw [more, ← List.drop_drop] at later
      have shown := fun none => empty ((cut_nth_eq_nil_iff positive).mp none)
      have collected := Collects.next shown later
      rw [cut_nth, List.take_append_drop] at collected
      exact collected

/-- Reading pages in turn collects one list only. -/
theorem Collects.unique {page : Nat → List α} {others : List α}
    (collects : Collects page index items) (again : Collects page index others) :
    others = items := by
  -- Whether a page is empty decides if another one is read.
  induction collects generalizing others with
  | done empty =>
    cases again with
    | done => rfl
    | next shown => exact absurd empty shown
  | next shown later ih =>
    cases again with
    | done empty => exact absurd empty shown
    | next _ again => rw [ih again]

/-- Pages in turn collect the whole list, with no item lost or repeated. -/
theorem collects_iff (positive : 0 < size) (items gathered : List α) :
    Collects (fun index => (nth size index).cut items) 0 gathered ↔ gathered = items := by
  -- The pages from the first one on collect the list itself, and what is collected is unique.
  have whole := collects_drop positive items 0
  rw [Nat.zero_mul, List.drop_zero] at whole
  constructor
  · intro collects
    exact whole.unique collects
  · rintro rfl
    exact whole

/-- A page behind one that is not empty is at most as far away as twice the length of the
list, or as the second page. -/
theorem offset_le (length : Nat) {bound : Nat} (second : size ≤ bound)
    (twice : 2 * length ≤ bound)
    (reached : ∀ earlier, index = earlier + 1 → earlier * size < length) :
    index * size ≤ bound := by
  -- The page before lies inside the list, so that the offset is at most its length and a page more.
  cases index with
  | zero => omega
  | succ earlier =>
    have inside := reached earlier rfl
    have more : (earlier + 1) * size = earlier * size + size := Nat.succ_mul earlier size
    cases earlier with
    | zero => omega
    | succ before =>
      -- Behind the first page a page is no longer than what comes before it.
      have least : size ≤ (before + 1) * size := Nat.le_mul_of_pos_left size (Nat.succ_pos before)
      omega

/-- Pages of items that are each written as something collect what the items are written as. -/
theorem Collects.flatMap {page : Nat → List α} (collects : Collects page index items)
    {write : α → List β} (written : ∀ item, write item ≠ []) :
    Collects (fun index => (page index).flatMap write) index (items.flatMap write) := by
  induction collects with
  | done empty => exact .done (by rw [empty]; rfl)
  | next shown later ih =>
    rw [List.flatMap_append]
    refine .next (fun none => ?_) ih
    obtain ⟨item, member⟩ := List.exists_mem_of_ne_nil _ shown
    exact written item (List.flatMap_eq_nil_iff.mp none item member)

end ScoreStore.Page
