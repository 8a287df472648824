import ScoreStore.Proofs.Range.Window
import ScoreStore.Range.Selection

/-!
Mirrored windows: what is at some positions from the start of a list is at the mirrored ones from
its end, and selections downwards are selections upwards in reverse.
-/

namespace ScoreStore

namespace Window

/-- The window of the same positions counted from the other end. -/
def mirrored (window : Window) : Window := ⟨-1 - window.stop, -1 - window.start⟩

variable {window : Window}

/-- A window mirrored twice is the same. -/
theorem mirrored_mirrored (window : Window) : window.mirrored.mirrored = window := by
  obtain ⟨start, stop⟩ := window
  simp only [mirrored, mk.injEq]
  omega

/-- Mirrored ends have 64 bits as well. -/
theorem IsSigned64.mirrored (ends : window.IsSigned64) : window.mirrored.IsSigned64 := by
  obtain ⟨start, stop⟩ := ends
  -- The least integer is the mirror image of the greatest one, so that none is lost.
  have least : Decimal.minSigned64 = -9223372036854775808 := rfl
  have greatest : Decimal.maxSigned64 = 9223372036854775807 := rfl
  constructor <;> dsimp only [Window.mirrored] <;> omega

/-- Mirrored indices name mirrored positions. -/
theorem resolve_mirrored (length : Nat) (index : Int) :
    resolve length (-1 - index) = length - 1 - resolve length index := by
  -- Negative positions count from the other end, and both cases become each other.
  unfold resolve
  split <;> split <;> omega

section Cutting

variable {α : Type} {items : List α}

/-- What lies between two positions lies in reverse between the mirrored
ones of the reversed list. -/
theorem reverse_between {first past : Nat} (ordered : first ≤ past)
    (inside : past ≤ items.length) :
    (items.reverse.take (items.length - first)).drop (items.length - past) =
      ((items.take past).drop first).reverse := by
  -- What is left out at one end is left out at the other.
  have skipped : items.length - (items.length - first) = first := by omega
  have kept : (items.drop first).length - (items.length - past) = past - first := by
    rw [List.length_drop]
    omega
  rw [List.take_reverse, skipped, List.drop_reverse, kept, List.drop_take]

/-- The window from the other end covers the same items, from the other end. -/
theorem cut_mirrored (ends : window.IsSigned64)
    (short : (items.length : Int) ≤ Decimal.maxSigned64) :
    window.mirrored.cut items.reverse = (window.cut items).reverse := by
  -- Both windows are resolved in unbounded integers first.
  have bounds := bounds_of_isSigned64 ends short
  have boundsMirrored := bounds_of_isSigned64 ends.mirrored short
  show (items.reverse.take (window.mirrored.bounds items.reverse.length).2).drop
      (window.mirrored.bounds items.reverse.length).1 =
    ((items.take (window.bounds items.length).2).drop (window.bounds items.length).1).reverse
  rw [List.length_reverse, bounds, boundsMirrored]
  simp only [mirrored, resolve_mirrored]
  generalize resolve items.length window.start = start
  generalize resolve items.length window.stop = stop
  by_cases inverted : min (max (stop + 1) 0) (items.length : Int) ≤ min (max start 0) items.length
  · -- Both windows cover nothing.
    rw [if_pos inverted, if_pos (by omega)]
    rfl
  · -- The first position from one end is the last one from the other.
    have first : (min (max (items.length - 1 - stop) 0) (items.length : Int)).toNat =
        items.length - (min (max (stop + 1) 0) (items.length : Int)).toNat := by omega
    have past : (min (max (items.length - 1 - start + 1) 0) (items.length : Int)).toNat =
        items.length - (min (max start 0) (items.length : Int)).toNat := by omega
    rw [if_neg inverted, if_neg (by omega), first, past]
    exact reverse_between (by omega) (by omega)

end Cutting

end Window

namespace Selection

/-- The selection of the same elements in a listing from the other end. -/
def mirrored : Selection → Selection
  | byRank window => byRank window.mirrored
  | byScore range => byScore range
  | byLex range => byLex range

/-- A selection by position counts in 64 bits, over a set of no more
elements than these can count. -/
def Counts (selection : Selection) (set : SortedSet) : Prop :=
  ∀ window, selection = byRank window →
    window.IsSigned64 ∧ (set.elements.length : Int) ≤ Decimal.maxSigned64

/-- The mirrored selection downwards is the selection upwards in reverse. -/
theorem select_mirrored {selection : Selection} {set : SortedSet} (counts : selection.Counts set) :
    selection.mirrored.select true set = (selection.select false set).reverse := by
  -- Ranges of scores and of members look at the elements, not at their positions.
  cases selection with
  | byScore range => rfl
  | byLex range => rfl
  | byRank window =>
    obtain ⟨ends, short⟩ := counts window rfl
    exact Window.cut_mirrored ends short

end Selection

end ScoreStore
