import ScoreStore.Proofs.Range.Page
import ScoreStore.Proofs.Server.Mirror

/-!
Listings page by page: the pages in turn, up to the first empty one, show
what the listing shows at once.
-/

namespace ScoreStore

/-- The words that ask for a page. -/
def Page.words (page : Page) : List Bytes :=
  [Text.bytes "LIMIT", Decimal.ofInt page.offset, Decimal.ofInt page.count]

/-- The words that ask for a page of 64-bit numbers are read as that page. -/
theorem ListOptions.read_pageWords {page : Page} (scoresAllowed : Bool) (options : ListOptions)
    (offset : Decimal.minSigned64 ≤ page.offset ∧ page.offset ≤ Decimal.maxSigned64)
    (count : Decimal.minSigned64 ≤ page.count ∧ page.count ≤ Decimal.maxSigned64) :
    ListOptions.read scoresAllowed options page.words = .ok { options with page := some page } := by
  -- The word may have any case, and this one is in capitals.
  have limit : Request.lowered (Text.bytes "LIMIT") = "limit" := by decide +kernel
  rw [Page.words, ListOptions.read, limit, if_neg (by simp), if_pos rfl]
  -- What is written as a number is read as that number.
  simp only [Decimal.signed64?_ofInt offset.1 offset.2, Decimal.signed64?_ofInt count.1 count.2]
  rfl

/-- What a listing shows of an element: its member, and its score if scores are asked for. -/
def Element.shown (withScores : Bool) (element : Element) : List Bytes :=
  if withScores then [element.member, element.score.write] else [element.member]

theorem Element.shown_ne_nil (withScores : Bool) (element : Element) :
    element.shown withScores ≠ [] := by
  -- There is a member in any case.
  cases withScores <;> exact List.cons_ne_nil _ _

/-- What a listing shows of the elements that it selects: a page of them, or all. -/
def ListOptions.shown (options : ListOptions) (selected : List Element) : List Bytes :=
  -- Without a page all elements are shown.
  (options.page.elim selected (·.cut selected)).flatMap (Element.shown options.withScores)

namespace Criterion

variable {criterion : Criterion} {words : List Bytes} {options : ListOptions} {page : Page}

/-- A page of 64-bit numbers may be asked for after the other words of a listing of a range. -/
theorem options_pageWords (range : criterion ≠ .byRank)
    (read : criterion.options words = .ok options)
    (offset : Decimal.minSigned64 ≤ page.offset ∧ page.offset ≤ Decimal.maxSigned64)
    (count : Decimal.minSigned64 ≤ page.count ∧ page.count ≤ Decimal.maxSigned64) :
    criterion.options (words ++ page.words) = .ok { options with page := some page } := by
  -- Scores may have been asked for or not, and the page joins what was read.
  have asked (scoresAllowed : Bool) :=
    ListOptions.read_pageWords scoresAllowed options offset count
  cases criterion with
  | byScore => exact (ListOptions.read_append read _).trans (asked true)
  | byLex => exact (ListOptions.read_append read _).trans (asked false)
  | byRank => exact absurd rfl range

/-- A page in turn may be asked for after the other words of a listing of a range, if
its numbers have 64 bits. -/
theorem options_nth {size index : Nat} (range : criterion ≠ .byRank)
    (read : criterion.options words = .ok options)
    (offset : index * size ≤ Decimal.maxSigned64.toNat)
    (count : (size : Int) ≤ Decimal.maxSigned64) :
    criterion.options (words ++ (Page.nth size index).words) =
      .ok { options with page := some (Page.nth size index) } := by
  have least : Decimal.minSigned64 ≤ 0 := by decide
  -- Neither number is negative, so that only their greatest values matter.
  refine options_pageWords range read ⟨?_, ?_⟩ ⟨?_, count⟩
  · exact Int.le_trans least (Int.natCast_nonneg _)
  · exact Int.le_trans (Int.ofNat_le.mpr offset) (by decide)
  · exact Int.le_trans least (Int.natCast_nonneg _)

/-- Ends of a range select no positions. -/
theorem ne_byRank_of_ends? {reverse : Bool} {first second : Bytes} {selection : Selection}
    (range : criterion ≠ .byRank)
    (ends : criterion.ends? reverse first second = some selection) (window : Window) :
    selection ≠ .byRank window := by
  rintro rfl
  cases criterion with
  | byScore | byLex =>
    -- The ends of these are those of scores or of members.
    obtain ⟨_, _, other⟩ := Option.map_eq_some_iff.mp ends
    cases other
  | byRank => exact range rfl

end Criterion

/-- No more elements are selected by a range than there are. -/
theorem SortedSet.Sound.length_select_le {set : SortedSet} (sound : set.Sound)
    {selection : Selection} (range : ∀ window, selection ≠ .byRank window) (reverse : Bool) :
    (selection.select reverse set).length ≤ set.size := by
  -- Downwards the same elements are selected in reverse.
  have same : (selection.select reverse set).length = (selection.select false set).length := by
    cases reverse with
    | false => rfl
    | true =>
      cases selection with
      | byScore | byLex => exact List.length_reverse
      | byRank window => exact absurd rfl (range window)
  obtain ⟨inside, once⟩ := sound.select_inside selection
  rw [same, sound.size_eq]
  exact (List.subperm_of_subset once inside).length_le

namespace Server

/-- Asking a server for pages in turn, from one with an index on up to the first that is
empty, gathers these items. -/
inductive Gathers (number : Nat) (ask : Nat → Request) : Server → Nat → List Bytes → Prop
  | done {server : Server} {index : Nat}
      (told : (server.handle number (ask index)).2 = .ok { reply := .ofList [] }) :
      Gathers number ask server index []
  | next {server : Server} {index : Nat} {shown items : List Bytes} (some : shown ≠ [])
      (told : (server.handle number (ask index)).2 = .ok { reply := .ofList shown })
      (later : Gathers number ask (server.handle number (ask index)).1 (index + 1) items) :
      Gathers number ask server index (shown ++ items)

/-- A listing of some selected elements of a set comes page by page to what it comes to at once. -/
structure ListedInPages (criterion : Criterion) (reverse : Bool) (first second : Bytes)
    (withScores : Bool) (set : SortedSet) (size : Nat) (selected : List Element) : Prop where
  /-- What the pages show, up to the first empty one, is in order what is shown at once. -/
  collects : Page.Collects (fun index => ListOptions.shown ⟨withScores, some (.nth size index)⟩
    selected) 0 (ListOptions.shown ⟨withScores, none⟩ selected)
  /-- Who finds the set is told the page that is asked for, whatever happened since the page before
  it, or everything if no page is asked for. -/
  tells : ∀ (server : Server) number name words page, server.Finds number name set →
    criterion.options words = .ok ⟨withScores, page⟩ →
    server.Tells number (criterion.listing reverse) (name.2 :: first :: second :: words)
      (.ofList (ListOptions.shown ⟨withScores, page⟩ selected))
  /-- The set is found unchanged afterwards. -/
  keeps : ∀ (server : Server) number name words page (request : Request),
    server.Finds number name set → criterion.options words = .ok ⟨withScores, page⟩ →
    request.name = (criterion.listing reverse).text →
    request.arguments = name.2 :: first :: second :: words →
    (server.handle number request).1.Finds number name set
  /-- A client that asks for one page after the other gathers what is shown at once, as long as the
  numbers that it needs have 64 bits. -/
  gathers : ∀ (server : Server) number name words (ask : Nat → Request),
    server.Finds number name set → criterion.options words = .ok ⟨withScores, none⟩ →
    (∀ index, (ask index).name = (criterion.listing reverse).text ∧ (ask index).arguments =
      name.2 :: first :: second :: (words ++ (Page.nth size index).words)) →
    (size : Int) ≤ Decimal.maxSigned64 → 2 * (set.size : Int) ≤ Decimal.maxSigned64 →
    server.Gathers number ask 0 (ListOptions.shown ⟨withScores, none⟩ selected)

section Pages

variable {server : Server} {number : Nat} {name : KeyName} {set : SortedSet}
  {criterion : Criterion} {reverse : Bool} {first second : Bytes} {words : List Bytes}
  {selection : Selection} {options : ListOptions}

/-- A listing shows what it selects, or a page of that, and leaves the set. -/
theorem Finds.lists (finds : server.Finds number name set)
    (ends : criterion.ends? reverse first second = some selection)
    (behind : criterion.options words = .ok options) {request : Request}
    (named : request.name = (criterion.listing reverse).text)
    (arguments : request.arguments = name.2 :: first :: second :: words) :
    (server.handle number request).2 =
      .ok { reply := .ofList (options.shown (selection.select reverse set)) } ∧
    (server.handle number request).1.Finds number name set := by
  have accepted := Request.instruction_listing named arguments server.site
  -- The instruction is read from the words alone.
  rw [Criterion.readListing, ends, behind] at accepted
  obtain ⟨before, after, acts⟩ := finds.acts accepted
  refine ⟨acts.told.trans ?_, acts.finds⟩
  -- What the action lists is what the options show of the elements selected.
  cases options with
  | mk withScores page => cases page <;> rfl

/-- Pages are gathered as they are collected, as long as their numbers have 64 bits. -/
theorem Finds.gathers {page : Nat → List Bytes} {items : List Bytes} {ask : Nat → Request}
    {index : Nat} (collects : Page.Collects page index items)
    (told : ∀ server : Server, server.Finds number name set → ∀ index,
      (∀ earlier, index = earlier + 1 → page earlier ≠ []) →
      (server.handle number (ask index)).2 = .ok { reply := .ofList (page index) } ∧
      (server.handle number (ask index)).1.Finds number name set)
    (reached : ∀ earlier, index = earlier + 1 → page earlier ≠ [])
    (finds : server.Finds number name set) : server.Gathers number ask index items := by
  -- Each page leaves the set for the pages after it.
  induction collects generalizing server with
  | done empty =>
    -- The empty page ends the gathering.
    obtain ⟨answer, -⟩ := told server finds _ reached
    exact .done (empty ▸ answer)
  | next shown later ih =>
    obtain ⟨answer, kept⟩ := told server finds _ reached
    refine .next shown answer (ih ?_ kept)
    intro earlier same
    obtain rfl := Nat.succ.inj same
    exact shown

/-- A range listed page by page comes to what it comes to at once. -/
theorem ListedInPages.of_range (sound : set.Sound) (range : criterion ≠ .byRank)
    (ends : criterion.ends? reverse first second = some selection) (withScores : Bool)
    {size : Nat} (positive : 0 < size) :
    ListedInPages criterion reverse first second withScores set size
      (selection.select reverse set) where
  -- The pages of elements make up all of them, and each element is shown by some words.
  collects := ((Page.collects_iff positive _ _).mpr rfl).flatMap (Element.shown_ne_nil withScores)
  tells _ _ _ _ _ finds behind _ named arguments :=
    (finds.lists ends behind named arguments).1
  keeps _ _ _ _ _ _ finds behind named arguments :=
    (finds.lists ends behind named arguments).2
  gathers server number name words ask finds behind asks second twice := by
    have whole := (Page.collects_iff positive (selection.select reverse set) _).mpr rfl
    have collects := whole.flatMap (Element.shown_ne_nil withScores)
    refine finds.gathers collects (fun server finds index reached => ?_) fun _ other => by
      cases other
    -- A page that is asked for lies behind one that is not empty.
    have offset : index * size ≤ Decimal.maxSigned64.toNat := by
      refine Page.offset_le set.size (by omega) (by omega) fun earlier same => ?_
      refine Nat.lt_of_lt_of_le (Nat.not_le.mp fun past => reached earlier same ?_)
        (sound.length_select_le (Criterion.ne_byRank_of_ends? range ends) reverse)
      rw [(Page.cut_nth_eq_nil_iff positive).mpr past]
      rfl
    have read := Criterion.options_nth range behind offset second
    exact finds.lists ends read (asks index).1 (asks index).2

end Pages

/-- A page holds what is left of a list behind its offset, up to its count unless that is negative,
and nothing for a negative offset or one past the end. Pages in turn, up to the first empty one, are
the whole list. Listings of ranges by score and by member, in either direction, come page by page to
what they come to at once. -/
theorem listings_in_pages :
    (∀ (α : Type) (page : Page) (items : List α),
      page.cut items =
        (if page.offset < 0 then []
        else if 0 ≤ page.count then (items.drop page.offset.toNat).take page.count.toNat
        else items.drop page.offset.toNat) ∧
      Page.Shows (some page) items (page.cut items) ∧
      (items.length ≤ page.offset → page.cut items = [])) ∧
    (∀ (α : Type) (size : Nat) (items gathered : List α), 0 < size →
      (Page.Collects (fun index => (Page.nth size index).cut items) 0 gathered ↔
        gathered = items)) ∧
    ∀ (server : Server) number name set criterion reverse first second selection withScores size,
      server.Finds number name set → criterion ≠ .byRank →
      criterion.ends? reverse first second = some selection → 0 < size →
      ListedInPages criterion reverse first second withScores set size
        (selection.select reverse set) := by
  -- The three parts are about pages of any list, about pages in turn, and about listings.
  refine ⟨fun α page items => ⟨page.cut_eq items, page.shows_cut items, page.cut_past⟩,
    fun α size items gathered positive => Page.collects_iff positive items gathered, ?_⟩
  intro server number name set criterion reverse first second selection withScores size finds
    range ends positive
  exact .of_range finds.sound range ends withScores positive

/-- Three elements downwards are gathered from a full page, one that is
not full and an empty one. -/
theorem listings_in_pages_three :
    let server := (start 1 ⟨"localhost", 6379⟩).run [.connect 1, .request 1 ⟨Text.bytes "ZADD",
      [Text.bytes "z", Text.bytes "1", Text.bytes "a", Text.bytes "1", Text.bytes "b",
        Text.bytes "2", Text.bytes "c"]⟩]
    let ask (index : Nat) : Request := ⟨Text.bytes "ZREVRANGEBYSCORE",
      [Text.bytes "z", Text.bytes "inf", Text.bytes "1"] ++ (Page.nth 2 index).words⟩
    server.Gathers 1 ask 0 [Text.bytes "c", Text.bytes "b", Text.bytes "a"] ∧
    server.Tells 1 .zrevrangebyscore [Text.bytes "z", Text.bytes "inf", Text.bytes "1"]
      (.ofList [Text.bytes "c", Text.bytes "b", Text.bytes "a"]) := by
  intro server ask
  -- The set that the one request leaves is computed.
  have content : server.contentAt (0, Text.bytes "z") = some (.sortedSet
      [⟨Text.bytes "a", ⟨false, 4607182418800017408, by decide⟩⟩,
        ⟨Text.bytes "b", ⟨false, 4607182418800017408, by decide⟩⟩,
        ⟨Text.bytes "c", ⟨false, 4611686018427387904, by decide⟩⟩]) := by decide +kernel
  have reached : server.IsReached := ⟨1, _, _, rfl⟩
  have outside : server.isQueueing 1 = false := by decide +kernel
  have selected : (server.scope 1).connection.selected = 0 := by decide +kernel
  obtain ⟨set, finds, elements⟩ := reached.finds_of_contentAt 1 outside selected content
  have size : set.size = 3 := by
    rw [finds.sound.size_eq, elements]
    rfl
  -- What is shown depends on the elements alone.
  obtain ⟨selection, ends, shown⟩ : ∃ selection,
      Criterion.byScore.ends? true (Text.bytes "inf") (Text.bytes "1") = some selection ∧
        ListOptions.shown ⟨false, none⟩ (selection.select true set) =
          [Text.bytes "c", Text.bytes "b", Text.bytes "a"] := by
    refine ⟨.byScore ⟨.inclusive ⟨false, 4607182418800017408, by decide⟩,
      .inclusive ⟨false, Score.infiniteMagnitude, by decide⟩⟩, by decide +kernel, ?_⟩
    rw [Selection.select, elements]
    decide +kernel
  -- No number of a page of two elements exceeds 64 bits.
  have pages := listings_in_pages.2.2 server 1 _ set .byScore true (Text.bytes "inf")
    (Text.bytes "1") selection false 2 finds (by decide) ends (by decide)
  have named : Request.lowered (Text.bytes "ZREVRANGEBYSCORE") = "zrevrangebyscore" := by
    decide +kernel
  have gathered := pages.gathers server 1 _ [] ask finds rfl (fun index => ⟨named, rfl⟩)
    (by decide) (by rw [size]; decide)
  have told := pages.tells server 1 _ [] none finds rfl
  rw [shown] at gathered told
  exact ⟨gathered, told⟩

end Server
end ScoreStore
