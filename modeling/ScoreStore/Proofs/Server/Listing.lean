import ScoreStore.Proofs.Command.ListWords
import ScoreStore.Proofs.Range.Cut
import ScoreStore.Proofs.Server.Locality

/-!
Listings of ranges: the reply shows a page of exactly the elements between the
ends, in the order asked for.
-/

namespace ScoreStore

/-- The command that lists a range of scores, upwards or downwards. -/
def CommandName.listsByScore (reverse : Bool) : CommandName :=
  if reverse then .zrevrangebyscore else .zrangebyscore

/-- The command that lists a range of members, upwards or downwards. -/
def CommandName.listsByLex (reverse : Bool) : CommandName :=
  if reverse then .zrevrangebylex else .zrangebylex

/-- Found in a set are the elements whose scores lie between two ends, and no others. -/
structure ScoreRange.Finds (range : ScoreRange) (set : SortedSet) (found : List Element) :
    Prop where
  /-- A member is found with its score exactly if the score satisfies both bounds. -/
  exact : ∀ member score, ⟨member, score⟩ ∈ found ↔
    set.score? member = some score ∧ range.lower.IsBelow score ∧ range.upper.IsAbove score
  /-- No member is found twice. -/
  once : (found.map Element.member).Nodup
  /-- The elements ascend strictly, by the value of the score and then
  by the bytes of the member. -/
  ascending : found.Pairwise fun left right => left.score.value < right.score.value ∨
    left.score.value = right.score.value ∧ left.member < right.member
  /-- Testing every element finds the same as the scan. -/
  scanned : range.cut set.elements = set.elements.filter fun element =>
    range.lower.IsBelow element.score ∧ range.upper.IsAbove element.score

/-- Found in a set are the members between two ends, and no others. -/
structure LexRange.Finds (range : LexRange) (set : SortedSet) (found : List Bytes) : Prop where
  /-- A member is found exactly if it satisfies both bounds, whatever its score. -/
  exact : ∀ member, member ∈ found ↔
    member ∈ set.members ∧ range.lower.IsBelow member ∧ range.upper.IsAbove member
  /-- The members ascend strictly in bytewise order. -/
  ascending : found.Pairwise (· < ·)

namespace SortedSet.Sound

variable {set : SortedSet}

/-- The scan for a range of scores finds the elements between its ends. -/
theorem finds_byScore (sound : set.Sound) {range : ScoreRange} (lower : range.lower.IsNumber)
    (upper : range.upper.IsNumber) : range.Finds set (range.cut set.elements) := by
  have filtered := ScoreRange.cut_eq_filter sound lower upper
  have part : (range.cut set.elements).Sublist set.elements := filtered ▸ List.filter_sublist
  -- What the scan leaves of the elements is as sound as they are.
  refine ⟨fun member score => ?_, ?_, ?_, filtered⟩
  · rw [filtered, List.mem_filter, decide_eq_true_eq, sound.mem_elements_iff]
  · exact sound.nodup_members.sublist (part.map Element.member)
  · exact sound.represents.ascending.sublist part

/-- The scan for a range of members finds the members between its ends. -/
theorem finds_byLex (sound : set.Sound) (range : LexRange) :
    range.Finds set ((range.cut Element.member set.byMember).map Element.member) := by
  have ascending := sound.byMember_ascending
  have filtered := range.cut_eq_filter ascending
  refine ⟨fun member => ?_, ?_⟩
  · -- The members are those of the elements, whichever way these are sorted.
    rw [filtered]
    simp only [members, List.mem_map, List.mem_filter, decide_eq_true_eq, mem_byMember]
    constructor
    · rintro ⟨element, ⟨inside, between⟩, rfl⟩
      exact ⟨⟨element, inside, rfl⟩, between⟩
    · rintro ⟨⟨element, inside, rfl⟩, between⟩
      exact ⟨element, ⟨inside, between⟩, rfl⟩
  · rw [filtered]
    exact List.pairwise_map.mpr (ascending.sublist List.filter_sublist)

end SortedSet.Sound

/-- What is found depends on the members alone, since their order is strict. -/
theorem LexRange.Finds.unique {range : LexRange} {set other : SortedSet}
    {found others : List Bytes} (finds : range.Finds set found) (again : range.Finds other others)
    (same : ∀ member, member ∈ other.members ↔ member ∈ set.members) : others = found := by
  -- Two strictly ascending lists with the same members are the same list.
  have inside : ∀ member, member ∈ others ↔ member ∈ found := fun member => by
    rw [again.exact, finds.exact, same]
  refine List.Perm.eq_of_pairwise (fun first second _ _ less greater => ?_) again.ascending
    finds.ascending ?_
  · exact absurd (List.lt_trans less greater) (List.lt_irrefl first)
  · -- Neither list has a member twice, so that having the same members is enough.
    -- Each member comes before itself otherwise.
    have nodup {members : List Bytes} (ascending : members.Pairwise (· < ·)) : members.Nodup := by
      refine ascending.imp ?_
      intro first second less same
      exact List.lt_irrefl second (same ▸ less)
    exact (List.perm_ext_iff_of_nodup (nodup again.ascending) (nodup finds.ascending)).mpr inside

/-- Without permission no scores are listed. -/
theorem ListOptions.withScores_read {options result : ListOptions} {words : List Bytes}
    (read : ListOptions.read false options words = .ok result) :
    result.withScores = options.withScores := by
  -- The one word that would change the choice is refused.
  fun_induction ListOptions.read false options words <;> simp_all

/-- Without scores the members are listed. -/
theorem Reply.ofElements_false (elements : List Element) :
    -- One item for each element is a map.
    Reply.ofElements false elements = .ofList (elements.map Element.member) := by
  rw [ofElements, List.map_eq_flatMap]
  rfl

theorem map_directed {α β : Type} (change : α → β) (reverse : Bool) (items : List α) :
    (directed reverse items).map change = directed reverse (items.map change) := by
  cases reverse with
  | false => rfl
  | true => exact List.map_reverse

namespace Request

variable {request : Request} {key : Bytes}

/-- A request with a command on sorted sets that takes its words is read as its action is. -/
theorem instruction_reading {name : CommandName} {reading : Except Obstacle SortedSetAction}
    (group : name.group = .sortedSets) (named : request.name = name.text)
    (taken : name.entry.accepts request.words.length = true)
    (first : request.arguments.head? = some key)
    (read : SortedSetAction.ofName? request name = some reading) (site : Site) :
    request.instruction site = reading.map fun action => .act (.sortedSet key action) := by
  -- The words are looked at in the order of the table: their number, the action, and the key.
  have needed : request.need 0 = .ok key := by
    rw [need, ← List.head?_eq_getElem?, first]
  rw [instruction_of_name name named taken, group]
  unfold CommandGroup.instruction
  rw [named, CommandName.ofLowercase?_text]
  simp only [sortedSetAction, read, needed]
  cases reading <;> rfl

/-- A command on sorted sets whose words are in order is read as its action
under the first argument. -/
theorem instruction_sortedSet {name : CommandName} {action : SortedSetAction}
    (group : name.group = .sortedSets) (named : request.name = name.text)
    (taken : name.entry.accepts request.words.length = true)
    (first : request.arguments.head? = some key)
    (read : SortedSetAction.ofName? request name = some (.ok action)) (site : Site) :
    request.instruction site = .ok (.act (.sortedSet key action)) :=
  instruction_reading group named taken first read site

/-- The commands that list ranges take the words that they read. -/
theorem accepts_listing {name : CommandName} {first second : Bytes} {words : List Bytes}
    (arity : name.entry.arity = -4)
    (arguments : request.arguments = key :: first :: second :: words) :
    name.entry.accepts request.words.length = true := by
  simp [CommandEntry.accepts, arity, Request.words, arguments]

end Request

/-- The ends of a range of scores are given in the order in which it is listed. -/
theorem ScoreRange.exists_ends (reverse : Bool) {least greatest : Bytes} {lower upper : ScoreBound}
    (low : ScoreBound.read? least = some lower) (high : ScoreBound.read? greatest = some upper) :
    ∃ first second, directed reverse [least, greatest] = [first, second] ∧
      ScoreRange.read? reverse first second = some ⟨lower, upper⟩ := by
  -- Upwards the first end is the lower one, and downwards the upper one.
  cases reverse with
  | false => exact ⟨least, greatest, rfl, by simp [read?, low, high]⟩
  | true => exact ⟨greatest, least, rfl, by simp [read?, low, high]⟩

/-- The ends of a range of members are given in the order in which it is listed. -/
theorem LexRange.exists_ends (reverse : Bool) {least greatest : Bytes} {lower upper : LexBound}
    (low : LexBound.read? least = some lower) (high : LexBound.read? greatest = some upper) :
    ∃ first second, directed reverse [least, greatest] = [first, second] ∧
      LexRange.read? reverse first second = some ⟨lower, upper⟩ := by
  cases reverse with
  | false => exact ⟨least, greatest, rfl, by simp [read?, low, high]⟩
  | true => exact ⟨greatest, least, rfl, by simp [read?, low, high]⟩

namespace SortedSetAction

variable {request : Request} {key first second : Bytes} {words : List Bytes} {reverse : Bool}
  {options : ListOptions}

/-- A listing of a range is read from its ends and its options. -/
theorem readListByRange_eq {scoresAllowed : Bool}
    {readRange : Bool → Request → Except Obstacle Selection} {selection : Selection}
    (range : readRange reverse request = .ok selection)
    (read : ListOptions.read scoresAllowed {} (request.arguments.drop 3) = .ok options) :
    readListByRange scoresAllowed reverse readRange request =
      .ok (list selection reverse options.page options.withScores) := by
  unfold readListByRange
  rw [range, read]
  rfl

theorem ofName?_listsByScore : ofName? request (.listsByScore reverse) =
    some (readListByRange true reverse readByScore request) := by
  cases reverse <;> rfl

theorem ofName?_listsByLex : ofName? request (.listsByLex reverse) =
    some (readListByRange false reverse readByLex request) := by
  cases reverse <;> rfl

theorem readByScore_eq {range : ScoreRange}
    (arguments : request.arguments = key :: first :: second :: words)
    (ends : ScoreRange.read? reverse first second = some range) :
    readByScore reverse request = .ok (.byScore range) := by
  simp only [readByScore, Request.need, arguments]
  show Request.orRefuse _ ((ScoreRange.read? reverse first second).map _) = _
  rw [ends]
  rfl

theorem readByLex_eq {range : LexRange}
    (arguments : request.arguments = key :: first :: second :: words)
    (ends : LexRange.read? reverse first second = some range) :
    readByLex reverse request = .ok (.byLex range) := by
  simp only [readByLex, Request.need, arguments]
  show Request.orRefuse _ ((LexRange.read? reverse first second).map _) = _
  rw [ends]
  rfl

/-- A listing shows a page of what it selects. -/
theorem effect_list (selection : Selection) (reverse : Bool) (page : Option Page)
    (withScores : Bool) (set : SortedSet) :
    ∃ shown, Page.Shows page (selection.select reverse set) shown ∧
      ((list selection reverse page withScores).effect set).1 = .ofElements withScores shown := by
  -- Without a page all of the selection is shown.
  cases page with
  | none => exact ⟨_, rfl, rfl⟩
  | some page => exact ⟨_, page.shows_cut _, rfl⟩

end SortedSetAction

namespace Server

/-- A connection outside a transaction asks a command of a sorted set, with
these words after the key. -/
structure AsksOf (server : Server) (number : Nat) (request : Request) (verb : CommandName)
    (words : List Bytes) (set : SortedSet) : Prop where
  outside : server.isQueueing number = false
  named : request.name = verb.text
  stored : ∃ key, request.arguments = key :: words ∧
    valueAt server.databases ((server.scope number).connection.selected, key) =
      some (.sortedSet set)

variable {server : Server} {number : Nat} {request : Request} {set : SortedSet}
  {words : List Bytes} {least greatest : Bytes} {options : ListOptions} {reverse : Bool}

/-- What is asked of a stored set is answered from the set alone. -/
theorem AsksOf.answer {name : CommandName} {action : SortedSetAction}
    (asks : server.AsksOf number request name words set) (reached : server.IsReached)
    (group : name.group = .sortedSets)
    (taken : name.entry.accepts request.words.length = true)
    (read : SortedSetAction.ofName? request name = some (.ok action)) :
    (server.handle number request).2 = .ok { reply := (action.effect set).1 } := by
  -- The set is the value of the first argument in the selected database.
  obtain ⟨key, arguments, stored⟩ := asks.stored
  have first : request.arguments.head? = some key := by rw [arguments]; rfl
  have known : CommandName.ofLowercase? request.name = some name :=
    asks.named ▸ CommandName.ofLowercase?_text name
  have single : name.namesOneKey = true := by
    cases name <;> simp_all [CommandName.namesOneKey, CommandName.group]
  -- A request about one key is answered from its value, which is the set.
  have about : request.IsAbout key := ⟨⟨name, known, single⟩, first⟩
  have asked : server.AsksAbout number request
      ((server.scope number).connection.selected, key) := ⟨asks.outside, rfl, about⟩
  have acts := reached.actsOn asked server.site
  rw [acts.answer, Request.effect,
    Request.instruction_sortedSet group asks.named taken first read server.site, stored]
  rfl

/-- A listing of a range shows a page of what the range selects. -/
theorem AsksOf.answer_list {name : CommandName} {first second : Bytes} {scoresAllowed : Bool}
    {readRange : Bool → Request → Except Obstacle Selection} {selection : Selection}
    (asks : server.AsksOf number request name (first :: second :: words) set)
    (reached : server.IsReached) (group : name.group = .sortedSets)
    (arity : name.entry.arity = -4)
    (lists : SortedSetAction.ofName? request name =
      some (SortedSetAction.readListByRange scoresAllowed reverse readRange request))
    (range : readRange reverse request = .ok selection)
    (read : ListOptions.read scoresAllowed {} words = .ok options) :
    ∃ shown, Page.Shows options.page (selection.select reverse set) shown ∧
      (server.handle number request).2 =
        .ok { reply := .ofElements options.withScores shown } := by
  obtain ⟨key, arguments, _⟩ := asks.stored
  -- The options are the words after the ends.
  have listing := SortedSetAction.readListByRange_eq range (by rw [arguments]; exact read)
  have answer := asks.answer reached group (Request.accepts_listing arity arguments)
    (lists.trans (congrArg some listing))
  obtain ⟨shown, page, told⟩ := SortedSetAction.effect_list selection reverse options.page
    options.withScores set
  exact ⟨shown, page, answer.trans (by rw [told])⟩

/-- What can be seen of a sorted set are the elements of the set that is stored. -/
theorem exists_set_of_contentAt {name : KeyName} {elements : List Element}
    (content : server.contentAt name = some (.sortedSet elements)) :
    ∃ set, valueAt server.databases name = some (.sortedSet set) ∧ set.elements = elements := by
  -- A content of elements is that of a set.
  obtain ⟨value, stored, same⟩ := Option.map_eq_some_iff.mp content
  cases value with
  | string content => cases same
  | sortedSet set => exact ⟨set, stored, Content.sortedSet.inj same⟩

/-- A listing of members shows a page of exactly the members between the
ends, upwards or downwards. -/
theorem AsksOf.answer_listsByLex (reached : server.IsReached) {lower upper : LexBound}
    (asks : server.AsksOf number request (.listsByLex reverse)
      (directed reverse [least, greatest] ++ words) set)
    (low : LexBound.read? least = some lower) (high : LexBound.read? greatest = some upper)
    (read : ListOptions.read false {} words = .ok options) :
    ∃ found shown, LexRange.Finds ⟨lower, upper⟩ set found ∧
      Page.Shows options.page (directed reverse found) shown ∧
      (server.handle number request).2 = .ok { reply := .ofList shown } := by
  obtain ⟨key, arguments, stored⟩ := asks.stored
  have sound : set.Sound := (reached.proper_valueAt stored).1
  -- As with scores, the lower end comes second when listing downwards.
  obtain ⟨first, second, ends, range⟩ := LexRange.exists_ends reverse low high
  rw [ends] at asks arguments
  obtain ⟨shown, page, answer⟩ := asks.answer_list reached (by cases reverse <;> rfl)
    (by cases reverse <;> rfl) SortedSetAction.ofName?_listsByLex
    (SortedSetAction.readByLex_eq arguments range) read
  refine ⟨_, shown.map Element.member, sound.finds_byLex ⟨lower, upper⟩, ?_, ?_⟩
  · -- The members of what is shown are what is shown of the members.
    rw [← map_directed]
    exact page.map Element.member
  · -- The command takes no word that asks for scores.
    rw [answer, ListOptions.withScores_read read, Reply.ofElements_false]

end Server
end ScoreStore
