import ScoreStore.Proofs.Command.Additions
import ScoreStore.Proofs.Server.AddWords
import ScoreStore.Proofs.Server.Finding
import ScoreStore.Proofs.Server.Locking

/-! Adding scores: the scores that a request leaves, and what its reply tells of them. -/

namespace ScoreStore

/-- The version of a key in the database of its index. -/
def versionAt (databases : List Database) (name : KeyName) : Option Nat :=
  databases[name.1]?.map (·.version name.2)

/-- Neither the value nor the version under a key is another one afterwards. -/
structure Untouched (name : KeyName) (before after : List Database) : Prop where
  value : valueAt after name = valueAt before name
  version : versionAt after name = versionAt before name

namespace Server

variable {server : Server} {number : Nat} {name : KeyName} {set : SortedSet} {request : Request}
  {instruction : Instruction}

/-- A request adds members to a set, and counts them or all scores that it changes. -/
structure Counts (server : Server) (number : Nat) (name : KeyName) (request : Request)
    (added changed : Nat) : Prop where
  /-- Changes are counted if they are asked for. -/
  told : (server.handle number request).2 =
    .ok { reply := .count (if request.hasOption "ch" then changed else added) }
  /-- The number of elements that is told afterwards is greater by the added members
  than the one told before. -/
  sizes : ∃ size, server.Tells number .zcard [name.2] (.count size) ∧
    (server.handle number request).1.Tells number .zcard [name.2] (.count (size + added))
  /-- Every added member is a change. -/
  atLeast : added ≤ changed
  /-- Every change is made by a pair of the request. -/
  atMost : changed ≤ request.additions.length
  /-- Without a change nothing is touched. -/
  untouched : changed = 0 →
    Untouched name server.databases (server.handle number request).1.databases
  /-- Whatever changes gives the key a new version, as long as there are versions to give out: those
  of a database stop at the greatest one. -/
  touched : (server.handle number request).1.VersionsRemain →
    Untouched name server.databases (server.handle number request).1.databases → changed = 0

/-- A request increments the score of a member, and tells the sum, that a condition prevented
it, or that there is no sum. -/
structure Increments (server : Server) (number : Nat) (name : KeyName) (set : SortedSet)
    (request : Request) (member : Bytes) (amount : Score) : Prop where
  /-- Nothing else is told. -/
  forms : ∃ reply, (server.handle number request).2 = .ok { reply } ∧
    (reply = .missing ∨ reply = Refusal.sumNotANumber.reply ∨ ∃ text, reply = .bulk text)
  /-- A text is what is told as the score of the member afterwards. -/
  score : ∀ text, (server.handle number request).2 = .ok { reply := .bulk text } →
    (server.handle number request).1.Tells number .zscore [name.2, member] (.bulk text)
  /-- The reply is missing exactly if a condition prevented the increment. -/
  prevented : (server.handle number request).2 = .ok { reply := .missing } ↔
    request.addRule.Prevents (set.score? member) amount
  /-- The reply tells of a sum that is no number exactly if there is one, and no
  condition on presence came before. -/
  lacking : (server.handle number request).2 = .ok { reply := Refusal.sumNotANumber.reply } ↔
    request.addRule.LacksSum (set.score? member) amount
  /-- Without a sum nothing is touched. -/
  untouched : (server.handle number request).2 = .ok { reply := .missing } ∨
      (server.handle number request).2 = .ok { reply := Refusal.sumNotANumber.reply } →
    Untouched name server.databases (server.handle number request).1.databases

namespace Acts

variable {action : SortedSetAction} {before after : Database} {handled : Handled Server}

/-- An action that writes nothing leaves the value and the version under its key. -/
theorem untouched (acts : server.Acts number name set action before after handled)
    (idle : action.writes set = false) :
    Untouched name server.databases handled.1.databases := by
  -- The key is the only one that the action could have written.
  have unwritten : ¬ (name.2 = name.2 ∧ action.writes set = true) := by simp [idle]
  refine ⟨?_, ?_⟩
  · rw [valueAt, valueAt, acts.found, acts.changed]
    exact acts.writes.value name.2 unwritten
  · simp only [versionAt, acts.found, acts.changed, Option.map_some, Database.version,
      acts.writes.kept name.2 unwritten]

/-- Scores that are given and written touch the key, as long as there are versions to give out. -/
theorem touched {rule : AddRule} {countChanges : Bool} {elements : List Element}
    (finds : server.Finds number name set)
    (acts : server.Acts number name set (.add rule countChanges elements) before after handled)
    (wrote : (SortedSetAction.add rule countChanges elements).writes set = true)
    (remain : handled.1.VersionsRemain) :
    ¬ Untouched name server.databases handled.1.databases := by
  intro same
  obtain ⟨database, found, stored⟩ := finds.exists_database
  obtain rfl : before = database := Option.some.inj (acts.found.symm.trans found)
  -- What the action ran on is the database with the set.
  obtain ⟨last, ran, _, _⟩ := Database.addMembers_spec stored rule {} elements
  have run := acts.ran
  simp only [SortedSetAction.run, ran] at run
  obtain rfl := (Prod.mk.inj run).2
  -- The version afterwards is greater than all that were given out before, so than that of the key.
  have newer := Database.lt_version_addMembers stored ran wrote
    (remain last (List.mem_of_getElem? acts.changed))
  have older := (finds.reached.tallied name.1 before found).sound.version_le name.2
  have version := same.version
  simp only [versionAt, acts.found, acts.changed, Option.map_some, Option.some.injEq] at version
  omega

end Acts

namespace Finds

/-- Scores that are no increments are counted, as new members or as changes. -/
theorem counts (finds : server.Finds number name set) (adds : request.Adds name.2 instruction)
    (accepted : request.instruction server.site = .ok instruction)
    (plain : request.hasOption "incr" = false) :
    ∃ added, server.Counts number name request added
      (set.changes request.addRule request.additions) := by
  obtain ⟨rfl, _, _, numbers, _, _⟩ := adds
  obtain ⟨before, after, acts⟩ := finds.acts accepted
  have noIncrement : request.addRule.increment = false := plain
  -- Three things are asked of the same run: what it tells, what it leaves, and what it writes.
  obtain ⟨total, ran, added, changed⟩ := finds.sound.addAll_counts noIncrement numbers {}
  have idle := finds.sound.changes_eq_zero_iff noIncrement numbers
  have zcard := acts.finds.tells_zcard
  -- The tally starts from nothing, so that it counts what this request does.
  have sizes : (set.addAll request.addRule {} request.additions).2.size =
      set.size + total.added := by
    simp only at added
    omega
  have changes : total.added + total.updated =
      set.changes request.addRule request.additions := by
    simp only at changed
    omega
  refine ⟨total.added, ?_, ⟨set.size, finds.tells_zcard, ?_⟩, by omega,
    SortedSet.changes_le_length _ _ _, fun none => acts.untouched (idle.mp none), ?_⟩
  · -- The reply takes one of the two numbers, by the option.
    rw [acts.told]
    simp only [SortedSetAction.effect, ran, AddTally.reply, noIncrement, Bool.false_eq_true,
      if_false, changes]
  · rw [← sizes]
    exact zcard
  · -- A change is a write, and whatever writes touches the key, also where
    -- it writes back what was there.
    intro remain same
    by_contra different
    have wrote := Bool.not_eq_false _ ▸ mt idle.mpr different
    exact acts.touched finds wrote remain same

/-- An increment is told as its outcome is. -/
theorem increments (finds : server.Finds number name set)
    (adds : request.Adds name.2 instruction)
    (accepted : request.instruction server.site = .ok instruction)
    (increment : request.hasOption "incr" = true) :
    ∃ member amount, request.additions = [⟨member, amount⟩] ∧
      server.Increments number name set request member amount := by
  obtain ⟨rfl, _, _, numbers, single, _⟩ := adds
  -- An increment has one pair only.
  obtain ⟨⟨member, amount⟩, asked⟩ := List.length_eq_one_iff.mp (single increment)
  rw [asked] at accepted numbers
  have known : amount.isNaN = false := numbers _ List.mem_cons_self
  obtain ⟨before, after, acts⟩ := finds.acts accepted
  have told := acts.told
  have later := acts.finds
  rw [SortedSetAction.effect_increment increment] at told later
  -- The reply is what is told of the outcome, and no other reply is.
  have replies (reply : Reply) : (server.handle number request).2 = .ok { reply } ↔
      (set.add request.addRule member amount).1.told = reply := by
    rw [told]
    simp
  refine ⟨member, amount, asked, ⟨_, told, AddOutcome.told_forms _⟩, ?_, ?_, ?_, ?_⟩
  · -- The score that is told is the one that is found afterwards.
    intro text answered
    have zscore := later.tells_zscore member
    rw [finds.sound.score?_of_told_add ((replies _).mp answered)] at zscore
    exact zscore
  · -- What is missing and what is refused tells the case of the outcome.
    rw [replies]
    exact finds.sound.told_add_eq_missing_iff increment known
  · rw [replies]
    exact finds.sound.told_add_eq_refusal_iff increment known
  · -- Neither of the two replies is told where something is written.
    rw [replies, replies]
    intro silent
    exact acts.untouched (SortedSetAction.writes_of_told silent)

end Finds

/-- The scores that are left by an accepted request to add some, without an increment, are those
that its rule declares of the scores before and of those that are given. -/
theorem additions_settle (finds : server.Finds number name set)
    (named : request.name = CommandName.zadd.text)
    (first : request.arguments.head? = some name.2)
    (accepted : request.instruction server.site = .ok instruction)
    (plain : request.hasOption "incr" = false) :
    ∃ after, (server.handle number request).1.Finds number name after ∧
      (∀ member ∈ request.additions.map Element.member,
        request.addRule.Leaves (set.score? member) (Element.scoresOf member request.additions)
          (after.score? member)) ∧
      (∀ member, member ∉ request.additions.map Element.member →
        after.score? member = set.score? member) ∧
      ((valueAt (server.handle number request).1.databases name).isSome = true ↔
        (valueAt server.databases name).isSome = true ∨
          ∃ member, set.score? member = none ∧ (after.score? member).isSome = true) := by
  obtain ⟨rfl, _, _, numbers, _, oneWay⟩ := Request.adds_of_accepted named first accepted
  obtain ⟨before, last, acts⟩ := finds.acts accepted
  have noIncrement : request.addRule.increment = false := plain
  -- By its member each score is settled from the ones given to it alone.
  have settled := finds.sound.score?_addAll_eq noIncrement numbers {}
  have exists_iff := acts.finds.exists_iff
  rw [acts.finds.sound.elements_ne_nil_iff] at exists_iff
  refine ⟨_, acts.finds, ?_, ?_, ?_⟩
  · -- The given scores are numbers, and a member that is named is given some.
    intro member named
    have given : ∀ score ∈ Element.scoresOf member request.additions, score.isNaN = false := by
      intro score inside
      obtain ⟨element, chosen, rfl⟩ := List.mem_map.mp inside
      exact numbers element (List.mem_of_mem_filter chosen)
    show request.addRule.Leaves _ _
      ((set.addAll request.addRule {} request.additions).2.score? member)
    rw [settled member]
    exact AddRule.leaves_settle noIncrement oneWay (Element.scoresOf_ne_nil_iff.mpr named) given _
  · -- A member that is not named is given nothing.
    intro member unnamed
    have none : Element.scoresOf member request.additions = [] := by
      by_contra given
      exact unnamed (Element.scoresOf_ne_nil_iff.mp given)
    show (set.addAll request.addRule {} request.additions).2.score? member = _
    rw [settled member, none]
    rfl
  · -- A set is stored exactly if it has a member.
    rw [exists_iff, finds.exists_iff, finds.sound.elements_ne_nil_iff]
    constructor
    · -- A member that is there afterwards was there before or is new.
      rintro ⟨member, present⟩
      cases absent : set.score? member with
      | none => exact Or.inr ⟨member, absent, present⟩
      | some score => exact Or.inl ⟨member, by rw [absent]; rfl⟩
    · rintro (⟨member, present⟩ | ⟨member, _, present⟩)
      · exact ⟨member, SortedSet.score?_addAll request.addRule {} request.additions present⟩
      · exact ⟨member, present⟩

/-- Of several greater scores the greatest is left, for members that were
there before as for new ones. -/
theorem additions_settle_greatest :
    let server := (start 1 ⟨"localhost", 6379⟩).run [.connect 1, .request 1 ⟨Text.bytes "ZADD",
      [Text.bytes "z", Text.bytes "1", Text.bytes "a"]⟩]
    let request : Request := ⟨Text.bytes "ZADD", [Text.bytes "z", Text.bytes "GT",
      Text.bytes "-5", Text.bytes "a", Text.bytes "7", Text.bytes "b", Text.bytes "7",
      Text.bytes "a", Text.bytes "-5", Text.bytes "b"]⟩
    let one : Score := ⟨false, 4607182418800017408, by decide⟩
    let seven : Score := ⟨false, 4619567317775286272, by decide⟩
    let minusFive : Score := ⟨true, 4617315517961601024, by decide⟩
    ∃ set after, server.Finds 1 (0, Text.bytes "z") set ∧
      (server.handle 1 request).1.Finds 1 (0, Text.bytes "z") after ∧
      set.score? (Text.bytes "a") = some one ∧
      (∃ score, after.score? (Text.bytes "a") = some score ∧
        score.IsGreatest [one, minusFive, seven]) ∧
      ∃ score, after.score? (Text.bytes "b") = some score ∧
        score.IsGreatest [seven, minusFive] := by
  intro server request one seven minusFive
  have content : server.contentAt (0, Text.bytes "z") =
      some (.sortedSet [⟨Text.bytes "a", one⟩]) := by decide +kernel
  have reached : server.IsReached := ⟨1, _, _, rfl⟩
  obtain ⟨set, finds, elements⟩ :=
    reached.finds_of_contentAt 1 (by decide +kernel) (by decide +kernel) content
  have rule : request.addRule = { onlyGreater := true } := by decide +kernel
  have additions : request.additions = [⟨Text.bytes "a", minusFive⟩, ⟨Text.bytes "b", seven⟩,
      ⟨Text.bytes "a", seven⟩, ⟨Text.bytes "b", minusFive⟩] := by decide +kernel
  have read : (request.instruction server.site).isOk = true := by decide +kernel
  obtain ⟨instruction, accepted⟩ := Request.exists_of_isOk read
  obtain ⟨after, found, named, _⟩ := additions_settle finds (by decide +kernel) rfl accepted
    (by decide +kernel)
  -- One of the two members is there before, and the other one is not.
  have present : set.score? (Text.bytes "a") = some one :=
    finds.sound.mem_elements_iff.mp (by rw [elements]; exact List.mem_cons_self)
  have absent : set.score? (Text.bytes "b") = none := by
    by_contra scored
    obtain ⟨score, scored⟩ := Option.ne_none_iff_exists'.mp scored
    have inside := finds.sound.mem_elements_iff.mpr scored
    rw [elements, List.mem_singleton] at inside
    have same : Text.bytes "b" = Text.bytes "a" := congrArg Element.member inside
    exact absurd same (by decide +kernel)
  rw [rule, additions] at named
  have old := named (Text.bytes "a") (by decide)
  have new := named (Text.bytes "b") (by decide)
  -- Both members are named, so that both are settled by the general statement.
  rw [present] at old
  rw [absent] at new
  exact ⟨set, after, finds, found, present, old, new⟩

/-- Accepted requests to add scores report what happened: without an increment members or changes
are counted, and with one the sum is told, or why there is none. That a change is seen by the
version of the key, too, is the one part that needs versions to be left to give out. -/
theorem additions_reported (finds : server.Finds number name set)
    (named : request.name = CommandName.zadd.text)
    (first : request.arguments.head? = some name.2)
    (accepted : request.instruction server.site = .ok instruction) :
    (request.hasOption "incr" = false → ∃ added, server.Counts number name request added
      (set.changes request.addRule request.additions)) ∧
    (request.hasOption "incr" = true → ∃ member amount,
      request.additions = [⟨member, amount⟩] ∧
        server.Increments number name set request member amount) := by
  have adds := Request.adds_of_accepted named first accepted
  exact ⟨finds.counts adds accepted, finds.increments adds accepted⟩

/-- A score that is changed and changed back is counted twice, and
opposite infinities have no sum. -/
theorem additions_reported_back :
    let server := (start 1 ⟨"localhost", 6379⟩).run [.connect 1, .request 1 ⟨Text.bytes "ZADD",
      [Text.bytes "z", Text.bytes "1", Text.bytes "a", Text.bytes "inf", Text.bytes "b"]⟩]
    let back : Request := ⟨Text.bytes "ZADD", [Text.bytes "z", Text.bytes "CH",
      Text.bytes "2", Text.bytes "a", Text.bytes "1", Text.bytes "a"]⟩
    let sum : Request := ⟨Text.bytes "ZADD", [Text.bytes "z", Text.bytes "INCR",
      Text.bytes "-inf", Text.bytes "b"]⟩
    ∃ set added, server.Finds 1 (0, Text.bytes "z") set ∧
      server.Counts 1 (0, Text.bytes "z") back added (set.changes back.addRule back.additions) ∧
      ((server.handle 1 back).2.toOption.map fun answer => answer.reply.encode) =
        some (Text.bytes ":2\r\n") ∧
      (server.handle 1 sum).2 = .ok { reply := Refusal.sumNotANumber.reply } ∧
      Untouched (0, Text.bytes "z") server.databases (server.handle 1 sum).1.databases := by
  intro server back sum
  have content : server.contentAt (0, Text.bytes "z") = some (.sortedSet
      [⟨Text.bytes "a", ⟨false, 4607182418800017408, by decide⟩⟩,
        ⟨Text.bytes "b", ⟨false, Score.infiniteMagnitude, by decide⟩⟩]) := by decide +kernel
  have reached : server.IsReached := ⟨1, _, _, rfl⟩
  obtain ⟨set, finds, elements⟩ :=
    reached.finds_of_contentAt 1 (by decide +kernel) (by decide +kernel) content
  -- Both requests are accepted, which is all that is asked of their words.
  have readBack : (back.instruction server.site).isOk = true := by decide +kernel
  have readSum : (sum.instruction server.site).isOk = true := by decide +kernel
  obtain ⟨_, acceptedBack⟩ := Request.exists_of_isOk readBack
  obtain ⟨_, acceptedSum⟩ := Request.exists_of_isOk readSum
  obtain ⟨added, counts⟩ := (additions_reported finds (by decide +kernel) rfl acceptedBack).1
    (by decide +kernel)
  obtain ⟨member, amount, asked, increments⟩ :=
    (additions_reported finds (by decide +kernel) rfl acceptedSum).2 (by decide +kernel)
  -- The member has the one infinity, and the other one is added to it.
  have given : sum.additions =
      [⟨Text.bytes "b", ⟨true, Score.infiniteMagnitude, by decide⟩⟩] := by decide +kernel
  obtain ⟨rfl, rfl⟩ := Element.mk.inj (List.cons.inj (asked.symm.trans given)).1
  have present : set.score? (Text.bytes "b") = some ⟨false, Score.infiniteMagnitude, by decide⟩ :=
    finds.sound.mem_elements_iff.mp (by rw [elements]; simp)
  have lacks : sum.addRule.LacksSum (set.score? (Text.bytes "b"))
      ⟨true, Score.infiniteMagnitude, by decide⟩ :=
    ⟨_, present, by decide +kernel, by decide +kernel⟩
  have told := increments.lacking.mpr lacks
  exact ⟨set, added, finds, counts, by decide +kernel, told, increments.untouched (Or.inr told)⟩

end Server
end ScoreStore
