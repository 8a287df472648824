import ScoreStore.Proofs.Connection.Local
import ScoreStore.Proofs.Server.Queueing

/-!
Requests that are about one key: they depend on its value and change nothing else, so that two of
them with different keys may come in either order.
-/

namespace ScoreStore.Server

/-- What can be seen of the value under a key. -/
def contentAt (server : Server) (name : KeyName) : Option Content :=
  (valueAt server.databases name).map Value.content

/-- Some run leads to the server. -/
def IsReached (server : Server) : Prop :=
  ∃ databaseCount endpoint events, (start databaseCount endpoint).run events = server

/-- A request of a connection outside a transaction is about one key of the selected database. -/
structure AsksAbout (server : Server) (number : Nat) (request : Request) (name : KeyName) :
    Prop where
  outside : server.isQueueing number = false
  selected : (server.scope number).connection.selected = name.1
  about : request.IsAbout name.2

/-- A request of a connection touches nothing but one key, and tells of nothing but its value. -/
structure IsLocal (server : Server) (number : Nat) (request : Request) (name : KeyName) :
    Prop where
  /-- There is a reply. -/
  answered : ∃ reply, (server.handle number request).2 = .ok { reply }
  /-- On any server with the same under the key, the reply and what is under
  the key then are the same. -/
  determined : ∀ (other : Server) (otherNumber : Nat) (otherName : KeyName), other.IsReached →
    other.AsksAbout otherNumber request otherName →
    other.contentAt otherName = server.contentAt name →
    (other.handle otherNumber request).2 = (server.handle number request).2 ∧
      (other.handle otherNumber request).1.contentAt otherName =
        (server.handle number request).1.contentAt name
  /-- All other keys and all counts of watchers are kept. -/
  kept : KeepsAllBut name server.databases (server.handle number request).1.databases
  /-- A request that is about another key has the same reply before and after, and both have the
  same effect in either order. -/
  commutes : ∀ (otherNumber : Nat) (otherRequest : Request) (otherName : KeyName),
    server.AsksAbout otherNumber otherRequest otherName → otherName ≠ name →
    let first := server.handle number request
    let second := first.1.handle otherNumber otherRequest
    let early := server.handle otherNumber otherRequest
    let late := early.1.handle number request
    second.2 = early.2 ∧ late.2 = first.2 ∧
      valueAt second.1.databases = valueAt late.1.databases

/-- What comes of a request that is about one key: its effect on the value
under the key, and no other. -/
structure ActsOn (server : Server) (request : Request) (name : KeyName) (site : Site)
    (handled : Handled Server) : Prop where
  answer : handled.2 = .ok { reply := (request.effect site (valueAt server.databases name)).1 }
  value : valueAt handled.1.databases name =
    (request.effect site (valueAt server.databases name)).2
  others : KeepsAllBut name server.databases handled.1.databases
  selected : ∀ number,
    (handled.1.scope number).connection.selected = (server.scope number).connection.selected
  outside : ∀ number, server.isQueueing number = false → handled.1.isQueueing number = false

variable {server other : Server} {number otherNumber : Nat} {request otherRequest : Request}
  {name otherName : KeyName}

namespace IsReached

theorem fits (reached : server.IsReached) : server.Fits := by
  obtain ⟨databaseCount, endpoint, events, rfl⟩ := reached
  exact (fits_start databaseCount endpoint).run events

/-- In every run the databases are in order, and count the watchers that there are. -/
theorem tallied (reached : server.IsReached) : TalliedAll server.holders server.databases := by
  obtain ⟨databaseCount, endpoint, events, rfl⟩ := reached
  exact ((sound_start databaseCount endpoint).run events).tallied

/-- In every run all values are proper. -/
theorem proper (reached : server.IsReached) {index : Nat} {database : Database}
    (found : server.databases[index]? = some database) : database.Proper :=
  (reached.tallied index database found).proper

theorem proper_valueAt (reached : server.IsReached) {value : Value}
    (stored : valueAt server.databases name = some value) : value.Proper := by
  obtain ⟨database, found, stored⟩ := Option.bind_eq_some_iff.mp stored
  exact reached.proper found name.2 value stored

theorem handle (reached : server.IsReached) (number : Nat) (request : Request) :
    (server.handle number request).1.IsReached := by
  obtain ⟨databaseCount, endpoint, events, rfl⟩ := reached
  -- The run goes on by one more event.
  refine ⟨databaseCount, endpoint, events ++ [.request number request], ?_⟩
  rw [run, List.foldl_append]
  rfl

/-- A request that is about one key has its effect on the value under the key, and no other. -/
theorem actsOn (reached : server.IsReached) (asks : server.AsksAbout number request name)
    (site : Site) : server.ActsOn request name site (server.handle number request) := by
  -- The database of the key exists, since the connection has it selected.
  have within : name.1 < server.databases.length :=
    asks.selected ▸ (reached.fits.connections number).selected
  have found := List.getElem?_eq_getElem within
  obtain ⟨after, handled, value, others, selected, outside⟩ :=
    Scope.handle_effect asks.about asks.outside asks.selected found (reached.proper found) site
  -- A request about a key is read alike at every site.
  rw [handle_eq, asks.about.instruction_site server.site site, handled]
  refine ⟨rfl, value, others, fun connection => ?_, fun connection queueing => ?_⟩
  -- The connection itself goes on as before, and the other connections are not touched.
  · by_cases same : number = connection
    · subst same
      rw [scope_withScope]
      exact selected
    · rw [connection_withScope same]
  · unfold isQueueing
    by_cases same : number = connection
    · subst same
      rw [scope_withScope]
      exact outside
    · rw [connection_withScope same]
      exact queueing

end IsReached

namespace ActsOn

variable {site : Site} {handled : Handled Server}

/-- Other requests are about the same keys as before. -/
theorem asksAbout (acts : server.ActsOn request name site handled)
    (asks : server.AsksAbout otherNumber otherRequest otherName) :
    handled.1.AsksAbout otherNumber otherRequest otherName :=
  ⟨acts.outside otherNumber asks.outside, (acts.selected otherNumber).trans asks.selected,
    asks.about⟩

end ActsOn

/-- With the same content under its key a request has the same reply,
and leaves the same content. -/
theorem IsReached.determined (reached : server.IsReached) (otherReached : other.IsReached)
    (asks : server.AsksAbout number request name)
    (otherAsks : other.AsksAbout otherNumber request otherName)
    (same : other.contentAt otherName = server.contentAt name) :
    (other.handle otherNumber request).2 = (server.handle number request).2 ∧
      (other.handle otherNumber request).1.contentAt otherName =
        (server.handle number request).1.contentAt name := by
  -- Both requests have the same effect, read at one site, on values that look the same.
  have acts := reached.actsOn asks server.site
  have otherActs := otherReached.actsOn otherAsks server.site
  obtain ⟨reply, content⟩ : (request.effect server.site (valueAt other.databases otherName)).1 =
      (request.effect server.site (valueAt server.databases name)).1 ∧ _ :=
    -- That stored values are proper is what lets their content settle the effect.
    Request.effect_congr server.site (fun _ => otherReached.proper_valueAt)
      (fun _ => reached.proper_valueAt) same
  refine ⟨?_, ?_⟩
  · rw [otherActs.answer, acts.answer, reply]
  · rw [contentAt, otherActs.value, content, contentAt, acts.value]

/-- Two requests about different keys have the same replies and the same effect in either order. -/
theorem IsReached.commutes (reached : server.IsReached)
    (asks : server.AsksAbout number request name)
    (otherAsks : server.AsksAbout otherNumber otherRequest otherName)
    (different : otherName ≠ name) :
    let first := server.handle number request
    let second := first.1.handle otherNumber otherRequest
    let early := server.handle otherNumber otherRequest
    let late := early.1.handle number request
    second.2 = early.2 ∧ late.2 = first.2 ∧
      valueAt second.1.databases = valueAt late.1.databases := by
  intro first second early late
  have firstActs := reached.actsOn asks server.site
  have earlyActs := reached.actsOn otherAsks server.site
  have secondActs := (reached.handle number request).actsOn (firstActs.asksAbout otherAsks)
    server.site
  have lateActs := (reached.handle otherNumber otherRequest).actsOn (earlyActs.asksAbout asks)
    server.site
  -- Each request finds its value as if the other had not been there.
  have untouched := firstActs.others.valueAt_other different
  have otherUntouched := earlyActs.others.valueAt_other different.symm
  refine ⟨?_, ?_, ?_⟩
  · rw [secondActs.answer, earlyActs.answer, untouched]
  · rw [lateActs.answer, firstActs.answer, otherUntouched]
  · funext place
    -- Each key has what its own request made of it, and any other key what it had.
    by_cases own : place = name
    · subst own
      -- `name` was changed by `request` alone, before or after the other one.
      rw [secondActs.others.valueAt_other different.symm, firstActs.value, lateActs.value,
        otherUntouched]
    · by_cases foreign : place = otherName
      · subst foreign
        -- And `otherName` by `otherRequest` alone.
        rw [secondActs.value, lateActs.others.valueAt_other own, earlyActs.value, untouched]
      · rw [secondActs.others.valueAt_other foreign, firstActs.others.valueAt_other own,
          lateActs.others.valueAt_other own, earlyActs.others.valueAt_other foreign]

/-- In every run a request that is about one key touches nothing else, and tells of nothing else. -/
theorem handle_isLocal (reached : server.IsReached)
    (asks : server.AsksAbout number request name) : server.IsLocal number request name where
  answered := ⟨_, (reached.actsOn asks server.site).answer⟩
  determined := fun _ _ _ otherReached otherAsks same =>
    reached.determined otherReached asks otherAsks same
  kept := (reached.actsOn asks server.site).others
  commutes := fun _ _ _ otherAsks different => reached.commutes asks otherAsks different

/-- Two connections may add to sets in different databases, under keys of the same name. -/
theorem handle_isLocal_zadd :
    let add : Request := ⟨Text.bytes "ZADD", [Text.bytes "z", Text.bytes "1", Text.bytes "a"]⟩
    let server := (start 2 ⟨"localhost", 6379⟩).run [.connect 1, .connect 2, .request 1 add,
      .request 2 ⟨Text.bytes "SELECT", [Text.bytes "1"]⟩]
    server.IsLocal 1 add (0, Text.bytes "z") ∧ server.IsLocal 2 add (1, Text.bytes "z") := by
  intro add server
  have reached : server.IsReached := ⟨2, _, _, rfl⟩
  have about : add.IsAbout (Text.bytes "z") := ⟨⟨.zadd, by decide +kernel, rfl⟩, rfl⟩
  exact ⟨handle_isLocal reached ⟨by decide +kernel, by decide +kernel, about⟩,
    handle_isLocal reached ⟨by decide +kernel, by decide +kernel, about⟩⟩

end ScoreStore.Server
