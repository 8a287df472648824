import ScoreStore.Proofs.Command.Reading
import ScoreStore.Proofs.Connection.Fits
import ScoreStore.Proofs.Server.Run

/-!
In every run the connections of a server can go on, and its databases stay as many as they were.
-/

namespace ScoreStore.Server

/-- There is a database, and all connections fit the databases. -/
structure Fits (server : Server) : Prop where
  /-- There is a database. -/
  nonempty : 0 < server.databases.length
  /-- What every connection selects is a database. -/
  connections : ∀ number, (server.scope number).Fits

/-- All connections fit a server that has just started. -/
theorem fits_start (databaseCount : Nat) (endpoint : Endpoint) :
    (start databaseCount endpoint).Fits := by
  -- There is at least one database, and a new connection selects the first.
  have length : (start databaseCount endpoint).databases.length = max databaseCount 1 :=
    List.length_replicate
  have positive : 0 < (start databaseCount endpoint).databases.length := by omega
  exact ⟨positive, fun number => ⟨positive, fun _ member => absurd member List.not_mem_nil⟩⟩

namespace Fits

variable {server : Server} {number : Nat}

/-- All connections still fit when one of them does something that it fits. -/
theorem withScope {scope : Scope} (fits : server.Fits) (own : scope.Fits)
    (length : scope.databases.length = server.databases.length) :
    (server.withScope number scope).Fits where
  nonempty := length.symm ▸ fits.nonempty
  -- Only one connection is replaced, but all of them see the same databases.
  connections := by
    intro other
    by_cases same : number = other
    · subst same
      simpa [Server.scope, Server.withScope, Scope.Fits] using own
    · have others := fits.connections other
      simpa [Server.scope, Server.withScope, Scope.Fits, same, length] using others

/-- What a request of a connection is read as fits the connection. -/
theorem handle (fits : server.Fits) (number : Nat) (request : Request) :
    (server.handle number request).1.Fits := by
  have own := fits.connections number
  rw [handle_eq]
  refine fits.withScope ?_ (Scope.length_handle _ _)
  -- A request that is refused changes neither the selection nor the queue.
  cases read : request.instruction server.site with
  | ok instruction => exact own.follow (Request.instruction_fits read)
  | error obstacle => cases obstacle <;> exact ⟨own.selected, own.queue⟩

/-- All connections still fit when one of them is opened. -/
theorem connect (fits : server.Fits) (number : Nat) : (server.connect number).Fits := by
  unfold Server.connect
  split
  · -- A number that is taken stays with the connection that has it.
    exact fits
  · refine ⟨fits.nonempty, fun other => ?_⟩
    -- A new connection has the first database selected and an empty queue.
    by_cases same : number = other
    · subst same
      refine ⟨?_, ?_⟩ <;> simp [Server.scope, fits.nonempty]
    · have others := fits.connections other
      simpa [Server.scope, Scope.Fits, same] using others

/-- All connections still fit when one of them is closed. -/
theorem close (fits : server.Fits) (number : Nat) : (server.close number).Fits := by
  unfold Server.close
  split
  · -- Leaving a transaction locks and unlocks names, but no database comes or goes.
    have length : (server.scope number).leaveTransaction.databases.length =
        server.databases.length := Scope.length_leaveTransaction _
    generalize (server.scope number).leaveTransaction = left at length
    refine ⟨length.symm ▸ fits.nonempty, fun other => ?_⟩
    by_cases same : number = other
    · subst same
      refine ⟨?_, ?_⟩ <;> simp [Server.scope, length, fits.nonempty]
    · have others := fits.connections other
      simpa [Server.scope, Scope.Fits, same, length] using others
  · exact fits

/-- All connections still fit whatever happens. -/
theorem after (fits : server.Fits) (event : Event) : (server.after event).Fits := by
  cases event with
  -- Where a server listens and what its counters say has no part in this.
  | bind address => exact ⟨fits.nonempty, fits.connections⟩
  | connect number => exact fits.connect number
  | request number request => exact fits.handle number request
  | close number => exact fits.close number
  | received amount => exact ⟨fits.nonempty, fits.connections⟩
  | command => exact ⟨fits.nonempty, fits.connections⟩
  | sent amount => exact ⟨fits.nonempty, fits.connections⟩

/-- All connections still fit after any run. -/
theorem run (fits : server.Fits) (events : List Event) : (server.run events).Fits := by
  -- The rest of the events goes on from what the first one leaves.
  induction events generalizing server with
  | nil => exact fits
  | cons event rest ih => exact ih (fits.after event)

end Fits
end ScoreStore.Server
