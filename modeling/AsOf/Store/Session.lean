import AsOf.Load
import AsOf.Store.Database
import AsOf.Store.Script

namespace AsOf

inductive Store where
  | database (db : Database)
  | script (s : Script)

def Store.source (s : Store) (maxParams : Nat) : Source :=
  match s with
  | .database db => db.source maxParams
  | .script s => s.source maxParams

/-- A store, its parameter limit, and the queries that it has been asked. -/
structure Session where
  store : Store
  maxParams : Nat
  asked : List Query

namespace Session

inductive Command where
  | maxParams
  | chunkSize
  | resolve (category : Category) (span : Span)
  | fetch (category : Category) (sids : List Int) (span : Span)
  /-- One query for all assets, whatever the parameter limit. -/
  | fetchOnce (category : Category) (sids : List Int) (span : Span)
  | load (request : LoadRequest)
  /-- A load whose axes are checked before its scope. -/
  | assemble (request : LoadRequest)
  | insert (category : Category) (actions : List Action)
  | createTables

inductive Reply where
  | number (n : Nat)
  | sids (sids : SidSet)
  | actions (actions : List Action)
  | loaded (schedules : Loaded)
  | done

inductive Fault where
  | axes (fault : AxisFault)
  | scope (fault : UnknownScope)
  | store (fault : StoreFault)
  | load (fault : LoadFault)
  | unsupported
  deriving DecidableEq

structure Turn where
  session : Session
  answer : Except Fault Reply
  asked : List Query
  events : List Event

def quiet (s : Session) (answer : Except Fault Reply) : Turn := ⟨s, answer, [], []⟩

def perform {α : Type} (s : Session) (run : Run Fault α) (reply : α → Reply) : Turn :=
  let (answer, journal) := run.perform ⟨s.asked, []⟩
  ⟨{ s with asked := journal.asked }, answer.map reply, journal.asked.drop s.asked.length,
    journal.events⟩

def change (s : Session) (f : Database → Except DatabaseFault Unit × Database) : Turn :=
  match s.store with
  | .script _ => s.quiet (.error .unsupported)
  | .database db =>
    let (result, db) := f db
    { s with store := .database db }.quiet
      ((result.map fun _ => Reply.done).mapError fun e => .store (.database e))

def source (s : Session) : Source := s.store.source s.maxParams

/-- The axes, then the scope, of a request that is checked in this order. -/
def checkAxesFirst (q : LoadRequest) : Except Fault (Axes × Scope) := do
  let x ← (Axes.make q.dates q.assets).mapError .axes
  let scope ← (Scope.parse q.scope).mapError .scope
  return (x, scope)

def serve (s : Session) : Command → Turn
  | .maxParams => s.quiet (.ok (.number s.maxParams))
  | .chunkSize => s.quiet ((s.source.chunkSize.mapError .store).map fun n => .number n.val)
  | .resolve c span => s.perform ((s.source.resolve c span).adapt .store) .sids
  | .fetch c sids span => s.perform ((s.source.fetch c sids span).adapt .store) .actions
  | .fetchOnce c sids span => s.perform ((s.source.askActions c sids span).adapt .store) .actions
  | .load q => s.perform ((s.source.loadRequest q).adapt .load) .loaded
  | .assemble q =>
    match checkAxesFirst q with
    | .error e => s.quiet (.error e)
    | .ok (x, scope) =>
      s.perform ((s.source.load x ⟨q.splits, q.mergers, q.dividends, scope⟩).adapt .load) .loaded
  | .insert c actions => s.change (·.insert c actions)
  | .createTables => s.change Database.createTables

/-- Answers commands one after the other; a failure does not end the run. -/
def serveAll (s : Session) : List Command → List Turn
  | [] => []
  | c :: rest =>
    let t := s.serve c
    t :: serveAll t.session rest

end Session

end AsOf
