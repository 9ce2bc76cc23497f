import AsOf.Action
import AsOf.Category
import AsOf.Cell
import AsOf.Scope

namespace AsOf

inductive Level where
  | debug
  | info
  deriving DecidableEq

def Level.name : Level → String
  | .debug => "debug"
  | .info => "info"

inductive FieldValue where
  | number (n : Int)
  | text (s : String)
  deriving DecidableEq

inductive Event where
  | resolved (category : Category) (span : Span) (sids : Nat)
  /-- One query for actions has been answered. -/
  | fetchedChunk (category : Category) (chunk boundParams rows : Nat)
  | fetched (category : Category) (rows : Nat)
  | droppedBeforeStart (sid effective : Int)
  /-- An action that no session follows has been left out. -/
  | droppedAfterLast (sid effective : Int)
  | loaded (scope : Scope) (splits others priceRows volumeRows beforeStart afterLast : Nat)
  | opened (path : String) (scope : Scope) (sessions assets : Nat)
  /-- A window has applied the corrections that became visible. -/
  | applied (kind : CellKind) (throughRow appliedRows cells : Nat)
  deriving DecidableEq

namespace Event

def level : Event → Level
  | .loaded .. | .opened .. => .info
  | _ => .debug

def message : Event → String
  | .resolved .. => "adjustments/resolve_sids"
  | .fetchedChunk .. => "adjustments/fetch_chunk"
  | .fetched .. => "adjustments/fetched"
  | .droppedBeforeStart .. => "adjustments/drop_before_start"
  | .droppedAfterLast .. => "adjustments/drop_after_last_session"
  | .loaded .. => "adjustments/load"
  | .opened .. => "testkit/load_from_settings"
  | .applied .. => "window/apply"

def fields : Event → List (String × FieldValue)
  | .resolved c span sids =>
    [("category", .text c.name), ("start_date", .number span.first),
      ("end_date", .number span.last), ("sids", .number sids)]
  | .fetchedChunk c chunk boundParams rows =>
    [("category", .text c.name), ("chunk", .number chunk), ("bound_params", .number boundParams),
      ("rows", .number rows)]
  | .fetched c rows => [("category", .text c.name), ("rows", .number rows)]
  | .droppedBeforeStart sid effective | .droppedAfterLast sid effective =>
    [("sid", .number sid), ("effective_date", .number effective)]
  | .loaded scope splits others priceRows volumeRows beforeStart afterLast =>
    [("scope", .text scope.name), ("splits", .number splits),
      ("mergers_dividends", .number others), ("price_rows", .number priceRows),
      ("volume_rows", .number volumeRows), ("dropped_before_start", .number beforeStart),
      ("dropped_after_last_session", .number afterLast)]
  | .opened path scope sessions assets =>
    [("path", .text path), ("scope", .text scope.name), ("sessions", .number sessions),
      ("assets", .number assets)]
  | .applied kind throughRow appliedRows cells =>
    [("dtype", .text kind.name), ("through_row", .number throughRow),
      ("applied_rows", .number appliedRows), ("cells", .number cells)]

end Event

end AsOf
