import AsOf.Event
import AsOf.Grid
import AsOf.Schedule

namespace AsOf

inductive WindowFault where
  | outOfBounds (row rows length : Nat)
  | rewind (requested cursor : Nat)
  | noLength
  | tooLong (length rows : Nat)
  | noRows
  /-- A correction filed under the row `anchor` leaves the buffer. -/
  | misfit (anchor lastRow lastCol rows cols : Nat)
  deriving DecidableEq

def WindowFault.message : WindowFault → String
  | .outOfBounds row rows length =>
    s!"lookup: row {row} cannot anchor a window of length {length} over {rows} rows"
  | .rewind requested cursor =>
    s!"ordering: cannot move window back to row {requested} (cursor at {cursor})"
  | .noLength => "invalid shape: window_length must be >= 1"
  | .tooLong length rows => s!"invalid shape: window_length {length} exceeds {rows} rows"
  | .noRows => "invalid shape: buffer has no rows"
  | .misfit anchor lastRow lastCol rows cols =>
    s!"adjustment anchored at row {anchor} reaches ({lastRow}, {lastCol}) outside a " ++
      s!"{rows}x{cols} buffer"

def checkLength (rows length : Nat) : Except WindowFault Unit :=
  if length = 0 then .error .noLength
  else if rows < length then .error (.tooLong length rows)
  else .ok ()

/-- A schedule all of whose corrections lie in the buffer and are filed under one of its rows. -/
def checkSchedule {α : Type} (rows cols : Nat) (s : Schedule α) : Except WindowFault Unit :=
  match s.misfit? rows cols with
  | some (anchor, c) => .error (.misfit anchor c.rect.lastRow c.rect.lastCol rows cols)
  | none => .ok ()

abbrev View (α : Type) (cols : Nat) := List (Vector α cols)

structure Window (α : Type) (rows cols : Nat) where
  buffer : Grid α rows cols
  pending : Schedule α
  /-- The rows whose buckets have been applied, ascending. -/
  applied : List Nat
  length : Nat
  /-- The row at which the window ends, once it has been placed. -/
  cursor : Option Nat

namespace Window

variable {α : Type} [Cell α] {rows cols : Nat}

/-- A window that has not been placed yet. Its length is checked before the schedule. -/
def make (buffer : Grid α rows cols) (schedule : Schedule α) (length : Nat) :
    Except WindowFault (Window α rows cols) := do
  checkLength rows length
  checkSchedule rows cols schedule
  return ⟨buffer, schedule, [], length, none⟩

def viewAt (w : Window α rows cols) (row : Nat) : View α cols :=
  w.buffer.rowsFrom (row + 1 - w.length) w.length

def view (w : Window α rows cols) : Option (View α cols) := w.cursor.map w.viewAt

/-- Applies and retires every bucket at or before a row. -/
def applyThrough (w : Window α rows cols) (row : Nat) : Window α rows cols :=
  let due := w.pending.through row
  { w with
    buffer := w.buffer.correctAll due.corrections
    pending := w.pending.after row
    applied := w.applied ++ due.rows }

def appliedEvents (w : Window α rows cols) (row : Nat) : List Event :=
  let due := w.pending.through row
  if due.buckets.isEmpty then []
  else [.applied (Cell.kind α) row (w.applied.length + due.rows.length) due.cells]

structure Turn (α : Type) (rows cols : Nat) (β : Type) where
  window : Window α rows cols
  answer : Except WindowFault β
  events : List Event

/-- Places the window so that it ends at `row`, at or after `w.length - 1`, applying what becomes
visible on the way. -/
def moveTo (w : Window α rows cols) (row : Nat) : Turn α rows cols (View α cols) :=
  if rows ≤ row ∨ row + 1 < w.length then ⟨w, .error (.outOfBounds row rows w.length), []⟩
  else
    let moved := { w.applyThrough row with cursor := some row }
    ⟨moved, .ok (moved.viewAt row), w.appliedEvents row⟩

/-- Moves the window forward to end at `row`. Staying is allowed, going back is not. -/
def advanceTo (w : Window α rows cols) (row : Nat) : Turn α rows cols (View α cols) :=
  match w.cursor with
  | some cursor =>
    if row < cursor then ⟨w, .error (.rewind row cursor), []⟩
    else if row = cursor then ⟨w, .ok (w.viewAt cursor), []⟩
    else w.moveTo row
  | none => w.moveTo row

/-- The row after the one that the window ends at; the first that it can end at to begin with. -/
def nextRow (w : Window α rows cols) : Nat :=
  match w.cursor with
  | some cursor => cursor + 1
  | none => w.length - 1

def advance (w : Window α rows cols) : Turn α rows cols (View α cols) := w.advanceTo w.nextRow

inductive Request where
  | advanceTo (row : Nat)
  | advance
  | view
  | snapshot
  | shape
  deriving DecidableEq

inductive Reply (α : Type) (cols : Nat) where
  | moved (view : View α cols)
  | current (view : Option (View α cols))
  | shape (length cols : Nat)

def serve (w : Window α rows cols) : Request → Turn α rows cols (Reply α cols)
  | .advanceTo row =>
    let t := w.advanceTo row
    ⟨t.window, t.answer.map .moved, t.events⟩
  | .advance =>
    let t := w.advance
    ⟨t.window, t.answer.map .moved, t.events⟩
  | .view | .snapshot => ⟨w, .ok (.current w.view), []⟩
  | .shape => ⟨w, .ok (.shape w.length cols), []⟩

/-- Answers requests one after the other; a failure does not end the run. -/
def serveAll (w : Window α rows cols) : List Request → List (Turn α rows cols (Reply α cols))
  | [] => []
  | q :: rest =>
    let t := w.serve q
    t :: serveAll t.window rest

def after (w : Window α rows cols) (qs : List Request) : Window α rows cols :=
  qs.foldl (fun w q => (w.serve q).window) w

end Window

end AsOf
