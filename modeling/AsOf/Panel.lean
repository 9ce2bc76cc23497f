import AsOf.Window

namespace AsOf

/-- A buffer as first known, and the corrections that came to be known later. -/
structure Panel (α : Type) (rows cols : Nat) where
  baseline : Grid α rows cols
  schedule : Schedule α

namespace Panel

variable {α : Type} [Cell α] {rows cols : Nat}

def make (baseline : Grid α rows cols) (schedule : Schedule α) :
    Except WindowFault (Panel α rows cols) := do
  if rows = 0 then throw .noRows
  checkSchedule rows cols schedule
  return ⟨baseline, schedule⟩

def traverse (p : Panel α rows cols) (length : Nat) : Except WindowFault (Window α rows cols) :=
  Window.make p.baseline p.schedule length

end Panel

/-- A panel, until it is given away, and the windows that were taken from it, until their buffers
are given away. -/
structure Desk (α : Type) (rows cols : Nat) where
  panel : Option (Panel α rows cols)
  windows : Array (Option (Window α rows cols))

namespace Desk

variable {α : Type} [Cell α] {rows cols : Nat}

/-- A request to a panel or to one of its windows, by number. -/
inductive Request where
  | info
  /-- A new window over a copy of the baseline. -/
  | traverse (length : Nat)
  /-- A new window over the baseline itself; the panel is given away even if this fails. -/
  | intoWindow (length : Nat)
  | ask (window : Nat) (request : Window.Request)
  /-- The whole buffer of a window, which is thereby given away. -/
  | intoData (window : Nat)
  deriving DecidableEq

inductive Fault where
  | window (fault : WindowFault)
  | panelGone
  | windowGone
  deriving DecidableEq

inductive Reply (α : Type) (rows cols : Nat) where
  | info (panel : Panel α rows cols)
  | opened (window : Nat)
  | answered (reply : Window.Reply α cols)
  | data (buffer : Grid α rows cols)

structure Turn (α : Type) (rows cols : Nat) where
  desk : Desk α rows cols
  answer : Except Fault (Reply α rows cols)
  events : List Event

def ofPanel (p : Panel α rows cols) : Desk α rows cols := ⟨some p, #[]⟩

def ofWindow (w : Window α rows cols) : Desk α rows cols := ⟨none, #[some w]⟩

/-- The window of a number, unless its buffer has been given away. -/
def window? (d : Desk α rows cols) (i : Nat) : Option (Window α rows cols) := (d.windows[i]?).join

def place (d : Desk α rows cols) (w : Except WindowFault (Window α rows cols)) :
    Turn α rows cols :=
  match w with
  | .ok w => ⟨{ d with windows := d.windows.push (some w) }, .ok (.opened d.windows.size), []⟩
  | .error e => ⟨d, .error (.window e), []⟩

def serve (d : Desk α rows cols) : Request → Turn α rows cols
  | .info =>
    match d.panel with
    | some p => ⟨d, .ok (.info p), []⟩
    | none => ⟨d, .error .panelGone, []⟩
  | .traverse length =>
    match d.panel with
    | some p => d.place (p.traverse length)
    | none => ⟨d, .error .panelGone, []⟩
  | .intoWindow length =>
    match d.panel with
    | some p => { d with panel := none }.place (p.traverse length)
    | none => ⟨d, .error .panelGone, []⟩
  | .ask i q =>
    match d.window? i with
    | some w =>
      let t := w.serve q
      ⟨{ d with windows := d.windows.setIfInBounds i (some t.window) },
        (t.answer.map .answered).mapError .window, t.events⟩
    | none => ⟨d, .error .windowGone, []⟩
  | .intoData i =>
    match d.window? i with
    | some w =>
      ⟨{ d with windows := d.windows.setIfInBounds i none }, .ok (.data w.buffer), []⟩
    | none => ⟨d, .error .windowGone, []⟩

/-- Answers requests one after the other; a failure does not end the run. -/
def serveAll (d : Desk α rows cols) : List Request → List (Turn α rows cols)
  | [] => []
  | q :: rest =>
    let t := d.serve q
    t :: serveAll t.desk rest

end Desk

end AsOf
