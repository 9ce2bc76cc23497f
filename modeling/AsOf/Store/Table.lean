import AsOf.Decimal.Binary
import AsOf.Store.Source

namespace AsOf

inductive Value where
  | null
  | integer (n : Int)
  | real (x : Float)
  | text (s : String)

namespace Value

def kind : Value → ValueKind
  | .null => .null
  | .integer _ => .integer
  | .real _ => .real
  | .text _ => .text

/-- A number counted in the smallest positive double; null and text are no numbers. -/
def count? : Value → Option Int
  | .integer n => some (n * Binary.perUnit)
  | .real x => (Binary.ofFloat x).count?
  | .null | .text _ => none

def equals (v : Value) (n : Int) : Bool :=
  match v with
  | .integer m => m = n
  | v => v.count? = some (n * Binary.perUnit)

def within (v : Value) (s : Span) : Bool :=
  match v with
  | .integer n => s.contains n
  | v => v.count?.any fun k => s.first * Binary.perUnit ≤ k && k ≤ s.last * Binary.perUnit

def before (v w : Value) : Bool :=
  match v, w with
  | .integer m, .integer n => m < n
  | v, w => (v.count?.getD 0) < (w.count?.getD 0)

end Value

structure Row where
  sid : Value
  ratio : Value
  effective : Value

namespace Row

def decodeSid (r : Row) : Except DatabaseFault Int :=
  match r.sid with
  | .integer n => .ok n
  | v => .error (.columnType v.kind .sid)

def decodeRatio (r : Row) : Except DatabaseFault Float :=
  match r.ratio with
  | .integer n => .ok (Float.ofInt n)
  | .real x => .ok x
  | v => .error (.columnType v.kind .ratio)

def decodeEffective (r : Row) : Except DatabaseFault Int :=
  match r.effective with
  | .integer n => .ok n
  | v => .error (.columnType v.kind .effective)

/-- The action that a row stands for; its columns are looked at in order. -/
def decode (r : Row) : Except DatabaseFault Action := do
  let sid ← r.decodeSid
  let ratio ← r.decodeRatio
  let effective ← r.decodeEffective
  return ⟨sid, ratio, effective⟩

/-- The order in which a fetch returns rows: by asset, then by date. -/
def precedes (a b : Row) : Bool :=
  a.sid.before b.sid || (!b.sid.before a.sid && !b.effective.before a.effective)

end Row

structure Table where
  /-- Whether the columns are declared to hold an integer, a real number and an integer, none of
  them null. That alone does not keep out a text; but only actions are ever inserted. -/
  declared : Bool
  /-- Whether the table is indexed by date, in which case a range of dates is read in that order. -/
  indexed : Bool
  rows : List Row

namespace Table

def empty : Table := ⟨true, true, []⟩

/-- The row that is stored for an action. A NaN is stored as null, which a declared column refuses;
a declared column of real numbers keeps no sign of zero. -/
def encode (t : Table) (c : Category) (a : Action) : Except DatabaseFault Row :=
  if a.ratio.isNaN then
    if t.declared then .error (.notNull c .ratio)
    else .ok ⟨.integer a.sid, .null, .integer a.effective⟩
  else if t.declared && a.ratio == 0 then .ok ⟨.integer a.sid, .real 0, .integer a.effective⟩
  else .ok ⟨.integer a.sid, .real a.ratio, .integer a.effective⟩

/-- The rows in a range of dates, in the order in which they are read. -/
def inSpan (t : Table) (span : Span) : List Row :=
  let rows := t.rows.filter (·.effective.within span)
  if t.indexed then rows.mergeSort fun a b => !b.effective.before a.effective else rows

/-- The assets of rows besides those found before. Only distinct values are asked for, so one that
equals an asset found before is passed over even if it is no integer. -/
def collectSids (found : SidSet) : List Row → Except DatabaseFault SidSet
  | [] => .ok found
  | r :: rest =>
    match r.decodeSid with
    | .ok sid => collectSids (found.insert sid) rest
    | .error e => if found.toList.any r.sid.equals then collectSids found rest else .error e

def sids (t : Table) (span : Span) : Except DatabaseFault SidSet :=
  collectSids .empty (t.inSpan span)

/-- The rows of given assets in a range of dates, by asset and date; equal ones as inserted. -/
def select (t : Table) (sids : List Int) (span : Span) : List Row :=
  (t.rows.filter fun r => sids.any r.sid.equals && r.effective.within span).mergeSort Row.precedes

def actions (t : Table) (sids : List Int) (span : Span) : Except DatabaseFault (List Action) :=
  (t.select sids span).mapM Row.decode

end Table

end AsOf
