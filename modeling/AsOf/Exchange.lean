import AsOf.Axes
import AsOf.Category
import AsOf.Correction
import AsOf.Json.Written
import AsOf.Scope

namespace AsOf

def Written.int? : Written → Option Int
  | .whole negative n =>
    match wholeNumber negative n with
    | .int i => if i < signedBound 64 then some i else none
    | _ => none
  | _ => none

/-- The number of a text as a double, whether it is written as an integer or not. -/
def Written.float? (w : Written) : Option Float :=
  match w with
  | .whole .. | .decimal _ =>
    match w.value? with
    | some (.int i) => some (Literal.mk (i < 0) i.natAbs 0).toFloat
    | some (.float x) => some x
    | _ => none
  | _ => none

/-- The name of a constant, written as a string or as the only key of an object, with null. -/
def Written.constant? : Written → Option String
  | .str s => s
  | .obj [(k, .null)] => k
  | _ => none

def Written.field? (members : List (Option String × Written)) (k : String) : Option Written :=
  match members.filter fun m => m.1 = some k with
  | [m] => some m.2
  | _ => none

/-- Reads an action from an object, whose other members are ignored, or from a list of its three
fields. -/
def Action.ofWritten? (w : Written) : Option Action :=
  match w with
  | .obj members =>
    if members.all fun m => m.1.isSome then do
      let sid ← Written.field? members "sid" >>= Written.int?
      let ratio ← Written.field? members "ratio" >>= Written.float?
      let effective ← Written.field? members "effective_date" >>= Written.int?
      return ⟨sid, ratio, effective⟩
    else none
  | .arr [sid, ratio, effective] => return ⟨← sid.int?, ← ratio.float?, ← effective.int?⟩
  | _ => none

def Action.toJson (a : Action) : Json :=
  .obj [("sid", .int a.sid), ("ratio", .ofFloat a.ratio), ("effective_date", .int a.effective)]

def Category.ofWritten? (w : Written) : Option Category := do
  let name ← w.constant?
  Category.all.find? (·.tag = name)

def Category.toJson (c : Category) : Json := .str c.tag

def Scope.ofWritten? (w : Written) : Option Scope := do
  let name ← w.constant?
  (Scope.parse name).toOption

def Scope.toJson (s : Scope) : Json := .str s.name

def Axes.toJson (x : Axes) : Json :=
  .obj [("dates", .arr (x.dates.map .int)), ("assets", .arr (x.assets.map .int))]

/-- An operation under its capitalised name; `value` writes the value of an overwriting one. -/
def Operation.toJson {α : Type} (value : α → Json) : Operation α → Json
  | .multiply x => .obj [("Multiply", .ofFloat x)]
  | .add x => .obj [("Add", .ofFloat x)]
  | .overwrite v => .obj [("Overwrite", value v)]

def Correction.toJson {α : Type} (value : α → Json) (c : Correction α) : Json :=
  .obj [("first_row", .int c.rect.firstRow), ("last_row", .int c.rect.lastRow),
    ("first_col", .int c.rect.firstCol), ("last_col", .int c.rect.lastCol),
    ("op", c.op.toJson value)]

end AsOf
