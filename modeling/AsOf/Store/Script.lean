import AsOf.Store.Source

namespace AsOf

structure Script where
  records : Category → List Action
  /-- The assets that every search for assets answers with, whatever is asked. -/
  distinct : Option (List Int)
  /-- Whether a fetch returns all actions of the kind instead of those asked for. -/
  unfiltered : Bool
  /-- The number of the query that fails, counting from 0, and the text of its fault. -/
  failure : Option (Nat × String)

namespace Script

def guard {α : Type} (s : Script) (past : List Query) (answer : α) : Except StoreFault α :=
  match s.failure with
  | some (n, text) => if past.length = n then .error (.backend text) else .ok answer
  | none => .ok answer

def sidsIn (s : Script) (c : Category) (span : Span) : List Int :=
  ((s.records c).filter fun a => span.contains a.effective).map Action.sid

def recordsOf (s : Script) (c : Category) (sids : List Int) (span : Span) : List Action :=
  (s.records c).filter fun a => sids.contains a.sid && span.contains a.effective

def source (s : Script) (maxParams : Nat) : Source where
  maxParams := maxParams
  sids past c span := s.guard past (SidSet.ofList (s.distinct.getD (s.sidsIn c span)))
  actions past c sids span :=
    s.guard past (if s.unfiltered then s.records c else s.recordsOf c sids span)

end Script

end AsOf
