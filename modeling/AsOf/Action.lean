namespace AsOf

/-- One corporate action of one asset, as stored. -/
structure Action where
  sid : Int
  /-- The factor by which prices before the action are scaled. -/
  ratio : Float
  /-- When the action takes effect, in seconds since 1970-01-01T00:00:00Z. -/
  effective : Int

/-- An inclusive range of instants. -/
structure Span where
  first : Int
  last : Int
  deriving DecidableEq

def Span.contains (s : Span) (t : Int) : Bool := s.first ≤ t && t ≤ s.last

@[simp] theorem Span.contains_iff (s : Span) (t : Int) :
    s.contains t = true ↔ s.first ≤ t ∧ t ≤ s.last := by
  simp [Span.contains]

end AsOf
