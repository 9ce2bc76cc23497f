namespace AsOf

/-- Which schedules a load produces. -/
inductive Scope where
  | price
  | volume
  | all
  deriving DecidableEq

def Scope.name : Scope → String
  | .price => "price"
  | .volume => "volume"
  | .all => "all"

def Scope.includesPrice : Scope → Bool
  | .price | .all => true
  | .volume => false

def Scope.includesVolume : Scope → Bool
  | .volume | .all => true
  | .price => false

structure UnknownScope where
  text : String
  deriving DecidableEq

def UnknownScope.message (e : UnknownScope) : String :=
  s!"invalid adjustment scope '{e.text}'. expected one of: price | volume | all"

/-- Reads a scope from its exact name; case and surrounding blanks count. -/
def Scope.parse (text : String) : Except UnknownScope Scope :=
  if text = "price" then .ok .price
  else if text = "volume" then .ok .volume
  else if text = "all" then .ok .all
  else .error ⟨text⟩

theorem Scope.parse_name (s : Scope) : Scope.parse s.name = .ok s := by
  cases s <;> rfl

theorem Scope.name_of_parse {text : String} {s : Scope} (h : Scope.parse text = .ok s) :
    s.name = text := by
  unfold Scope.parse at h
  split at h
  · cases h; simp_all [Scope.name]
  · split at h
    · cases h; simp_all [Scope.name]
    · split at h
      · cases h; simp_all [Scope.name]
      · cases h

end AsOf
