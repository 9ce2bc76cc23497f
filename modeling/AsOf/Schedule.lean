import AsOf.Correction

namespace AsOf

/-- Appends corrections to the bucket of a row, in a list of buckets by ascending row. A row
without a bucket gets one, even if nothing is appended. -/
def fileUnder {α : Type} (row : Nat) (cs : List (Correction α)) :
    List (Nat × List (Correction α)) → List (Nat × List (Correction α))
  | [] => [(row, cs)]
  | (k, bucket) :: rest =>
    if row < k then (row, cs) :: (k, bucket) :: rest
    else if row = k then (k, bucket ++ cs) :: rest
    else (k, bucket) :: fileUnder row cs rest

theorem mem_keys_fileUnder {α : Type} {row : Nat} {cs : List (Correction α)}
    {l : List (Nat × List (Correction α))} {k : Nat} :
    k ∈ (fileUnder row cs l).map Prod.fst ↔ k = row ∨ k ∈ l.map Prod.fst := by
  induction l with
  | nil => simp [fileUnder]
  | cons p rest ih =>
    obtain ⟨key, bucket⟩ := p
    rw [fileUnder]
    split
    · simp
    · split
      · rename_i h
        simp [h]
      · simp only [List.map_cons, List.mem_cons, ih]
        exact or_left_comm

theorem fileUnder_ascending {α : Type} (row : Nat) (cs : List (Correction α))
    {l : List (Nat × List (Correction α))} (h : (l.map Prod.fst).Pairwise (· < ·)) :
    ((fileUnder row cs l).map Prod.fst).Pairwise (· < ·) := by
  induction l with
  | nil => simp [fileUnder]
  | cons p rest ih =>
    obtain ⟨k, bucket⟩ := p
    have hk := List.pairwise_cons.mp h
    rw [fileUnder]
    split
    · rename_i hlt
      refine List.pairwise_cons.mpr ⟨fun j hj => ?_, h⟩
      rcases List.mem_cons.mp hj with rfl | hj
      · exact hlt
      · exact Nat.lt_trans hlt (hk.1 j hj)
    · split
      · exact h
      · refine List.pairwise_cons.mpr ⟨fun j hj => ?_, ih hk.2⟩
        rcases mem_keys_fileUnder.mp hj with rfl | hj
        · show k < j
          omega
        · exact hk.1 j hj

/-- Buckets of corrections by ascending row. -/
structure Schedule (α : Type) where
  buckets : List (Nat × List (Correction α))
  ascending : (buckets.map Prod.fst).Pairwise (· < ·)

namespace Schedule

variable {α : Type}

def empty : Schedule α := ⟨[], .nil⟩

def rows (s : Schedule α) : List Nat := s.buckets.map Prod.fst

/-- The bucket of a row; empty if it has none. -/
def bucket (s : Schedule α) (row : Nat) : List (Correction α) :=
  (s.buckets.lookup row).getD []

def append (s : Schedule α) (row : Nat) (cs : List (Correction α)) : Schedule α :=
  ⟨fileUnder row cs s.buckets, fileUnder_ascending row cs s.ascending⟩

def push (s : Schedule α) (row : Nat) (c : Correction α) : Schedule α := s.append row [c]

/-- A schedule from buckets in any order; buckets of one row are joined in the order given. -/
def ofBuckets (l : List (Nat × List (Correction α))) : Schedule α :=
  l.foldl (fun s p => s.append p.1 p.2) empty

def restrict (s : Schedule α) (p : Nat → Bool) : Schedule α :=
  ⟨s.buckets.filter fun b => p b.1, (s.ascending.sublist (List.filter_sublist.map Prod.fst))⟩

def through (s : Schedule α) (row : Nat) : Schedule α := s.restrict (· ≤ row)

def after (s : Schedule α) (row : Nat) : Schedule α := s.restrict (row < ·)

/-- All corrections, by ascending row and in bucket order. -/
def corrections (s : Schedule α) : List (Correction α) := s.buckets.flatMap Prod.snd

def entries (s : Schedule α) : List (Nat × Correction α) :=
  s.buckets.flatMap fun b => b.2.map (b.1, ·)

/-- The first entry that does not lie in a buffer of the given shape. -/
def misfit? (s : Schedule α) (nrows ncols : Nat) : Option (Nat × Correction α) :=
  s.entries.find? fun e => !(e.1 < nrows && decide (e.2.rect.Fits nrows ncols))

/-- The number of cells that the corrections touch, counted once per correction. -/
def cells (s : Schedule α) : Nat := s.corrections.foldr (fun c n => c.rect.size + n) 0

end Schedule

end AsOf
