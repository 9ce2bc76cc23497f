namespace AsOf

def insertAscending (a : Int) : List Int → List Int
  | [] => [a]
  | b :: rest =>
    if a < b then a :: b :: rest
    else if a = b then b :: rest
    else b :: insertAscending a rest

theorem mem_insertAscending {a c : Int} {l : List Int} :
    c ∈ insertAscending a l ↔ c = a ∨ c ∈ l := by
  induction l with
  | nil => simp [insertAscending]
  | cons b rest ih =>
    rw [insertAscending]
    split
    · simp
    · split
      · rename_i h
        simp [h]
      · simp only [List.mem_cons, ih]
        exact or_left_comm

theorem insertAscending_pairwise {a : Int} {l : List Int} (h : l.Pairwise (· < ·)) :
    (insertAscending a l).Pairwise (· < ·) := by
  induction l with
  | nil => simp [insertAscending]
  | cons b rest ih =>
    have hb := List.pairwise_cons.mp h
    rw [insertAscending]
    split
    · rename_i hlt
      refine List.pairwise_cons.mpr ⟨fun c hc => ?_, h⟩
      rcases List.mem_cons.mp hc with rfl | hc
      · exact hlt
      · have := hb.1 c hc
        omega
    · split
      · exact h
      · refine List.pairwise_cons.mpr ⟨fun c hc => ?_, ih hb.2⟩
        rcases mem_insertAscending.mp hc with rfl | hc
        · omega
        · exact hb.1 c hc

structure SidSet where
  toList : List Int
  ascending : toList.Pairwise (· < ·)

namespace SidSet

@[ext] theorem ext {s t : SidSet} (h : s.toList = t.toList) : s = t := by
  cases s
  cases t
  simp_all

def empty : SidSet := ⟨[], .nil⟩

def insert (s : SidSet) (a : Int) : SidSet :=
  ⟨insertAscending a s.toList, insertAscending_pairwise s.ascending⟩

def ofList (l : List Int) : SidSet := l.foldr (fun a s => s.insert a) empty

instance : Membership Int SidSet := ⟨fun s a => a ∈ s.toList⟩

theorem mem_toList {s : SidSet} {a : Int} : a ∈ s.toList ↔ a ∈ s := Iff.rfl

@[simp] theorem mem_insert {s : SidSet} {a b : Int} : b ∈ s.insert a ↔ b = a ∨ b ∈ s :=
  mem_insertAscending

@[simp] theorem mem_ofList {l : List Int} {a : Int} : a ∈ ofList l ↔ a ∈ l := by
  induction l with
  | nil => simp [ofList, empty, ← mem_toList]
  | cons b rest ih =>
    rw [ofList, List.foldr_cons, mem_insert]
    simp [← ih, ofList]

def size (s : SidSet) : Nat := s.toList.length

theorem ext_mem {s t : SidSet} (h : ∀ a, a ∈ s ↔ a ∈ t) : s = t := by
  have hs := s.ascending
  have ht := t.ascending
  have hp : s.toList.Perm t.toList :=
    (List.perm_ext_iff_of_nodup (hs.imp Int.ne_of_lt) (ht.imp Int.ne_of_lt)).mpr h
  exact SidSet.ext (hp.eq_of_pairwise (fun a b _ _ hab hba => absurd hab (Int.lt_asymm hba)) hs ht)

theorem toList_ofList {l : List Int} (h : l.Pairwise (· < ·)) : (ofList l).toList = l := by
  induction l with
  | nil => rfl
  | cons a l ih =>
    obtain ⟨hlt, hl⟩ := List.pairwise_cons.mp h
    change insertAscending a (ofList l).toList = a :: l
    rw [ih hl]
    cases l with
    | nil => rfl
    | cons b l => exact if_pos (hlt b List.mem_cons_self)

theorem size_ofList {l : List Int} (h : l.Pairwise (· < ·)) : (ofList l).size = l.length := by
  rw [size, toList_ofList h]

def filter (s : SidSet) (p : Int → Bool) : SidSet := ⟨s.toList.filter p, s.ascending.filter p⟩

end SidSet

end AsOf
