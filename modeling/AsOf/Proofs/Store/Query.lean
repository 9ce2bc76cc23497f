import Mathlib.Data.List.Perm.Subperm
import AsOf.Proofs.Arrange
import AsOf.Store.Database

namespace AsOf

namespace Binary

theorem perUnit_pos : 0 < perUnit := by
  unfold perUnit
  generalize 1074 = n
  exact Int.natCast_pos.mpr (Nat.pow_pos Nat.two_pos)

end Binary

namespace Value

variable {v w : Value} {n : Int}

def place (v : Value) : Int := v.count?.getD 0

theorem place_integer (n : Int) : (Value.integer n).place = n * Binary.perUnit := rfl

theorem before_eq (v w : Value) : v.before w = decide (v.place < w.place) := by
  cases v with
  | integer m =>
    cases w with
    | integer n =>
      apply decide_eq_decide.mpr
      rw [place_integer, place_integer]
      exact (Int.mul_lt_mul_right Binary.perUnit_pos).symm
    | null | real | text => rfl
  | null | real | text => rfl

theorem place_of_equals (h : v.equals n) : v.place = n * Binary.perUnit := by
  cases v with
  | integer m =>
    have hm : m = n := of_decide_eq_true h
    rw [place_integer, hm]
  | real x =>
    have hc := of_decide_eq_true h
    rw [place, hc]
    rfl
  | null => cases h
  | text => cases h

end Value

namespace Row

def key (r : Row) : Int ×ₗ Int := toLex (r.sid.place, r.effective.place)

theorem precedes_eq (a b : Row) : a.precedes b = decide (a.key ≤ b.key) := by
  rw [precedes, Value.before_eq, Value.before_eq, Value.before_eq, key, key, Bool.eq_iff_iff,
    decide_eq_true_iff, Prod.Lex.toLex_le_toLex]
  simp only [Bool.or_eq_true, Bool.and_eq_true, Bool.not_eq_true', decide_eq_true_iff,
    decide_eq_false_iff_not]
  omega

/-- The rows that a fetch of some assets in a range asks for. -/
def matching (sids : List Int) (span : Span) (r : Row) : Bool :=
  sids.any r.sid.equals && r.effective.within span

end Row

namespace Table

variable {t : Table} {sids sids' : List Int} {span : Span}

theorem select_eq (t : Table) (sids : List Int) (span : Span) :
    t.select sids span = arrange Row.key (t.rows.filter (Row.matching sids span)) := by
  rw [select, arrange]
  congr 1
  funext a b
  exact Row.precedes_eq a b

theorem select_congr (h : ∀ a, a ∈ sids ↔ a ∈ sids') :
    t.select sids span = t.select sids' span := by
  have hany (v : Value) : sids.any v.equals = sids'.any v.equals := by
    rw [Bool.eq_iff_iff, List.any_eq_true, List.any_eq_true]
    simp only [h]
  simp only [select, hany]

theorem select_append (h : ∀ a ∈ sids, ∀ b ∈ sids', a < b) :
    t.select (sids ++ sids') span = t.select sids span ++ t.select sids' span := by
  simp only [select_eq]
  rw [← arrange_filter_or]
  · congr 1
    apply List.filter_congr
    intro r _
    simp only [Row.matching, List.any_append, Bool.and_or_distrib_right]
  · intro r _ r' _ hr hr'
    obtain ⟨a, ha, hra⟩ := List.any_eq_true.mp (Bool.and_eq_true_iff.mp hr).1
    obtain ⟨b, hb, hrb⟩ := List.any_eq_true.mp (Bool.and_eq_true_iff.mp hr').1
    have hlt : r.sid.place < r'.sid.place := by
      rw [Value.place_of_equals hra, Value.place_of_equals hrb]
      exact Int.mul_lt_mul_of_pos_right (h a ha b hb) Binary.perUnit_pos
    exact Prod.Lex.toLex_lt_toLex.mpr (.inl hlt)

theorem actions_congr (h : ∀ a, a ∈ sids ↔ a ∈ sids') :
    t.actions sids span = t.actions sids' span := by
  rw [actions, actions, select_congr h]

theorem actions_append (h : ∀ a ∈ sids, ∀ b ∈ sids', a < b) :
    t.actions (sids ++ sids') span =
      (do return (← t.actions sids span) ++ (← t.actions sids' span)) := by
  rw [actions, select_append h, List.mapM_append]
  rfl

end Table

namespace SidSet

variable {l l' : List Int}

theorem size_ofList_le_of_subset (h : l ⊆ l') : (ofList l).size ≤ l'.length := by
  have hsub : (ofList l).toList ⊆ l' := fun a ha => h (mem_ofList.mp ha)
  have honce : (ofList l).toList.Nodup := (ofList l).ascending.imp Int.ne_of_lt
  exact (honce.subperm hsub).length_le

theorem size_ofList_le (l : List Int) : (ofList l).size ≤ l.length :=
  size_ofList_le_of_subset fun _ ha => ha

theorem size_ofList_mono (h : l ⊆ l') : (ofList l).size ≤ (ofList l').size := by
  apply size_ofList_le_of_subset
  exact fun a ha => mem_ofList.mpr (h ha)

end SidSet

namespace VariableLimit

variable {limit : VariableLimit} {m n n' : Nat}

/-- If a query may bind `m` parameters, no statement of a fetch of `n` assets has too many
variables. -/
def Admits (limit : VariableLimit) (m n : Nat) : Prop :=
  min (m - rangeParams) n + rangeParams ≤ limit.count

instance : Decidable (limit.Admits m n) := inferInstanceAs (Decidable (_ ≤ _))

theorem admits_of_le (hm : rangeParams < m) (h : m ≤ limit.count) : limit.Admits m n := by
  unfold Admits
  omega

theorem admits_of_add_le (h : n + rangeParams ≤ limit.count) : limit.Admits m n := by
  unfold Admits
  omega

theorem Admits.mono (h : limit.Admits m n') (hn : n ≤ n') : limit.Admits m n := by
  unfold Admits at h ⊢
  omega

end VariableLimit

namespace Database

variable {db : Database} {c : Category} {sids sids' : List Int} {span : Span}

/-- What a query for the actions of given assets answers, unless it has too many variables. -/
def rowsOf (db : Database) (c : Category) (sids : List Int) (span : Span) :
    Except DatabaseFault (List Action) :=
  if sids.isEmpty then .ok [] else (db.table c).bind (·.actions sids span)

theorem actions_eq_ite (db : Database) (c : Category) (sids : List Int) (span : Span) :
    db.actions c sids span =
      if db.limit.count < sids.length + rangeParams then
        .error (.tooManyVariables c sids.length db.limit.count)
      else db.rowsOf c sids span := by
  have hlimit := db.limit.rangeParams_lt
  unfold actions rowsOf
  cases sids with
  | nil =>
    have hroom : ¬db.limit.count < ([] : List Int).length + rangeParams := by
      rw [List.length_nil]
      omega
    exact (if_neg hroom).symm
  | cons a sids => rfl

theorem actions_eq_rowsOf (h : sids.length + rangeParams ≤ db.limit.count) :
    db.actions c sids span = db.rowsOf c sids span := by
  rw [actions_eq_ite, if_neg (Nat.not_lt.mpr h)]

theorem actions_eq_error (h : db.limit.count < sids.length + rangeParams) :
    db.actions c sids span = .error (.tooManyVariables c sids.length db.limit.count) := by
  rw [actions_eq_ite, if_pos h]

theorem rowsOf_congr (h : ∀ a, a ∈ sids ↔ a ∈ sids') :
    db.rowsOf c sids span = db.rowsOf c sids' span := by
  have hempty : sids.isEmpty = sids'.isEmpty := by
    rw [Bool.eq_iff_iff, List.isEmpty_iff, List.isEmpty_iff, List.eq_nil_iff_forall_not_mem,
      List.eq_nil_iff_forall_not_mem]
    simp only [h]
  simp only [rowsOf, hempty, Table.actions_congr h]

theorem rowsOf_of_table {t : Table} (ht : db.table? c = some t) :
    db.rowsOf c sids span = t.actions sids span := by
  have htable : db.table c = .ok t := by
    rw [table, ht]
    rfl
  rw [rowsOf, htable]
  cases sids with
  | nil =>
    have hnone : t.rows.filter (Row.matching [] span) = [] := by
      simp [Row.matching]
    rw [Table.actions, Table.select_eq, hnone, arrange, List.mergeSort_nil]
    rfl
  | cons a sids => rfl

theorem rowsOf_of_no_table (ht : db.table? c = none) (h : sids ≠ []) :
    db.rowsOf c sids span = .error (.noTable c) := by
  have htable : db.table c = .error (.noTable c) := by
    rw [table, ht]
    rfl
  rw [rowsOf, htable, if_neg (by simpa using h)]
  rfl

/-- A fetch can be cut in two between assets. -/
theorem rowsOf_append (h : ∀ a ∈ sids, ∀ b ∈ sids', a < b) :
    db.rowsOf c (sids ++ sids') span =
      (do return (← db.rowsOf c sids span) ++ (← db.rowsOf c sids' span)) := by
  cases ht : db.table? c with
  | some t =>
    simp only [rowsOf_of_table ht]
    exact Table.actions_append h
  | none =>
    cases sids with
    | nil =>
      have hnil : db.rowsOf c [] span = .ok [] := rfl
      rw [hnil, List.nil_append]
      exact (bind_pure (db.rowsOf c sids' span)).symm
    | cons a sids =>
      rw [rowsOf_of_no_table ht (by simp), rowsOf_of_no_table ht (by simp)]
      rfl

end Database

end AsOf
