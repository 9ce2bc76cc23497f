import AsOf.Proofs.Indexes
import Mathlib.Data.Finset.Card
import Mathlib.Data.List.NodupEquivFin
import Mathlib.Order.Bounds.Basic

namespace AsOf

namespace DateIndex

variable {dates : List Int} {x : DateIndex} {d e : Int}

def after (x : DateIndex) (probes : List Int) : DateIndex :=
  probes.foldl (fun y d => (y.row d).2) x

/-- The row with which an index of these sessions answers once it has been asked other dates. -/
def answer (dates asked : List Int) (d : Int) : Nat := (((ofDates dates).after asked).row d).1

theorem getElem?_rows (x : DateIndex) (probes : List Int) (i : Nat) :
    (x.rows probes)[i]? = probes[i]?.map fun d =>
      (((x.after (probes.take i)).row d).1, (x.after (probes.take (i + 1))).lookups) := by
  induction probes generalizing x i with
  | nil => simp [rows]
  | cons d rest ih =>
    cases i with
    | zero => simp [rows, after]
    | succ i =>
      rw [rows, List.getElem?_cons_succ, ih]
      rfl

theorem getElem?_rows_ofDates (dates asked : List Int) (i : Nat) :
    ((ofDates dates).rows asked)[i]? = asked[i]?.map fun d =>
      (answer dates (asked.take i) d, ((ofDates dates).after (asked.take (i + 1))).lookups) :=
  getElem?_rows _ asked i

theorem Knows.after (h : x.Knows dates) (hd : dates.Pairwise (· < ·)) (probes : List Int) :
    (x.after probes).Knows dates := by
  induction probes generalizing x with
  | nil => exact h
  | cons d rest ih => exact ih (h.row hd d).2

theorem answer_eq_rowOf (hd : dates.Pairwise (· < ·)) (asked : List Int) (d : Int) :
    answer dates asked d = rowOf dates d :=
  (((knows_ofDates dates).after hd asked).row hd d).1

/-- The step law of the memory: a lookup adds its date, if it is new. -/
theorem mem_known_row : e ∈ (x.row d).2.known ↔ e = d ∨ e ∈ x.known := by
  unfold row
  split
  · rename_i r hr
    have hd : d ∈ x.known := Std.HashMap.mem_iff_isSome_getElem?.mpr (by simp [hr])
    constructor
    · exact .inr
    · rintro (rfl | he)
      · exact hd
      · exact he
  · rw [Std.HashMap.mem_insert, beq_iff_eq]
    exact or_congr_left eq_comm

theorem mem_known_after {probes : List Int} :
    e ∈ (x.after probes).known ↔ e ∈ probes ∨ e ∈ x.known := by
  induction probes generalizing x with
  | nil => simp [after]
  | cons d rest ih =>
    change e ∈ ((x.row d).2.after rest).known ↔ _
    rw [ih, mem_known_row, List.mem_cons]
    tauto

theorem lookups_eq_card {s : Finset Int} (h : ∀ d, d ∈ x.known ↔ d ∈ s) : x.lookups = s.card := by
  have hkeys : x.known.keys.toFinset = s := by
    ext d
    rw [List.mem_toFinset, Std.HashMap.mem_keys, h]
  have hnodup : x.known.keys.Nodup := Std.HashMap.nodup_keys
  rw [lookups, ← Std.HashMap.length_keys, ← List.toFinset_card_of_nodup hnodup, hkeys]

theorem lookups_after (dates probes : List Int) :
    ((ofDates dates).after probes).lookups = probes.toFinset.card := by
  apply lookups_eq_card
  intro d
  rw [mem_known_after, List.mem_toFinset]
  simp [ofDates]

/-- An index of rising sessions answers with the number of sessions at or before the date, which is
the one row that divides the sessions there, whatever it has been asked before; later dates have no
lower rows. It remembers as many dates as it has been asked distinct ones. -/
theorem answer_transparent (dates : List Int) (hd : dates.Pairwise (· < ·)) (asked : List Int) :
    (∀ d, answer dates asked d = rowOf dates d) ∧
    (∀ d r, answer dates asked d = r ↔ Divides dates d r) ∧
    (∀ others d e, d ≤ e → answer dates asked d ≤ answer dates others e) ∧
    ((ofDates dates).after asked).lookups = asked.toFinset.card ∧
    ∀ i : Nat, ((ofDates dates).rows asked)[i]? = asked[i]?.map fun d =>
      (rowOf dates d, (asked.take (i + 1)).toFinset.card) := by
  have hanswer := answer_eq_rowOf hd
  refine ⟨hanswer asked, ?_, ?_, lookups_after dates asked, ?_⟩
  · intro d r
    rw [hanswer, divides_iff hd]
  · intro others d e hle
    rw [hanswer, hanswer]
    exact rowOf_mono dates hle
  · intro i
    simp only [getElem?_rows_ofDates, hanswer, lookups_after]

theorem answer_transparent_edges :
    [10, 20, 30].Pairwise (fun a b : Int => a < b) ∧
      (ofDates [10, 20, 30]).rows [20, 25, 20, 30, 9] =
        [(2, 1), (2, 2), (2, 2), (3, 3), (0, 4)] ∧
      ((ofDates [10, 20, 30]).after [20, 25, 20, 30, 9]).lookups = 4 ∧
      answer [10, 20, 30] [20, 25, 20, 30, 9] 31 = 3 := by
  have hd : [10, 20, 30].Pairwise (fun a b : Int => a < b) := by decide
  obtain ⟨-, hdivides, -, hlookups, hrows⟩ :=
    answer_transparent [10, 20, 30] hd [20, 25, 20, 30, 9]
  refine ⟨hd, List.ext_getElem? fun i => ?_, hlookups, (hdivides 31 3).mpr ?_⟩
  · rw [hrows]
    match i with
    | 0 | 1 | 2 | 3 | 4 => rfl
    | i + 5 => rfl
  · constructor
    case le_length => decide
    case before =>
      intro _
      change (30 : Int) ≤ 31
      decide
    case after =>
      intro hlt
      exact absurd hlt (by decide)

end DateIndex

namespace AssetIndex

variable {assets : List Int} {sid : Int} {c : Nat}

theorem column?_eq_some_iff_isGreatest :
    (ofAssets assets).column? sid = some c ↔ IsGreatest {i | assets[i]? = some sid} c := by
  rw [column?_ofAssets]
  refine and_congr_right fun hc => ?_
  rw [mem_upperBounds]
  constructor
  · intro hlast i hi
    by_contra hlt
    apply hlast
    refine List.mem_of_getElem? (i := i - (c + 1)) ?_
    rw [List.getElem?_drop, Nat.add_sub_cancel' (by omega)]
    exact hi
  · intro hle hmem
    obtain ⟨j, hj⟩ := List.mem_iff_getElem?.mp hmem
    rw [List.getElem?_drop] at hj
    have hcj : c + 1 + j ≤ c := hle (c + 1 + j) hj
    omega

theorem exists_column?_iff : (∃ c, (ofAssets assets).column? sid = some c) ↔
    (ofAssets assets).contains sid := by
  simp [column?, contains, ← Option.isSome_iff_exists]

/-- The columns of the assets of an axis that names each once, and the assets of its columns. -/
def columnEquiv (h : assets.Nodup) : {sid // sid ∈ assets} ≃ Fin assets.length :=
  (h.getEquiv assets).symm

theorem column?_eq_columnEquiv (h : assets.Nodup) (a : {sid // sid ∈ assets}) :
    (ofAssets assets).column? a.val = some (columnEquiv h a : Nat) := by
  rw [column?_of_nodup h, if_pos a.property]
  rfl

/-- An index of assets has a column for the assets of its axis and no others: the last place of the
asset. If the axis names each asset once, columns and assets determine each other. -/
theorem column?_inverts (assets : List Int) :
    (∀ sid, ((∃ c, (ofAssets assets).column? sid = some c) ↔ (ofAssets assets).contains sid) ∧
      ((ofAssets assets).contains sid ↔ sid ∈ assets)) ∧
    (∀ sid c, (ofAssets assets).column? sid = some c ↔
      IsGreatest {i | assets[i]? = some sid} c) ∧
    (assets.Nodup → ∃ columns : {sid // sid ∈ assets} ≃ Fin assets.length,
      (∀ a, (ofAssets assets).column? a.val = some (columns a : Nat)) ∧
      ∀ c, (columns.symm c : Int) = assets[c]) := by
  refine ⟨fun sid => ⟨exists_column?_iff, by simp⟩, fun sid c => column?_eq_some_iff_isGreatest, ?_⟩
  intro h
  exact ⟨columnEquiv h, column?_eq_columnEquiv h, fun c => rfl⟩

theorem column?_inverts_repeated :
    (ofAssets [7, 9, 7, 8]).column? 7 = some 2 ∧ (ofAssets [7, 9, 7, 8]).contains 6 = false ∧
      [9, 7, 8].Nodup ∧
      ∃ columns : {sid // sid ∈ [9, 7, 8]} ≃ Fin 3,
        (∀ a, (ofAssets [9, 7, 8]).column? a.val = some (columns a : Nat)) ∧
        (columns.symm 2 : Int) = 8 := by
  obtain ⟨hcontains, hgreatest, -⟩ := column?_inverts [7, 9, 7, 8]
  obtain ⟨-, -, hbijection⟩ := column?_inverts [9, 7, 8]
  have hnodup : [9, 7, 8].Nodup := by decide
  obtain ⟨columns, hcolumn, hasset⟩ := hbijection (by decide)
  refine ⟨(hgreatest 7 2).mpr ⟨rfl, fun i hi => ?_⟩, ?_, hnodup, columns, hcolumn, hasset 2⟩
  · match i with
    | 0 | 1 | 2 => decide
    | 3 => cases hi
    | i + 4 => cases hi
  · exact Bool.eq_false_iff.mpr fun h => absurd ((hcontains 6).2.mp h) (by decide)

end AssetIndex

end AsOf
