import AsOf.AssetIndex
import AsOf.DateIndex
import Mathlib.Data.List.Nodup

namespace AsOf

/-- The number of sessions at or before a date. -/
def rowOf (dates : List Int) (date : Int) : Nat := dates.countP (· ≤ date)

/-- The sessions before a row are at or before a date, those from the row on after it; of rising
sessions it is enough to look at the two that meet there. -/
structure Divides (dates : List Int) (date : Int) (row : Nat) : Prop where
  le_length : row ≤ dates.length
  before : ∀ _ : 0 < row, dates[row - 1] ≤ date
  after : ∀ _ : row < dates.length, date < dates[row]

section Rows

variable {dates : List Int} {date : Int} {k : Nat}

theorem rowOf_le_length (dates : List Int) (date : Int) : rowOf dates date ≤ dates.length :=
  List.countP_le_length

theorem rowOf_mono (dates : List Int) {d e : Int} (h : d ≤ e) : rowOf dates d ≤ rowOf dates e := by
  apply List.countP_mono_left
  intro s _ hs
  have hs : s ≤ d := of_decide_eq_true hs
  exact decide_eq_true (Int.le_trans hs h)

theorem getElem_lt_of_increasing (hd : dates.Pairwise (· < ·)) {i j : Nat} (hij : i < j)
    (hj : j < dates.length) : dates[i] < dates[j] :=
  List.pairwise_iff_getElem.mp hd i j (Nat.lt_trans hij hj) hj hij

theorem getElem_le_of_increasing (hd : dates.Pairwise (· < ·)) {i j : Nat} (hij : i ≤ j)
    (hj : j < dates.length) : dates[i] ≤ dates[j] := by
  rcases Nat.lt_or_eq_of_le hij with hij | rfl
  · exact Int.le_of_lt (getElem_lt_of_increasing hd hij hj)
  · exact Int.le_refl _

theorem getElem_le_iff (hd : dates.Pairwise (· < ·)) (hk : k < dates.length) :
    dates[k] ≤ date ↔ k < rowOf dates date := by
  induction dates generalizing k with
  | nil => exact absurd hk (Nat.not_lt_zero k)
  | cons d rest ih =>
    obtain ⟨hlt, hrest⟩ := List.pairwise_cons.mp hd
    by_cases hle : d ≤ date
    · have hrow : rowOf (d :: rest) date = rowOf rest date + 1 :=
        List.countP_cons_of_pos (decide_eq_true hle)
      rw [hrow]
      cases k with
      | zero => simpa using hle
      | succ k => simpa using ih hrest (Nat.lt_of_succ_lt_succ hk)
    · -- No later session is at or before the date either.
      have hrow : rowOf (d :: rest) date = 0 := by
        rw [rowOf, List.countP_eq_zero]
        intro e he
        rcases List.mem_cons.mp he with rfl | he
        · simpa using hle
        · have := hlt e he
          simp only [decide_eq_true_eq]
          omega
      have hfirst := getElem_le_of_increasing hd (Nat.zero_le k) hk
      simp only [List.getElem_cons_zero] at hfirst
      rw [hrow]
      exact iff_of_false (fun h => hle (Int.le_trans hfirst h)) (Nat.not_lt_zero k)

theorem divides_rowOf (hd : dates.Pairwise (· < ·)) (date : Int) :
    Divides dates date (rowOf dates date) := by
  have hrow := rowOf_le_length dates date
  constructor
  case le_length => exact hrow
  case before =>
    intro hpos
    exact (getElem_le_iff hd (by omega)).mpr (Nat.sub_one_lt_of_lt hpos)
  case after =>
    intro hlt
    exact Int.not_le.mp fun hle => Nat.lt_irrefl _ ((getElem_le_iff hd hlt).mp hle)

theorem Divides.rowOf_eq (h : Divides dates date k) (hd : dates.Pairwise (· < ·)) :
    rowOf dates date = k := by
  have hrow := rowOf_le_length dates date
  have hlength := h.le_length
  apply Nat.le_antisymm
  · by_contra hlt
    have hk : k < dates.length := by omega
    exact absurd ((getElem_le_iff hd hk).mpr (by omega)) (Int.not_le.mpr (h.after hk))
  · by_contra hlt
    have hpos : 0 < k := by omega
    have hbefore := (getElem_le_iff hd (by omega)).mp (h.before hpos)
    omega

theorem divides_iff (hd : dates.Pairwise (· < ·)) : Divides dates date k ↔ rowOf dates date = k :=
  ⟨fun h => h.rowOf_eq hd, fun h => h ▸ divides_rowOf hd date⟩

theorem bisectRight_eq_rowOf {lo hi : Nat} (hhi : hi ≤ dates.toArray.size)
    (hd : dates.Pairwise (· < ·)) (hle : lo ≤ hi)
    (hbefore : ∀ i (h : i < dates.length), i < lo → dates[i] ≤ date)
    (hafter : ∀ i (h : i < dates.length), hi ≤ i → date < dates[i]) :
    bisectRight dates.toArray date lo hi hhi = rowOf dates date := by
  generalize harr : dates.toArray = arr at hhi ⊢
  fun_induction bisectRight arr date lo hi hhi with
  | case1 lo hi hhi hlt mid hmid ih =>
    subst harr
    have hm : mid < dates.length := by
      have : hi ≤ dates.length := hhi
      omega
    have hmid : dates[mid] ≤ date := by simpa using hmid
    refine ih (by omega) (fun i h hi => ?_) hafter
    exact Int.le_trans (getElem_le_of_increasing hd (by omega) hm) hmid
  | case2 lo hi hhi hlt mid hmid ih =>
    subst harr
    have hm : mid < dates.length := by
      have : hi ≤ dates.length := hhi
      omega
    have hmid : date < dates[mid] := by simpa using hmid
    refine ih (by omega) hbefore (fun i h hi => ?_)
    exact Int.lt_of_lt_of_le hmid (getElem_le_of_increasing hd hi h)
  | case3 lo hi hhi hlt =>
    subst harr
    obtain rfl : lo = hi := by omega
    have hdivides : Divides dates date lo :=
      ⟨hhi, fun hpos => hbefore _ _ (Nat.sub_one_lt_of_lt hpos),
        fun h => hafter lo h (Nat.le_refl lo)⟩
    exact (hdivides.rowOf_eq hd).symm

end Rows

namespace DateIndex

variable {dates : List Int} {x : DateIndex}

/-- The index is about these dates, and what it has remembered is right. -/
structure Knows (x : DateIndex) (dates : List Int) : Prop where
  axis : x.dates = dates.toArray
  known : ∀ d r, x.known[d]? = some r → r = rowOf dates d

theorem knows_ofDates (dates : List Int) : (ofDates dates).Knows dates :=
  ⟨rfl, fun d r h => by simp [ofDates] at h⟩

theorem Knows.row (h : x.Knows dates) (hd : dates.Pairwise (· < ·)) (date : Int) :
    (x.row date).1 = rowOf dates date ∧ (x.row date).2.Knows dates := by
  unfold DateIndex.row
  split
  · rename_i r hr
    exact ⟨h.known date r hr, h⟩
  · obtain ⟨arr, known⟩ := x
    obtain rfl : arr = dates.toArray := h.axis
    have hrow : bisectRight dates.toArray date 0 dates.toArray.size _ = rowOf dates date :=
      bisectRight_eq_rowOf (Nat.le_refl _) hd (Nat.zero_le _)
        (fun i _ hi => absurd hi (Nat.not_lt_zero i))
        (fun i hi hsize => absurd hi (Nat.not_lt.mpr hsize))
    refine ⟨hrow, rfl, fun d r hr => ?_⟩
    simp only [Std.HashMap.getElem?_insert] at hr
    split at hr
    · rename_i heq
      obtain rfl : date = d := eq_of_beq heq
      cases hr
      exact hrow
    · exact h.known d r hr

end DateIndex

namespace AssetIndex

variable {x : AssetIndex} {assets : List Int} {sid : Int} {c n : Nat}

theorem column?_addFrom :
    (x.addFrom n assets).column? sid = some c ↔
      (∃ i, c = n + i ∧ assets[i]? = some sid ∧ sid ∉ assets.drop (i + 1)) ∨
        sid ∉ assets ∧ x.column? sid = some c := by
  induction assets generalizing x n with
  | nil => simp [addFrom]
  | cons a rest ih =>
    have hinsert :
        column? ⟨x.columns.insert a n⟩ sid = if a = sid then some n else x.column? sid := by
      simp [column?, Std.HashMap.getElem?_insert]
    rw [addFrom, ih, hinsert]
    constructor
    · rintro (⟨i, rfl, hi, hlast⟩ | ⟨hno, hc⟩)
      · exact .inl ⟨i + 1, by omega, by simpa using hi, by simpa using hlast⟩
      · split at hc
        · rename_i heq
          cases hc
          exact .inl ⟨0, rfl, by simp [heq], by simpa using hno⟩
        · rename_i hne
          exact .inr ⟨by simp [hno, Ne.symm hne], hc⟩
    · rintro (⟨i, rfl, hi, hlast⟩ | ⟨hno, hc⟩)
      · cases i with
        | zero =>
          have heq : a = sid := by simpa using hi
          exact .inr ⟨by simpa using hlast, by simp [heq]⟩
        | succ i => exact .inl ⟨i, by omega, by simpa using hi, by simpa using hlast⟩
      · rw [List.mem_cons, not_or] at hno
        obtain ⟨hne, hno⟩ := hno
        exact .inr ⟨hno, by rwa [if_neg (Ne.symm hne)]⟩

theorem column?_ofAssets :
    (ofAssets assets).column? sid = some c ↔
      assets[c]? = some sid ∧ sid ∉ assets.drop (c + 1) := by
  rw [ofAssets, column?_addFrom]
  simp [column?]

theorem column?_of_nodup (h : assets.Nodup) :
    (ofAssets assets).column? sid = if sid ∈ assets then some (assets.idxOf sid) else none := by
  by_cases hs : sid ∈ assets
  · rw [if_pos hs]
    have hi := List.idxOf_lt_length_of_mem hs
    refine column?_ofAssets.mpr ⟨List.getElem?_idxOf hs, fun hlast => ?_⟩
    obtain ⟨j, hj, hsid⟩ := List.getElem_of_mem hlast
    rw [List.length_drop] at hj
    rw [List.getElem_drop] at hsid
    have heq := (h.getElem_inj_iff).mp (hsid.trans (List.getElem_idxOf hi).symm)
    omega
  · rw [if_neg hs, Option.eq_none_iff_forall_ne_some]
    intro c hc
    exact hs (List.mem_of_getElem? (column?_ofAssets.mp hc).1)

theorem contains_addFrom :
    (x.addFrom n assets).contains sid = (decide (sid ∈ assets) || x.contains sid) := by
  induction assets generalizing x n with
  | nil => simp [addFrom]
  | cons a rest ih =>
    rw [addFrom, ih]
    simp only [contains, Std.HashMap.contains_insert]
    grind

@[simp] theorem contains_ofAssets : (ofAssets assets).contains sid = decide (sid ∈ assets) := by
  rw [ofAssets, contains_addFrom]
  simp [contains]

end AssetIndex

end AsOf
