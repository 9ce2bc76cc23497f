import Mathlib.Data.Prod.Lex

namespace AsOf

variable {α β κ μ : Type} [LinearOrder κ] [LinearOrder μ]
variable {key : α → κ} {l a b : List α} {p q : α → Bool}

/-- The list `a` has the elements of `l`, ascending by a key and stable. -/
structure Arranged (key : α → κ) (l a : List α) : Prop where
  ascending : a.Pairwise (key · ≤ key ·)
  stable : ∀ k, a.filter (key · = k) = l.filter (key · = k)

theorem mem_of_filter_key (h : ∀ k, a.filter (key · = k) = b.filter (key · = k)) {x : α}
    (hx : x ∈ a) : x ∈ b := by
  have hf : x ∈ b.filter (key · = key x) := by
    rw [← h]
    simpa using hx
  exact (List.mem_filter.mp hf).1

theorem le_of_mem_cons {x y : α} (h : (x :: a).Pairwise (key · ≤ key ·)) (hy : y ∈ x :: a) :
    key x ≤ key y := by
  rcases List.mem_cons.mp hy with rfl | hy
  · exact le_rfl
  · exact (List.pairwise_cons.mp h).1 y hy

theorem eq_of_filter_key (ha : a.Pairwise (key · ≤ key ·)) (hb : b.Pairwise (key · ≤ key ·))
    (h : ∀ k, a.filter (key · = k) = b.filter (key · = k)) : a = b := by
  induction a generalizing b with
  | nil =>
    cases b with
    | nil => rfl
    | cons y b =>
      have hy : y ∈ [] := mem_of_filter_key (fun k => (h k).symm) List.mem_cons_self
      exact absurd hy List.not_mem_nil
  | cons x a ih =>
    cases b with
    | nil => exact absurd (mem_of_filter_key h List.mem_cons_self) List.not_mem_nil
    | cons y b =>
      -- Both heads have the least key, so they lead the elements of that key.
      have hyx : key y ≤ key x := le_of_mem_cons hb (mem_of_filter_key h List.mem_cons_self)
      have hxy : key x ≤ key y :=
        le_of_mem_cons ha (mem_of_filter_key (fun k => (h k).symm) List.mem_cons_self)
      have hkey : key y = key x := le_antisymm hyx hxy
      have hhead := h (key x)
      rw [List.filter_cons_of_pos (by simp), List.filter_cons_of_pos (by simpa using hkey)] at hhead
      obtain rfl : x = y := (List.cons.inj hhead).1
      have htail (k : κ) : a.filter (key · = k) = b.filter (key · = k) := by
        have hk := h k
        by_cases hx : key x = k
        · rw [List.filter_cons_of_pos (by simpa using hx),
            List.filter_cons_of_pos (by simpa using hx)] at hk
          exact (List.cons.inj hk).2
        · rwa [List.filter_cons_of_neg (by simpa using hx),
            List.filter_cons_of_neg (by simpa using hx)] at hk
      rw [ih (List.pairwise_cons.mp ha).2 (List.pairwise_cons.mp hb).2 htail]

theorem Arranged.unique (ha : Arranged key l a) (hb : Arranged key l b) : a = b :=
  eq_of_filter_key ha.ascending hb.ascending fun k => (ha.stable k).trans (hb.stable k).symm

def arrange (key : α → κ) (l : List α) : List α := l.mergeSort fun x y => key x ≤ key y

theorem arranged_arrange (key : α → κ) (l : List α) : Arranged key l (arrange key l) := by
  have htrans (x y z : α) (hxy : decide (key x ≤ key y) = true)
      (hyz : decide (key y ≤ key z) = true) : decide (key x ≤ key z) = true :=
    decide_eq_true (le_trans (of_decide_eq_true hxy) (of_decide_eq_true hyz))
  have htotal (x y : α) : (decide (key x ≤ key y) || decide (key y ≤ key x)) = true := by
    simpa using le_total (key x) (key y)
  constructor
  · have h := List.pairwise_mergeSort htrans htotal l
    exact h.imp of_decide_eq_true
  · intro k
    have hsame : (l.filter (key · = k)).Pairwise fun x y => decide (key x ≤ key y) = true := by
      apply List.pairwise_iff_forall_sublist.mpr
      intro x y hxy
      have hx := hxy.subset (show x ∈ [x, y] by simp)
      have hy := hxy.subset (show y ∈ [x, y] by simp)
      have hx : key x = k := by simpa using (List.mem_filter.mp hx).2
      have hy : key y = k := by simpa using (List.mem_filter.mp hy).2
      simp [hx, hy]
    have hsub := List.sublist_mergeSort htrans htotal hsame List.filter_sublist
    have hfilter := hsub.filter (key · = k)
    rw [List.filter_filter] at hfilter
    simp only [Bool.and_self] at hfilter
    have hlen : (l.filter (key · = k)).length = ((arrange key l).filter (key · = k)).length :=
      ((List.mergeSort_perm l _).filter _).length_eq.symm
    exact (hfilter.eq_of_length hlen).symm

theorem Arranged.eq_arrange (h : Arranged key l a) : a = arrange key l :=
  h.unique (arranged_arrange key l)

@[simp] theorem mem_arrange {x : α} : x ∈ arrange key l ↔ x ∈ l :=
  List.mem_mergeSort

theorem Arranged.filter (h : Arranged key l a) (p : α → Bool) :
    Arranged key (l.filter p) (a.filter p) := by
  refine ⟨h.ascending.filter p, fun k => ?_⟩
  have hswap (m : List α) :
      (m.filter p).filter (key · = k) = (m.filter (key · = k)).filter p := by
    simp only [List.filter_filter, Bool.and_comm]
  rw [hswap, hswap, h.stable]

theorem filter_arrange (key : α → κ) (l : List α) (p : α → Bool) :
    (arrange key l).filter p = arrange key (l.filter p) :=
  ((arranged_arrange key l).filter p).eq_arrange

theorem arrange_filter_or (h : ∀ x ∈ l, ∀ y ∈ l, p x → q y → key x < key y) :
    arrange key (l.filter fun x => p x || q x) =
      arrange key (l.filter p) ++ arrange key (l.filter q) := by
  have hp := arranged_arrange key (l.filter p)
  have hq := arranged_arrange key (l.filter q)
  refine (Arranged.eq_arrange ⟨?_, fun k => ?_⟩).symm
  · refine List.pairwise_append.mpr ⟨hp.ascending, hq.ascending, fun x hx y hy => ?_⟩
    obtain ⟨hx, hpx⟩ := List.mem_filter.mp (mem_arrange.mp hx)
    obtain ⟨hy, hqy⟩ := List.mem_filter.mp (mem_arrange.mp hy)
    exact le_of_lt (h x hx y hy hpx hqy)
  · rw [List.filter_append, hp.stable, hq.stable]
    simp only [List.filter_filter]
    by_cases hk : ∃ x ∈ l, p x ∧ key x = k
    · obtain ⟨x, hx, hpx, rfl⟩ := hk
      have hno : l.filter (fun y => decide (key y = key x) && q y) = [] := by
        rw [List.filter_eq_nil_iff]
        intro y hy hqy
        obtain ⟨hky, hqy⟩ : key y = key x ∧ q y = true := by simpa using hqy
        exact absurd hky (ne_of_gt (h x hx y hy hpx hqy))
      rw [hno, List.append_nil]
      apply List.filter_congr
      intro y hy
      have hqy := List.filter_eq_nil_iff.mp hno y hy
      grind
    · have hno : l.filter (fun y => decide (key y = k) && p y) = [] := by
        rw [List.filter_eq_nil_iff]
        intro y hy hpy
        obtain ⟨hky, hpy⟩ : key y = k ∧ p y = true := by simpa using hpy
        exact hk ⟨y, hy, hpy, hky⟩
      rw [hno, List.nil_append]
      apply List.filter_congr
      intro y hy
      have hpy := List.filter_eq_nil_iff.mp hno y hy
      grind

theorem map_arrange {f : α → β} {key' : β → μ}
    (h : ∀ x ∈ l, ∀ y ∈ l, key x ≤ key y ↔ key' (f x) ≤ key' (f y)) :
    (arrange key l).map f = arrange key' (l.map f) := by
  apply List.map_mergeSort
  intro x hx y hy
  exact decide_eq_decide.mpr (h x hx y hy)

end AsOf
