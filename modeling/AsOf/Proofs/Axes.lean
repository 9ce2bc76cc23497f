import AsOf.Axes
import AsOf.Proofs.Indexes
import Mathlib.Order.Bounds.Basic

namespace AsOf

/-- The element at an index is not greater than the one before it. -/
def FallsAt (l : List Int) (i : Nat) : Prop := 0 < i ∧ ∃ h : i < l.length, l[i] ≤ l[i - 1]

def RepeatsAt (l : List Int) (i : Nat) : Prop := ∃ h : i < l.length, l[i] ∈ l.take i

/-- The element at an index has been seen before the list, or stands at a smaller index. -/
def SeenAt (seen : Std.HashSet Int) (l : List Int) (i : Nat) : Prop :=
  ∃ h : i < l.length, l[i] ∈ seen ∨ l[i] ∈ l.take i

section Faults

variable {l : List Int} {i : Nat}

theorem isLeast_succ_iff {p q : Nat → Prop} (hzero : ¬p 0) (hsucc : ∀ j, p (j + 1) ↔ q j) :
    IsLeast {j | p j} (i + 1) ↔ IsLeast {j | q j} i := by
  refine and_congr (hsucc i) ⟨?_, ?_⟩
  · intro hle j hj
    exact Nat.le_of_succ_le_succ (hle ((hsucc j).mpr hj))
  · intro hle j hj
    cases j with
    | zero => exact absurd hj hzero
    | succ j => exact Nat.succ_le_succ (hle ((hsucc j).mp hj))

theorem not_fallsAt_zero (l : List Int) : ¬FallsAt l 0 := fun h => Nat.lt_irrefl 0 h.1

theorem fallsAt_cons_succ_iff {a b : Int} {rest : List Int} (h : ¬b ≤ a) :
    FallsAt (a :: b :: rest) (i + 1) ↔ FallsAt (b :: rest) i := by
  cases i with
  | zero => simp [FallsAt, h]
  | succ i => simp [FallsAt]

theorem firstFall_eq_some_iff : firstFall l = some i ↔ IsLeast {j | FallsAt l j} i := by
  induction l generalizing i with
  | nil => exact iff_of_false (by simp [firstFall]) fun h => by simpa [FallsAt] using h.1
  | cons a t ih =>
    cases t with
    | nil =>
      refine iff_of_false (by simp [firstFall]) fun h => ?_
      obtain ⟨hpos, hlt, -⟩ := h.1
      exact absurd hlt (Nat.not_lt.mpr hpos)
    | cons b rest =>
      rw [firstFall]
      split
      · rename_i hle
        have hfirst : FallsAt (a :: b :: rest) 1 := ⟨Nat.one_pos, by simp, hle⟩
        have hleast : IsLeast {j | FallsAt (a :: b :: rest) j} 1 := ⟨hfirst, fun j hj => hj.1⟩
        rw [Option.some.injEq]
        exact ⟨fun h => h ▸ hleast, fun h => hleast.unique h⟩
      · rename_i hlt
        cases i with
        | zero => exact iff_of_false (by simp) fun h => not_fallsAt_zero _ h.1
        | succ i =>
          rw [isLeast_succ_iff (not_fallsAt_zero _) fun j => fallsAt_cons_succ_iff hlt, ← ih]
          simp

theorem firstFall_eq_none_iff_forall : firstFall l = none ↔ ∀ i, ¬FallsAt l i := by
  constructor
  · intro h i ⟨hpos, hi, hle⟩
    have hlt := getElem_lt_of_increasing (firstFall_eq_none_iff.mp h) (Nat.sub_one_lt_of_lt hpos) hi
    exact absurd hlt (Int.not_lt.mpr hle)
  · intro h
    cases hf : firstFall l with
    | none => rfl
    | some i => exact absurd (firstFall_eq_some_iff.mp hf).1 (h i)

theorem not_seenAt_zero {seen : Std.HashSet Int} {a : Int} {rest : List Int} (h : a ∉ seen) :
    ¬SeenAt seen (a :: rest) 0 := by
  simp [SeenAt, h]

theorem seenAt_cons_succ_iff {seen : Std.HashSet Int} {a : Int} {rest : List Int} :
    SeenAt seen (a :: rest) (i + 1) ↔ SeenAt (seen.insert a) rest i := by
  simp only [SeenAt, List.length_cons, Nat.add_lt_add_iff_right, List.getElem_cons_succ,
    List.take_succ_cons, List.mem_cons, Std.HashSet.mem_insert, beq_iff_eq]
  exact exists_congr fun _ => by tauto

/-- The elements already seen are those before the list, in any order. -/
theorem firstRepeat_eq_some_iff_seenAt {seen : Std.HashSet Int} {a : Int} :
    firstRepeat seen l = some a ↔ ∃ i, IsLeast {j | SeenAt seen l j} i ∧ l[i]? = some a := by
  induction l generalizing seen with
  | nil => simp [firstRepeat]
  | cons b rest ih =>
    rw [firstRepeat]
    split
    · rename_i hb
      have hleast : IsLeast {j | SeenAt seen (b :: rest) j} 0 :=
        ⟨⟨Nat.zero_lt_succ _, .inl hb⟩, fun j _ => Nat.zero_le j⟩
      constructor
      · intro h
        exact ⟨0, hleast, h⟩
      · rintro ⟨i, hi, ha⟩
        rwa [← hleast.unique hi] at ha
    · rename_i hb
      have hshift (i : Nat) : IsLeast {j | SeenAt seen (b :: rest) j} (i + 1) ↔
          IsLeast {j | SeenAt (seen.insert b) rest j} i :=
        isLeast_succ_iff (not_seenAt_zero hb) fun j => seenAt_cons_succ_iff
      rw [ih]
      constructor
      · rintro ⟨i, hi, ha⟩
        exact ⟨i + 1, (hshift i).mpr hi, ha⟩
      · rintro ⟨i, hi, ha⟩
        cases i with
        | zero => exact absurd hi.1 (not_seenAt_zero hb)
        | succ i => exact ⟨i, (hshift i).mp hi, ha⟩

theorem firstRepeat_eq_some_iff {a : Int} :
    firstRepeat ∅ l = some a ↔ ∃ i, IsLeast {j | RepeatsAt l j} i ∧ l[i]? = some a := by
  rw [firstRepeat_eq_some_iff_seenAt]
  simp only [SeenAt, Std.HashSet.not_mem_empty, false_or, RepeatsAt]

end Faults

namespace Axes

variable {dates assets : List Int} {x : Axes} {e : AxisFault}

theorem make_self (x : Axes) : make x.dates x.assets = .ok x := by
  have hrise : firstFall x.dates = none := firstFall_eq_none_iff.mpr x.increasing
  have honce : firstRepeat ∅ x.assets = none :=
    firstRepeat_eq_none_iff.mpr ⟨x.assets_nodup, fun a _ => Std.HashSet.not_mem_empty⟩
  unfold make
  rw [dif_neg x.dates_ne_nil]
  split
  · rename_i i hi
    rw [hrise] at hi
    cases hi
  · split
    · rename_i sid hsid
      rw [honce] at hsid
      cases hsid
    · rfl

/-- What makes lists no axes, in the order in which it is looked for. -/
theorem make_eq_error_iff : make dates assets = .error e ↔
    match e with
    | .noDates => dates = []
    | .notIncreasing i => firstFall dates = some i
    | .duplicateAsset sid =>
      dates ≠ [] ∧ firstFall dates = none ∧ firstRepeat ∅ assets = some sid := by
  unfold make
  split
  · rename_i hnil
    subst hnil
    cases e <;> simp [firstFall]
  · rename_i hne
    split
    · rename_i i hi
      cases e <;> simp [hne, hi]
    · rename_i hrise
      split
      · rename_i sid hsid
        cases e <;> simp [hne, hrise, hsid]
      · rename_i honce
        cases e <;> simp [hne, hrise, honce]

theorem make_notIncreasing_iff {i : Nat} :
    make dates assets = .error (.notIncreasing i) ↔ IsLeast {j | FallsAt dates j} i :=
  make_eq_error_iff.trans firstFall_eq_some_iff

theorem make_duplicateAsset_iff {sid : Int} : make dates assets = .error (.duplicateAsset sid) ↔
    dates ≠ [] ∧ (∀ i, ¬FallsAt dates i) ∧
      ∃ i, IsLeast {j | RepeatsAt assets j} i ∧ assets[i]? = some sid := by
  rw [← firstFall_eq_none_iff_forall, ← firstRepeat_eq_some_iff]
  exact make_eq_error_iff

theorem make_eq_ok_iff : make dates assets = .ok x ↔ x.dates = dates ∧ x.assets = assets := by
  constructor
  · unfold make
    split
    · rintro ⟨⟩
    · split
      · rintro ⟨⟩
      · split
        · rintro ⟨⟩
        · rintro ⟨⟩
          exact ⟨rfl, rfl⟩
  · rintro ⟨rfl, rfl⟩
    exact make_self x

theorem exists_make_iff : (∃ x, make dates assets = .ok x) ↔
    dates ≠ [] ∧ dates.Pairwise (· < ·) ∧ assets.Nodup := by
  constructor
  · rintro ⟨x, hx⟩
    obtain ⟨rfl, rfl⟩ := make_eq_ok_iff.mp hx
    exact ⟨x.dates_ne_nil, x.increasing, x.assets_nodup⟩
  · rintro ⟨hne, hrise, honce⟩
    exact ⟨_, make_self ⟨dates, assets, hne, hrise, honce⟩⟩

theorem make_invalid (h : ¬(dates ≠ [] ∧ dates.Pairwise (· < ·) ∧ assets.Nodup)) :
    ∃ e, make dates assets = .error e := by
  cases hmake : make dates assets with
  | error e => exact ⟨e, rfl⟩
  | ok x => exact absurd (exists_make_iff.mp ⟨x, hmake⟩) h

theorem isLeast_start (x : Axes) : IsLeast {d | d ∈ x.dates} x.start := by
  refine ⟨List.head_mem x.dates_ne_nil, fun d hd => ?_⟩
  obtain ⟨i, hi, rfl⟩ := List.getElem_of_mem hd
  rw [start, ← List.getElem_zero (Nat.zero_lt_of_lt hi)]
  exact getElem_le_of_increasing x.increasing (Nat.zero_le i) hi

theorem isGreatest_stop (x : Axes) : IsGreatest {d | d ∈ x.dates} x.stop := by
  refine ⟨List.getLast_mem x.dates_ne_nil, fun d hd => ?_⟩
  obtain ⟨i, hi, rfl⟩ := List.getElem_of_mem hd
  rw [stop, List.getLast_eq_getElem]
  exact getElem_le_of_increasing x.increasing (Nat.le_sub_one_of_lt hi) _

/-- Lists are axes exactly if there are dates, the dates rise and no asset is named twice; the axes
are then these lists, from the earliest date to the latest. Otherwise the fault is that there are no
dates, or else the first index at which the dates do not rise, or else, if they rise everywhere, the
first asset that has been named before. -/
theorem make_exact (dates assets : List Int) :
    ((∃ x, make dates assets = .ok x) ↔
      dates ≠ [] ∧ dates.Pairwise (· < ·) ∧ assets.Nodup) ∧
    (∀ x, make dates assets = .ok x → x.dates = dates ∧ x.assets = assets ∧
      IsLeast {d | d ∈ dates} x.start ∧ IsGreatest {d | d ∈ dates} x.stop) ∧
    (make dates assets = .error .noDates ↔ dates = []) ∧
    (∀ i, make dates assets = .error (.notIncreasing i) ↔ IsLeast {j | FallsAt dates j} i) ∧
    ∀ sid, make dates assets = .error (.duplicateAsset sid) ↔
      dates ≠ [] ∧ (∀ i, ¬FallsAt dates i) ∧
        ∃ i, IsLeast {j | RepeatsAt assets j} i ∧ assets[i]? = some sid := by
  refine ⟨exists_make_iff, ?_, make_eq_error_iff, fun i => make_notIncreasing_iff,
    fun sid => make_duplicateAsset_iff⟩
  intro x hx
  obtain ⟨rfl, rfl⟩ := make_eq_ok_iff.mp hx
  exact ⟨rfl, rfl, x.isLeast_start, x.isGreatest_stop⟩

theorem make_exact_first_fault :
    make [0, 10, 10, 5] [1, 1] = .error (.notIncreasing 2) ∧
    make [0, 10] [1, 2, 2, 1] = .error (.duplicateAsset 2) ∧
    ∃ x, make [-5, 0, 10] [] = .ok x ∧ x.start = -5 ∧ x.stop = 10 := by
  obtain ⟨-, -, -, hfall, -⟩ := make_exact [0, 10, 10, 5] [1, 1]
  obtain ⟨-, -, -, -, hrepeat⟩ := make_exact [0, 10] [1, 2, 2, 1]
  obtain ⟨hok, hkept, -⟩ := make_exact [-5, 0, 10] []
  refine ⟨(hfall 2).mpr ?_, (hrepeat 2).mpr ?_, ?_⟩
  · rw [← firstFall_eq_some_iff]
    rfl
  · rw [← firstFall_eq_none_iff_forall, ← firstRepeat_eq_some_iff]
    exact ⟨by decide, rfl, by simp [firstRepeat]⟩
  · obtain ⟨x, hx⟩ := hok.mpr ⟨by decide, by decide, by decide⟩
    obtain ⟨-, -, hstart, hstop⟩ := hkept x hx
    refine ⟨x, hx, hstart.unique ?_, hstop.unique ?_⟩
    · exact ⟨by decide, by simp [lowerBounds]⟩
    · exact ⟨by decide, by simp [upperBounds]⟩

end Axes

end AsOf
