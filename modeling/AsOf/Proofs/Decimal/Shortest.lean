import AsOf.Decimal.Shortest
import AsOf.Proofs.Decimal.Doubles
import Mathlib.Algebra.Order.Field.Power
import Mathlib.Algebra.Order.Ring.Rat
import Mathlib.Tactic.Linarith
import Mathlib.Tactic.NormNum
import Mathlib.Tactic.Ring

namespace AsOf

namespace Decimal

def value (d : Decimal) : ℚ := d.coefficient * 10 ^ d.exponent

namespace Interval

variable {c : Interval} {e : Int} {d n : Nat} {q : ℚ}

/-- A number lies in an interval: strictly between its ends, or on one of them if it is closed. -/
def Holds (c : Interval) (q : ℚ) : Prop :=
  (c.low * 2 ^ c.unit ≤ q ∧ q ≤ c.high * 2 ^ c.unit) ∧
    (c.closed = false → c.low * 2 ^ c.unit < q ∧ q < c.high * 2 ^ c.unit)

theorem pow_toNat {x : ℚ} (hx : x ≠ 0) (n : Int) : x ^ n.toNat = x ^ (-n).toNat * x ^ n := by
  rw [← zpow_natCast, ← zpow_natCast, ← zpow_add₀ hx]
  congr 1
  omega

theorem scales_pos (c : Interval) (e : Int) : 0 < (c.scales e).1 ∧ 0 < (c.scales e).2 := by
  have hten (n : Nat) : 0 < Nat.pow 10 n := Nat.pow_pos (by decide)
  have htwo (n : Nat) : 0 < Nat.pow 2 n := Nat.pow_pos (by decide)
  exact ⟨Nat.mul_pos (hten _) (htwo _), Nat.mul_pos (hten _) (htwo _)⟩

theorem exists_scale (c : Interval) (e : Int) : ∃ k : ℚ, 0 < k ∧
    (∀ n : Nat, ((n * (c.scales e).2 : Nat) : ℚ) = k * (n * 2 ^ c.unit)) ∧
    ∀ d : Nat, ((d * (c.scales e).1 : Nat) : ℚ) = k * (d * 10 ^ e) := by
  have hten := pow_toNat (x := 10) (by norm_num) e
  have htwo := pow_toNat (x := 2) (by norm_num) c.unit
  refine ⟨10 ^ (-e).toNat * 2 ^ (-c.unit).toNat, by positivity, fun n => ?_, fun d => ?_⟩ <;>
    simp only [scales, Nat.pow_eq, Nat.cast_mul, Nat.cast_pow, Nat.cast_ofNat, hten, htwo] <;>
    ring

theorem units_le_grid_iff (c : Interval) (e : Int) (n d : Nat) :
    n * (c.scales e).2 ≤ d * (c.scales e).1 ↔ n * (2 : ℚ) ^ c.unit ≤ d * 10 ^ e := by
  obtain ⟨k, hk, hunits, hgrid⟩ := c.exists_scale e
  rw [← Nat.cast_le (α := ℚ), hunits, hgrid, mul_le_mul_iff_right₀ hk]

theorem grid_le_units_iff (c : Interval) (e : Int) (n d : Nat) :
    d * (c.scales e).1 ≤ n * (c.scales e).2 ↔ d * (10 : ℚ) ^ e ≤ n * 2 ^ c.unit := by
  obtain ⟨k, hk, hunits, hgrid⟩ := c.exists_scale e
  rw [← Nat.cast_le (α := ℚ), hunits, hgrid, mul_le_mul_iff_right₀ hk]

theorem covers_iff : c.covers d e = true ↔ c.Holds (d * 10 ^ e) := by
  have hlow := c.units_le_grid_iff e c.low d
  have hhigh := c.grid_le_units_iff e c.high d
  have hlow' := not_congr (c.grid_le_units_iff e c.low d)
  have hhigh' := not_congr (c.units_le_grid_iff e c.high d)
  simp only [not_le] at hlow' hhigh'
  simp only [covers, Holds]
  cases c.closed with
  | true =>
    simp only [if_true, Bool.and_eq_true, decide_eq_true_eq, hlow, hhigh, reduceCtorEq,
      false_implies, and_true]
  | false =>
    simp only [Bool.false_eq_true, if_false, Bool.and_eq_true, decide_eq_true_eq, hlow', hhigh',
      forall_const]
    exact ⟨fun h => ⟨⟨h.1.le, h.2.le⟩, h⟩, fun h => h.2⟩

theorem reaches_iff : c.reaches e = true ↔ (10 : ℚ) ^ e ≤ c.point * 2 ^ c.unit := by
  have hgrid := c.grid_le_units_iff e c.point 1
  rw [one_mul, Nat.cast_one, one_mul] at hgrid
  simp only [reaches, decide_eq_true_eq, hgrid]

/-- A grid whose steps are shorter than the interval has a number in it. -/
theorem exists_onGrid? (hlow : c.low ≤ c.point) (hhigh : c.point < c.high)
    (hstep : c.low * (2 : ℚ) ^ c.unit + 10 ^ e < c.high * 2 ^ c.unit) :
    ∃ d, c.onGrid? e = some d := by
  obtain ⟨ha, hb⟩ := c.scales_pos e
  have hstep : c.low * (c.scales e).2 + (c.scales e).1 < c.high * (c.scales e).2 := by
    obtain ⟨k, hk, hunits, hgrid⟩ := c.exists_scale e
    have hgrid := hgrid 1
    rw [one_mul, Nat.cast_one, one_mul] at hgrid
    rw [← Nat.cast_lt (α := ℚ), Nat.cast_add, hunits, hgrid, hunits, ← mul_add]
    exact mul_lt_mul_of_pos_left hstep hk
  have hlow := Nat.mul_le_mul_right (c.scales e).2 hlow
  have hhigh := Nat.mul_lt_mul_of_pos_right hhigh hb
  simp only [onGrid?]
  have hbelow := Nat.div_mul_le_self (c.point * (c.scales e).2) (c.scales e).1
  have habove := Nat.lt_mul_div_succ (c.point * (c.scales e).2) ha
  generalize c.point * (c.scales e).2 / (c.scales e).1 = n at *
  rw [Nat.mul_comm (c.scales e).1] at habove
  have hcovers : c.covers n e = true ∨ c.covers (n + 1) e = true := by
    have hnext := Nat.add_one_mul n (c.scales e).1
    simp only [covers]
    split <;> simp only [Bool.and_eq_true, decide_eq_true_eq] <;> omega
  split
  · split
    · exact ⟨_, rfl⟩
    · split <;> exact ⟨_, rfl⟩
  · exact ⟨_, rfl⟩
  · exact ⟨_, rfl⟩
  · simp_all

theorem covers_of_onGrid? (h : c.onGrid? e = some d) : c.covers d e = true := by
  simp only [onGrid?] at h
  generalize hn : c.point * (c.scales e).2 / (c.scales e).1 = n at h
  split at h
  · rename_i hbelow habove
    have hparity : n + n % 2 = n ∨ n + n % 2 = n + 1 := by omega
    split at h
    · cases h
      exact hbelow
    · split at h
      · cases h
        exact habove
      · cases h
        rcases hparity with he | he <;> rw [he] <;> assumption
  · cases h
    assumption
  · cases h
    assumption
  · cases h

/-- Powers of ten and of two are compared by their exponents, with `196 / 59` and `93 / 28` for the
number of bits in a decimal digit. -/
theorem ten_zpow_le_two_zpow {n l : Int} (hup : 0 ≤ n → 196 * n ≤ 59 * l)
    (hdown : n ≤ 0 → 93 * n ≤ 28 * l) : (10 : ℚ) ^ n ≤ 2 ^ l := by
  have htwo : (0 : ℚ) < 2 ^ l := by positivity
  rcases Int.le_total 0 n with hn | hn
  · refine le_of_pow_le_pow_left₀ (n := 59) (by decide) htwo.le ?_
    calc ((10 : ℚ) ^ n) ^ 59 = (10 ^ 59) ^ n := by
          rw [← zpow_natCast, ← zpow_natCast, ← zpow_mul, ← zpow_mul, mul_comm]
      _ ≤ (2 ^ 196) ^ n := zpow_le_zpow_left₀ hn (by norm_num) (by norm_num)
      _ = 2 ^ (196 * n) := by rw [← zpow_natCast, ← zpow_mul]; rfl
      _ ≤ 2 ^ (59 * l) := zpow_le_zpow_right₀ (by norm_num) (hup hn)
      _ = (2 ^ l) ^ 59 := by rw [← zpow_natCast, ← zpow_mul, mul_comm]; rfl
  · refine le_of_pow_le_pow_left₀ (n := 28) (by decide) htwo.le ?_
    have hinv : ((10 : ℚ) ^ 28) ^ n ≤ (2 ^ 93) ^ n := by
      obtain ⟨k, rfl⟩ := Int.exists_eq_neg_ofNat hn
      rw [zpow_neg, zpow_neg, zpow_natCast, zpow_natCast]
      exact inv_anti₀ (by positivity) (pow_le_pow_left₀ (by norm_num) (by norm_num) k)
    calc ((10 : ℚ) ^ n) ^ 28 = (10 ^ 28) ^ n := by
          rw [← zpow_natCast, ← zpow_natCast, ← zpow_mul, ← zpow_mul, mul_comm]
      _ ≤ (2 ^ 93) ^ n := hinv
      _ = 2 ^ (93 * n) := by rw [← zpow_natCast, ← zpow_mul]; rfl
      _ ≤ 2 ^ (28 * l) := zpow_le_zpow_right₀ (by norm_num) (hdown hn)
      _ = (2 ^ l) ^ 28 := by rw [← zpow_natCast, ← zpow_mul, mul_comm]; rfl

/-- The estimate of the magnitude is at most one too high. -/
theorem reaches_magnitude (hpoint : c.point ≠ 0)
    (hl : -20000 ≤ (c.point.log2 : Int) + c.unit) (hu : (c.point.log2 : Int) + c.unit ≤ 20000) :
    c.reaches c.magnitude = true := by
  simp only [magnitude]
  generalize hg : (((c.point.log2 : Int) + c.unit) * 30103).fdiv 100000 = guess
  rw [Int.fdiv_eq_ediv_of_nonneg _ (by decide)] at hg
  split
  · assumption
  · split
    · assumption
    · refine reaches_iff.mpr ?_
      calc (10 : ℚ) ^ (guess - 1) ≤ 2 ^ ((c.point.log2 : Int) + c.unit) :=
            ten_zpow_le_two_zpow (by omega) (by omega)
        _ = 2 ^ c.point.log2 * 2 ^ c.unit := by rw [zpow_add₀ (by norm_num), zpow_natCast]
        _ ≤ c.point * 2 ^ c.unit := by
            refine mul_le_mul_of_nonneg_right ?_ (by positivity)
            exact_mod_cast Nat.log2_self_le hpoint

theorem holds_search {magnitude : Int} {tries k : Nat} (hk : k < tries)
    (h : ∃ d, c.onGrid? (magnitude + 1 - (n + k : Nat)) = some d) :
    c.Holds (c.search magnitude n tries).value := by
  induction tries generalizing n k with
  | zero => omega
  | succ tries ih =>
    simp only [search]
    split
    case h_1 d hd => exact covers_iff.mp (covers_of_onGrid? hd)
    case h_2 hnone =>
      cases k with
      | zero =>
        obtain ⟨d, hd⟩ := h
        exact absurd (hnone.symm.trans hd) nofun
      | succ k =>
        rw [Nat.add_comm k, ← Nat.add_assoc] at h
        exact ih (Nat.lt_of_succ_lt_succ hk) h

variable {m m' : Nat} {e' : Int}

@[simp] theorem ofBinary_point (m : Nat) (e : Int) : (ofBinary m e).point = 4 * m := rfl

@[simp] theorem ofBinary_high (m : Nat) (e : Int) : (ofBinary m e).high = 4 * m + 2 := rfl

@[simp] theorem ofBinary_unit (m : Nat) (e : Int) : (ofBinary m e).unit = e - 2 := rfl

@[simp] theorem ofBinary_closed (m : Nat) (e : Int) :
    (ofBinary m e).closed = decide (m % 2 = 0) := rfl

theorem ofBinary_low (m : Nat) (e : Int) :
    (m = Binary.fractions ∧ -1074 < e) ∧ (ofBinary m e).low = 4 * m - 1 ∨
      ¬ (m = Binary.fractions ∧ -1074 < e) ∧ (ofBinary m e).low = 4 * m - 2 := by
  simp only [ofBinary]
  split
  · exact .inl ⟨‹_›, rfl⟩
  · exact .inr ⟨‹_›, rfl⟩

theorem reaches_magnitude_ofBinary (hm : 0 < m) (h : Binary.Canonical m e) :
    (ofBinary m e).reaches (ofBinary m e).magnitude = true := by
  have hlog : (4 * m).log2 < 64 := by
    have hlt := h.lt
    simp only [Binary.fractions] at hlt
    exact (Nat.log2_lt (by omega)).mpr (by omega)
  have hge := h.ge
  have hle := h.le
  apply reaches_magnitude <;> simp only [ofBinary_point, ofBinary_unit] <;> omega

/-- The interval of a double is wider than its `10 ^ 16`th part. -/
theorem width_ofBinary (h : Binary.Canonical m e) :
    ((ofBinary m e).low : ℚ) + (4 * m : Nat) / 10 ^ 16 < (ofBinary m e).high := by
  have hwidth : (ofBinary m e).low * 10 ^ 16 + 4 * m < (ofBinary m e).high * 10 ^ 16 := by
    have hlt := h.lt
    have hlow := ofBinary_low m e
    simp only [ofBinary_high, Binary.fractions] at *
    omega
  rw [← mul_lt_mul_iff_left₀ (show (0 : ℚ) < 10 ^ 16 by norm_num), add_mul,
    div_mul_cancel₀ _ (by norm_num)]
  exact_mod_cast hwidth

/-- Seventeen digits are enough for every double. -/
theorem exists_onGrid?_seventeen (hm : 0 < m) (h : Binary.Canonical m e) :
    ∃ d, (ofBinary m e).onGrid? ((ofBinary m e).magnitude + 1 - 17) = some d := by
  have hreach := reaches_iff.mp (reaches_magnitude_ofBinary hm h)
  have hlow := ofBinary_low m e
  refine exists_onGrid? (by simp only [ofBinary_point]; omega)
    (by simp only [ofBinary_point, ofBinary_high]; omega) ?_
  have hunit : (0 : ℚ) < 2 ^ (ofBinary m e).unit := by positivity
  have hsixteen : (ofBinary m e).magnitude + 1 - 17 = (ofBinary m e).magnitude - (16 : Nat) := by
    omega
  calc (ofBinary m e).low * (2 : ℚ) ^ (ofBinary m e).unit
        + 10 ^ ((ofBinary m e).magnitude + 1 - 17)
      = (ofBinary m e).low * 2 ^ (ofBinary m e).unit
        + 10 ^ (ofBinary m e).magnitude / 10 ^ 16 := by
        rw [hsixteen, zpow_sub₀ (by norm_num), zpow_natCast]
    _ ≤ (ofBinary m e).low * 2 ^ (ofBinary m e).unit
        + (4 * m : Nat) * 2 ^ (ofBinary m e).unit / 10 ^ 16 := by
        gcongr
        exact hreach
    _ = ((ofBinary m e).low + (4 * m : Nat) / 10 ^ 16) * 2 ^ (ofBinary m e).unit := by ring
    _ < (ofBinary m e).high * 2 ^ (ofBinary m e).unit :=
        mul_lt_mul_of_pos_right (width_ofBinary h) hunit

/-- The interval of a double lies below that of a greater one; where they touch, one of the two has
no ends. -/
theorem not_holds_of_lt (h : Binary.Canonical m e) (h' : Binary.Canonical m' e') (hm' : 0 < m')
    (hlt : e < e' ∨ e = e' ∧ m < m') (hq : (ofBinary m e).Holds q) :
    ¬ (ofBinary m' e').Holds q := by
  intro hq'
  obtain ⟨k, rfl⟩ : ∃ k : Nat, e' = e + k := ⟨(e' - e).toNat, by omega⟩
  have hpow : (0 : ℚ) < 2 ^ (e - 2) := by positivity
  have hunits (n : Nat) : n * (2 : ℚ) ^ (e + k - 2) = (n * 2 ^ k : Nat) * 2 ^ (e - 2) := by
    rw [add_sub_right_comm, zpow_add₀ (by norm_num), zpow_natCast, Nat.cast_mul, Nat.cast_pow,
      Nat.cast_ofNat]
    ring
  simp only [Holds, ofBinary_high, ofBinary_unit, ofBinary_closed, hunits,
    decide_eq_false_iff_not] at hq hq'
  have hle : (ofBinary m' (e + k)).low * 2 ^ k ≤ 4 * m + 2 := by
    have := le_of_mul_le_mul_right (hq'.1.1.trans hq.1.2) hpow
    exact_mod_cast this
  have hne (hopen : ¬ (m % 2 = 0 ∧ m' % 2 = 0)) :
      (ofBinary m' (e + k)).low * 2 ^ k ≠ 4 * m + 2 := by
    intro heq
    rw [heq] at hq'
    rcases not_and_or.mp hopen with hodd | hodd
    · exact absurd (hq'.1.1.trans_lt (hq.2 hodd).2) (lt_irrefl _)
    · exact absurd ((hq'.2 hodd).1.trans_le hq.1.2) (lt_irrefl _)
  have hlow := ofBinary_low m' (e + k)
  have hbelow := h.lt
  cases k with
  | zero => omega
  | succ k =>
    -- A greater exponent is not the least one, so the greater mantissa has all its bits.
    have habove : -1074 < e + (k + 1 : Nat) := by
      have := h.ge
      omega
    have hnormal := h'.normal habove
    have htwice : (ofBinary m' (e + (k + 1 : Nat))).low * 2 ≤
        (ofBinary m' (e + (k + 1 : Nat))).low * 2 ^ (k + 1) :=
      Nat.mul_le_mul_left _ (Nat.le_self_pow (by omega) 2)
    simp only [Binary.fractions] at *
    omega

/-- No number rounds to two doubles. -/
theorem holds_unique (h : Binary.Canonical m e) (h' : Binary.Canonical m' e') (hm : 0 < m)
    (hm' : 0 < m') (hq : (ofBinary m e).Holds q) (hq' : (ofBinary m' e').Holds q) :
    m = m' ∧ e = e' := by
  by_contra hne
  have hlt : (e < e' ∨ e = e' ∧ m < m') ∨ e' < e ∨ e' = e ∧ m' < m := by omega
  rcases hlt with hlt | hlt
  · exact not_holds_of_lt h h' hm' hlt hq hq'
  · exact not_holds_of_lt h' h hm hlt hq' hq

theorem pos_of_holds (hm : 0 < m) (hq : (ofBinary m e).Holds q) : 0 < q := by
  have hlow : 0 < (ofBinary m e).low := by
    have := ofBinary_low m e
    omega
  have hend : (0 : ℚ) < (ofBinary m e).low * 2 ^ (ofBinary m e).unit := by positivity
  exact hend.trans_le hq.1.1

end Interval

theorem value_strip (d : Decimal) : d.strip.value = d.value := by
  induction d using strip.induct with
  | case1 d h ih =>
    obtain ⟨n, hn⟩ : ∃ n, d.coefficient = n * 10 := ⟨d.coefficient / 10, by omega⟩
    rw [strip, dif_pos h, ih]
    simp only [value, hn, Nat.mul_div_cancel n (show 0 < 10 by decide)]
    rw [zpow_add_one₀ (by norm_num)]
    push_cast
    ring
  | case2 d h => rw [strip, dif_neg h]

variable {m m' : Nat} {e e' : Int}

/-- The shortest decimal of a double rounds to it. -/
theorem holds_shortest (hm : 0 < m) (h : Binary.Canonical m e) :
    (Interval.ofBinary m e).Holds (shortest m e).value := by
  simp only [shortest, value_strip]
  exact Interval.holds_search (k := 16) (by decide) (Interval.exists_onGrid?_seventeen hm h)

theorem shortest_value_pos (hm : 0 < m) (h : Binary.Canonical m e) : 0 < (shortest m e).value :=
  Interval.pos_of_holds hm (holds_shortest hm h)

theorem shortest_coefficient_pos (hm : 0 < m) (h : Binary.Canonical m e) :
    0 < (shortest m e).coefficient := by
  refine Nat.pos_of_ne_zero fun hzero => ?_
  have hpos := shortest_value_pos hm h
  simp [value, hzero] at hpos

def shortestValue (mantissa : Nat) (exponent : Int) : ℚ :=
  if mantissa = 0 then 0 else (shortest mantissa exponent).value

theorem shortestValue_injective (h : Binary.Canonical m e) (h' : Binary.Canonical m' e')
    (heq : shortestValue m e = shortestValue m' e') : m = m' ∧ e = e' := by
  simp only [shortestValue] at heq
  rcases Nat.eq_zero_or_pos m with rfl | hm <;> rcases Nat.eq_zero_or_pos m' with rfl | hm'
  · exact ⟨rfl, h.exponent_of_zero.trans h'.exponent_of_zero.symm⟩
  · rw [if_pos rfl, if_neg (Nat.ne_of_gt hm')] at heq
    exact absurd heq (ne_of_lt (shortest_value_pos hm' h'))
  · rw [if_pos rfl, if_neg (Nat.ne_of_gt hm)] at heq
    exact absurd heq.symm (ne_of_lt (shortest_value_pos hm h))
  · rw [if_neg (Nat.ne_of_gt hm), if_neg (Nat.ne_of_gt hm')] at heq
    have hholds := holds_shortest hm h
    rw [heq] at hholds
    exact Interval.holds_unique h h' hm hm' hholds (holds_shortest hm' h')

end Decimal

end AsOf
