import AsOf.Json.Text
import AsOf.Json.Written
import AsOf.Proofs.Decimal.Digits
import AsOf.Proofs.Decimal.Shortest
import Mathlib.Tactic.FieldSimp

namespace AsOf

def Literal.decimal (l : Literal) : Decimal := ⟨l.coefficient, l.exponent⟩

def IsNumeral (ds : List Char) : Prop := ds ≠ [] ∧ ∀ c ∈ ds, isDigit c = true

theorem IsNumeral.of_subset {ds fs : List Char} (h : IsNumeral ds) (hne : fs ≠ [])
    (hfs : ∀ c ∈ fs, c ∈ ds ∨ c = '0') : IsNumeral fs := by
  refine ⟨hne, fun c hc => ?_⟩
  rcases hfs c hc with hc | rfl
  · exact h.2 c hc
  · rfl

/-- What may follow a value: nothing, or a comma or a closing bracket. -/
def IsEnding (r : List Char) : Prop := ∀ c ∈ r.head?, c = ',' ∨ c = ']' ∨ c = '\x7d'

theorem IsEnding.not_isDigit {r : List Char} (h : IsEnding r) :
    ∀ c ∈ r.head?, isDigit c = false := by
  intro c hc
  rcases h c hc with rfl | rfl | rfl <;> decide

namespace Decimal

theorem isNumeral_digits (n : Nat) : IsNumeral (digits n) :=
  ⟨digits_ne_nil n, List.all_eq_true.mp (all_isDigit_digits n)⟩

theorem numeral_append_zeros (ds : List Char) (n : Nat) :
    numeral 10 (ds ++ List.replicate n '0') = numeral 10 ds * 10 ^ n := by
  induction n with
  | zero => simp
  | succ n ih =>
    rw [List.replicate_succ', ← List.append_assoc, numeral, List.foldl_append]
    change numeral 10 (ds ++ List.replicate n '0') * 10 + 0 = _
    rw [ih, Nat.pow_succ, Nat.add_zero, Nat.mul_assoc]

theorem numeral_zeros_append (n : Nat) (ds : List Char) :
    numeral 10 (List.replicate n '0' ++ ds) = numeral 10 ds := by
  induction n with
  | zero => rfl
  | succ n ih => exact ih

theorem value_shift (d : Decimal) (n : Nat) :
    value ⟨d.coefficient * 10 ^ n, d.exponent - n⟩ = d.value := by
  simp only [value]
  rw [zpow_sub₀ (by norm_num), zpow_natCast]
  push_cast
  field_simp

end Decimal

namespace Written

open Decimal

variable {c : Char} {cs ds fs r t : List Char} {negative : Bool} {n : Nat} {x : Option Int}
  {d : Decimal} {style : DecimalStyle} {v : Float} {p : Written × List Char}

theorem digits?_append (hds : IsNumeral ds) (hr : ∀ c ∈ r.head?, isDigit c = false) :
    digits? (ds ++ r) = some (ds, r) := by
  have htake : r.takeWhile isDigit = [] := by
    cases r with
    | nil => rfl
    | cons c r => simp [hr c rfl]
  have hdrop : r.dropWhile isDigit = r := by
    cases r with
    | nil => rfl
    | cons c r => simp [hr c rfl]
  obtain ⟨hne, hall⟩ := hds
  rw [digits?, List.takeWhile_append_of_pos hall, List.dropWhile_append_of_pos hall, htake, hdrop,
    List.append_nil]
  cases ds with
  | nil => exact absurd rfl hne
  | cons c ds => rfl

theorem wholeDigits?_append (hds : IsNumeral ds) (hlead : ds.head? = some '0' → ds.length = 1)
    (hr : ∀ c ∈ r.head?, isDigit c = false) : wholeDigits? (ds ++ r) = some (ds, r) := by
  rw [wholeDigits?, digits?_append hds hr]
  exact if_neg fun h => Nat.ne_of_gt h.2 (hlead h.1)

theorem exponent?_of_isEnding (h : IsEnding r) : exponent? r = some (none, r) := by
  cases r with
  | nil => rfl
  | cons c r => rcases h c rfl with rfl | rfl | rfl <;> rfl

theorem exponent?_signed (n : Int) (h : IsEnding r) :
    exponent? ('e' :: signed n ++ r) = some (some n, r) := by
  have hdigits := digits?_append (isNumeral_digits n.natAbs) h.not_isDigit
  rw [signed]
  split
  · change (digits? (digits n.natAbs ++ r)).map _ = _
    simp only [hdigits, Option.map_some, numeral_digits]
    congr 3
    omega
  · change (digits? (digits n.natAbs ++ r)).map _ = _
    simp only [hdigits, Option.map_some, numeral_digits]
    congr 3
    omega

theorem readNumber?_whole (negative : Bool) (hds : IsNumeral ds)
    (hlead : ds.head? = some '0' → ds.length = 1)
    (ht : ∀ c ∈ t.head?, isDigit c = false ∧ c ≠ '.') (hx : exponent? t = some (x, r)) :
    readNumber? negative (ds ++ t) =
      some (x.elim (.whole negative (numeral 10 ds)) fun n => .decimal (.ofParts negative ds [] n),
        r) := by
  rw [readNumber?, wholeDigits?_append hds hlead fun c hc => (ht c hc).1]
  simp only [Option.bind_eq_bind, Option.bind_some]
  split
  · exact absurd rfl (ht '.' rfl).2
  · simp only [Option.bind_some, hx]
    cases x <;> rfl

theorem readNumber?_fraction (negative : Bool) (hds : IsNumeral ds) (hfs : IsNumeral fs)
    (hlead : ds.head? = some '0' → ds.length = 1) (ht : ∀ c ∈ t.head?, isDigit c = false)
    (hx : exponent? t = some (x, r)) :
    readNumber? negative (ds ++ '.' :: (fs ++ t)) =
      some (.decimal (.ofParts negative ds fs (x.getD 0)), r) := by
  have hfs' : fs.isEmpty = false := List.isEmpty_eq_false_iff.mpr hfs.1
  rw [readNumber?, wholeDigits?_append hds hlead (by simp; decide)]
  simp only [Option.bind_eq_bind, Option.bind_some, digits?_append hfs ht, hx, hfs',
    Bool.false_and, Bool.false_eq_true, if_false, Option.pure_def]

theorem readNumber?_digits (negative : Bool) (n : Nat) (hr : IsEnding r) :
    readNumber? negative (digits n ++ r) = some (.whole negative n, r) := by
  have hlead (h : (digits n).head? = some '0') : (digits n).length = 1 := by
    rcases Nat.eq_zero_or_pos n with rfl | hn
    · rw [digits]
      rfl
    · exact absurd h (head?_digits hn)
  have hstop : ∀ c ∈ r.head?, isDigit c = false ∧ c ≠ '.' := by
    intro c hc
    rcases hr c hc with rfl | rfl | rfl <;> decide
  rw [readNumber?_whole negative (isNumeral_digits n) hlead hstop (exponent?_of_isEnding hr),
    numeral_digits]
  rfl

theorem value_ofParts {e : Int}
    (hcoefficient : numeral 10 (ds ++ fs) = d.coefficient * 10 ^ n)
    (hexponent : e - fs.length = d.exponent - n) :
    (Literal.ofParts negative ds fs e).decimal.value = d.value := by
  rw [← value_shift d n, ← hcoefficient, ← hexponent]
  rfl

/-- A text after its sign is read as a decimal of some value, wherever it ends. -/
def ReadsAs (text : List Char) (negative : Bool) (q : ℚ) : Prop :=
  ∀ r, IsEnding r → ∃ l, readNumber? negative (text ++ r) = some (.decimal l, r) ∧
    l.negative = negative ∧ l.decimal.value = q

theorem readsAs_point (n : Nat) (hds : IsNumeral ds) (hfs : IsNumeral fs)
    (hlead : ds.head? = some '0' → ds.length = 1)
    (hcoefficient : numeral 10 (ds ++ fs) = d.coefficient * 10 ^ n)
    (hexponent : -(fs.length : Int) = d.exponent - n) :
    ReadsAs (ds ++ '.' :: fs) negative d.value := by
  intro r hr
  have hread := readNumber?_fraction negative hds hfs hlead hr.not_isDigit
    (exponent?_of_isEnding hr)
  rw [← List.cons_append, ← List.append_assoc] at hread
  refine ⟨_, hread, rfl, value_ofParts hcoefficient ?_⟩
  simpa using hexponent

theorem readsAs_zero : ReadsAs ['0', '.', '0'] negative 0 := by
  have hzero : IsNumeral ['0'] := ⟨List.cons_ne_nil _ _, by simp; decide⟩
  have hread : ReadsAs (['0'] ++ '.' :: ['0']) negative (value ⟨0, -1⟩) :=
    readsAs_point 0 hzero hzero (fun _ => rfl) rfl rfl
  rwa [value, Nat.cast_zero, zero_mul] at hread

theorem readsAs_pointed (hds : IsNumeral ds) (e : Int) :
    ReadsAs (pointed ds ++ 'e' :: signed e) negative
      (value ⟨numeral 10 ds, e + 1 - ds.length⟩) := by
  intro r hr
  have hpower := exponent?_signed e hr
  have hstop : ∀ c ∈ ('e' :: signed e ++ r).head?, isDigit c = false ∧ c ≠ '.' := by
    intro c hc
    cases hc
    decide
  rw [List.append_assoc]
  cases ds with
  | nil => exact absurd rfl hds.1
  | cons c fs =>
    have hc : IsNumeral [c] := hds.of_subset (List.cons_ne_nil _ _) fun x hx =>
      .inl (List.mem_singleton.mp hx ▸ List.mem_cons_self)
    cases fs with
    | nil =>
      refine ⟨_, readNumber?_whole negative hc (fun _ => rfl) hstop hpower, rfl, ?_⟩
      simp [Literal.decimal, Literal.ofParts]
    | cons c' fs =>
      have hfs : IsNumeral (c' :: fs) := hds.of_subset (List.cons_ne_nil _ _) fun x hx =>
        .inl (List.mem_cons_of_mem _ hx)
      refine ⟨_, readNumber?_fraction negative hc hfs (fun _ => rfl) (fun x hx => (hstop x hx).1)
        hpower, rfl, congrArg value ?_⟩
      simp only [Literal.decimal, Literal.ofParts, List.cons_append, List.nil_append,
        Decimal.mk.injEq, true_and, List.length_cons, Option.getD_some]
      omega

theorem readsAs_zeros_before {k : Nat}
    (he : -(k : Int) = d.exponent + (digits d.coefficient).length) :
    ReadsAs ('0' :: '.' :: (List.replicate k '0' ++ digits d.coefficient)) negative d.value := by
  have hds := isNumeral_digits d.coefficient
  have hfs : IsNumeral (List.replicate k '0' ++ digits d.coefficient) :=
    hds.of_subset (List.append_ne_nil_of_right_ne_nil _ hds.1) fun c hc =>
      (List.mem_append.mp hc).symm.imp_right List.eq_of_mem_replicate
  refine readsAs_point 0
    (hds.of_subset (List.cons_ne_nil '0' []) fun c hc => .inr (List.mem_singleton.mp hc)) hfs
    (fun _ => rfl) ?_ ?_
  · rw [← List.append_assoc, List.singleton_append, ← List.replicate_succ, numeral_zeros_append,
      numeral_digits, Nat.pow_zero, Nat.mul_one]
  · rw [List.length_append, List.length_replicate]
    omega

section Layouts

variable (hd : 0 < d.coefficient)

include hd

theorem readsAs_zeros_after (he : 0 ≤ d.exponent) :
    ReadsAs (digits d.coefficient ++ List.replicate d.exponent.toNat '0' ++ ['.', '0']) negative
      d.value := by
  have hds := isNumeral_digits d.coefficient
  have hzeros : IsNumeral (digits d.coefficient ++ List.replicate d.exponent.toNat '0') :=
    hds.of_subset (List.append_ne_nil_of_left_ne_nil hds.1 _) fun c hc =>
      (List.mem_append.mp hc).imp_right List.eq_of_mem_replicate
  have hlead : (digits d.coefficient ++ List.replicate d.exponent.toNat '0').head? ≠ some '0' := by
    rw [List.head?_append_of_ne_nil _ hds.1]
    exact head?_digits hd
  refine readsAs_point (d.exponent.toNat + 1) hzeros
    (hds.of_subset (List.cons_ne_nil _ _) fun c hc => .inr (List.mem_singleton.mp hc))
    (fun h => absurd h hlead) ?_ ?_
  · rw [List.append_assoc, ← List.replicate_succ', numeral_append_zeros, numeral_digits]
  · rw [List.length_singleton]
    omega

theorem readsAs_split {k : Nat} (hk : 0 < k)
    (he : (k : Int) = d.exponent + (digits d.coefficient).length) (hneg : d.exponent < 0) :
    ReadsAs ((digits d.coefficient).take k ++ '.' :: (digits d.coefficient).drop k) negative
      d.value := by
  have hds := isNumeral_digits d.coefficient
  have hlead : ((digits d.coefficient).take k).head? ≠ some '0' := by
    rw [List.head?_take, if_neg (Nat.ne_of_gt hk)]
    exact head?_digits hd
  have htake : (digits d.coefficient).take k ≠ [] :=
    List.ne_nil_of_length_pos (by rw [List.length_take]; omega)
  have hdrop : (digits d.coefficient).drop k ≠ [] :=
    List.ne_nil_of_length_pos (by rw [List.length_drop]; omega)
  refine readsAs_point 0 (hds.of_subset htake fun c hc => .inl (List.mem_of_mem_take hc))
    (hds.of_subset hdrop fun c hc => .inl (List.mem_of_mem_drop hc)) (fun h => absurd h hlead) ?_ ?_
  · rw [List.take_append_drop, numeral_digits, Nat.pow_zero, Nat.mul_one]
  · rw [List.length_drop]
    omega

/-- What is written of a decimal is read as the same number. -/
theorem readsAs_write (style : DecimalStyle) : ReadsAs (d.write style) negative d.value := by
  have hpos : 0 < (digits d.coefficient).length := List.length_pos_iff.mpr (digits_ne_nil _)
  simp only [write]
  split
  case isTrue =>
    have hread : ReadsAs _ negative _ := readsAs_pointed (isNumeral_digits d.coefficient)
      (d.exponent + (digits d.coefficient).length - 1)
    rwa [numeral_digits, sub_add_cancel, add_sub_cancel_right] at hread
  case isFalse =>
    split
    case isTrue hexponent => exact readsAs_zeros_after hd hexponent
    case isFalse hexponent =>
      split
      case isTrue hpoint =>
        exact readsAs_split hd (Nat.succ_pos _) (by omega) (Int.not_le.mp hexponent)
      case isFalse hpoint => exact readsAs_zeros_before (by omega)

end Layouts

theorem exists_digit_of_readNumber? (h : readNumber? negative cs = some p) :
    ∃ c rest, cs = c :: rest ∧ isDigit c = true := by
  have hwhole : wholeDigits? cs ≠ none := by
    intro hnone
    rw [readNumber?, hnone] at h
    cases h
  cases cs with
  | nil => exact absurd rfl hwhole
  | cons c rest =>
    refine ⟨c, rest, rfl, Bool.not_eq_false _ ▸ fun hc => hwhole ?_⟩
    rw [wholeDigits?, digits?, List.takeWhile_cons_of_neg (by simp [hc])]
    rfl

theorem readValue?_sign (fuel : Nat) (h : readNumber? negative cs = some p) :
    readValue? (fuel + 1) (if negative then '-' :: cs else cs) = some p := by
  cases negative with
  | true => exact h
  | false =>
    obtain ⟨c, rest, rfl, hc⟩ := exists_digit_of_readNumber? h
    have hblank : skipBlanks (c :: rest) = c :: rest := by
      refine List.dropWhile_cons_of_neg fun h => ?_
      simp only [Bool.or_eq_true, decide_eq_true_eq] at h
      rcases h with ((rfl | rfl) | rfl) | rfl <;> exact absurd hc (by decide)
    rw [if_neg (by decide), readValue?, hblank]
    split <;> rename_i heq <;> first
      | exact h
      | (obtain ⟨rfl, -⟩ := List.cons.inj heq; exact absurd hc (by decide))

theorem readValue?_writeInt (fuel : Nat) (k : Int) (hr : IsEnding r) :
    readValue? (fuel + 1) (Json.writeInt k ++ r) = some (.whole (decide (k < 0)) k.natAbs, r) := by
  have hread := readValue?_sign fuel (readNumber?_digits (decide (k < 0)) k.natAbs hr)
  rw [← hread, Json.writeInt]
  by_cases hk : k < 0 <;> simp [hk]

theorem exists_readsAs_of_writeFloat? (h : writeFloat? style v = some cs) :
    ∃ negative m e ds, Binary.ofFloat v = .finite negative m e ∧
      cs = (if negative then '-' :: ds else ds) ∧ ReadsAs ds negative (shortestValue m e) := by
  simp only [writeFloat?] at h
  split at h
  case h_2 => cases h
  case h_1 negative m e hv =>
    refine ⟨negative, m, e, _, hv, (Option.some.inj h).symm, ?_⟩
    simp only [shortestValue]
    split
    case isTrue => exact readsAs_zero
    case isFalse hm =>
      have hm := Nat.pos_of_ne_zero hm
      exact readsAs_write (shortest_coefficient_pos hm (Binary.canonical_of_ofFloat hv)) style

theorem readValue?_writeFloat (fuel : Nat) (h : writeFloat? style v = some cs) (hr : IsEnding r) :
    ∃ m e l, Binary.ofFloat v = .finite l.negative m e ∧
      readValue? (fuel + 1) (cs ++ r) = some (.decimal l, r) ∧
      l.decimal.value = shortestValue m e := by
  obtain ⟨negative, m, e, ds, hv, rfl, hread⟩ := exists_readsAs_of_writeFloat? h
  obtain ⟨l, hl, hsign, hvalue⟩ := hread r hr
  refine ⟨m, e, l, hsign ▸ hv, ?_, hvalue⟩
  rw [← readValue?_sign fuel hl]
  cases negative <;> rfl

end Written

open Written Decimal

variable {x y : Float} {a b r s : List Char} {style : DecimalStyle}

/-- Finite doubles are told by their text, wherever it ends. -/
theorem writeFloat?_append_inj (ha : writeFloat? style x = some a)
    (hb : writeFloat? style y = some b) (hr : IsEnding r) (hs : IsEnding s)
    (h : a ++ r = b ++ s) : x = y ∧ r = s := by
  obtain ⟨m, e, l, hx, hl, hlvalue⟩ := readValue?_writeFloat 0 ha hr
  obtain ⟨m', e', l', hy, hl', hlvalue'⟩ := readValue?_writeFloat 0 hb hs
  rw [h, hl'] at hl
  cases hl
  refine ⟨?_, rfl⟩
  obtain ⟨rfl, rfl⟩ := shortestValue_injective (Binary.canonical_of_ofFloat hx)
    (Binary.canonical_of_ofFloat hy) (hlvalue.symm.trans hlvalue')
  exact Binary.ofFloat_injective hx hy

theorem Json.writeInt_append_inj {n k : Int} (hr : IsEnding r) (hs : IsEnding s)
    (h : writeInt n ++ r = writeInt k ++ s) : n = k ∧ r = s := by
  have hn := readValue?_writeInt 0 n hr
  rw [h, readValue?_writeInt 0 k hs] at hn
  simp only [Option.some.injEq, Prod.mk.injEq, Written.whole.injEq, decide_eq_decide] at hn
  exact ⟨by omega, hn.2.symm⟩

theorem Json.writeInt_append_ne {n : Int} (ha : writeFloat? style x = some a) (hr : IsEnding r)
    (hs : IsEnding s) : writeInt n ++ r ≠ a ++ s := by
  intro h
  obtain ⟨m, e, l, -, hl, -⟩ := readValue?_writeFloat 0 ha hs
  rw [← h, readValue?_writeInt 0 n hr] at hl
  cases hl

end AsOf
