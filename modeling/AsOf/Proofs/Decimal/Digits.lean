import AsOf.Config.Pointer

namespace AsOf

namespace Decimal

theorem digitValue?_digit : ∀ d < 10, digitValue? 10 (Char.ofNat (48 + d)) = some d := by
  decide

theorem isDigit_digit : ∀ d < 10, isDigit (Char.ofNat (48 + d)) = true := by
  decide

theorem digit_eq_zero_iff : ∀ d < 10, Char.ofNat (48 + d) = '0' ↔ d = 0 := by
  decide

theorem numeral_digits (n : Nat) : numeral 10 (digits n) = n := by
  fun_induction digits n with
  | case1 n h =>
    simp [numeral, digitValue?_digit n h]
  | case2 n h ih =>
    have hlast := digitValue?_digit (n % 10) (Nat.mod_lt n (by decide))
    rw [numeral, List.foldl_append]
    change (numeral 10 (digits (n / 10))) * 10 + (digitValue? 10 _).getD 0 = n
    rw [ih, hlast, Option.getD_some]
    exact Nat.div_add_mod' n 10

theorem all_isDigit_digits (n : Nat) : (digits n).all isDigit = true := by
  fun_induction digits n with
  | case1 n h => simp [isDigit_digit n h]
  | case2 n h ih => simp [ih, isDigit_digit (n % 10) (Nat.mod_lt n (by decide))]

theorem digits_ne_nil (n : Nat) : digits n ≠ [] := by
  fun_cases digits n with
  | case1 h => exact List.cons_ne_nil _ _
  | case2 h => exact List.append_ne_nil_of_right_ne_nil _ (List.cons_ne_nil _ _)

theorem head?_digits {n : Nat} (h : 0 < n) : (digits n).head? ≠ some '0' := by
  fun_induction digits n with
  | case1 n hlt =>
    have hzero : Char.ofNat (48 + n) ≠ '0' := mt (digit_eq_zero_iff n hlt).mp (Nat.ne_of_gt h)
    simpa using hzero
  | case2 n hge ih =>
    have hhead := ih (Nat.div_pos (Nat.not_lt.mp hge) (by decide))
    obtain ⟨c, cs, hc⟩ := List.exists_cons_of_ne_nil (digits_ne_nil (n / 10))
    rw [hc] at hhead ⊢
    exact hhead

end Decimal

theorem Pointer.index?_digits (n : Nat) :
    Pointer.index? (String.ofList (Decimal.digits n)) = some n := by
  rcases Nat.eq_zero_or_pos n with rfl | h
  · rw [Decimal.digits]
    rfl
  · have hhead := Decimal.head?_digits h
    have hall := Decimal.all_isDigit_digits n
    have hvalue := Decimal.numeral_digits n
    unfold index?
    rw [String.toList_ofList]
    split
    · rename_i hzero
      exact absurd (congrArg List.head? hzero) hhead
    · rename_i hzero
      exact absurd (congrArg List.head? hzero) hhead
    · rename_i hnil
      exact absurd hnil (Decimal.digits_ne_nil n)
    · rw [if_pos hall, hvalue]

end AsOf
