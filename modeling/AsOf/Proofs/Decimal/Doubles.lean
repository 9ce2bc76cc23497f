import AsOf.Decimal.Binary

namespace AsOf

theorem Float.toBits_injective {x y : Float} (h : x.toBits = y.toBits) : x = y := by
  obtain ⟨⟨a, _⟩⟩ := x
  obtain ⟨⟨b, _⟩⟩ := y
  cases (h : a = b)
  rfl

namespace Float

open Float.Model (UnpackedFloat)
open Float.Model.UnpackedFloat (unpackExponent unpackMantissa)

theorem exists_zero_of_beq {u : UnpackedFloat} (h : u.beq (.zero .positive) = true) :
    ∃ sign, u = .zero sign := by
  cases u with
  | notANumber => cases h
  | infinity sign => cases sign <;> cases h
  | zero sign => exact ⟨sign, rfl⟩
  | finite sign => cases sign <;> cases h

theorem fields_of_unpack_zero {b : BitVec 64} {sign : UnpackedFloat.Sign}
    (h : UnpackedFloat.unpack .binary64 b = .zero sign) :
    b.toNat / Binary.fractions % 2048 = 0 ∧ b.toNat % Binary.fractions = 0 := by
  have hfields : @unpackExponent .binary64 b = 0#11 ∧ @unpackMantissa .binary64 b = 0#52 := by
    by_cases hones : @unpackExponent .binary64 b = -1#11
    · have hunpack := h.symm.trans (if_pos hones)
      split at hunpack <;> cases hunpack
    · have hunpack := h.symm.trans (if_neg hones)
      by_cases hexponent : @unpackExponent .binary64 b = 0#11
      · by_cases hmantissa : @unpackMantissa .binary64 b = 0#52
        · exact ⟨hexponent, hmantissa⟩
        · cases hunpack.trans ((if_pos hexponent).trans (dif_neg hmantissa))
      · cases hunpack.trans (if_neg hexponent)
  constructor
  · simpa [unpackExponent, Nat.shiftRight_eq_div_pow, Binary.fractions] using
      congrArg BitVec.toNat hfields.1
  · simpa [unpackMantissa, Binary.fractions] using congrArg BitVec.toNat hfields.2

theorem eq_zero_of_beq {x : Float} (h : (x == 0) = true) : x = 0 ∨ x = -0 := by
  have hzero : (0 : Float).toModel.unpack = .zero .positive := rfl
  obtain ⟨sign, hsign⟩ := exists_zero_of_beq (hzero ▸ h : x.toModel.unpack.beq _ = true)
  obtain ⟨hexponent, hmantissa⟩ := fields_of_unpack_zero hsign
  have hbits : x.toBits.toNat = 0 ∨ x.toBits.toNat = 0x8000000000000000 := by
    have hlt : x.toBits.toNat < 0x10000000000000000 := x.toBits.toNat_lt
    change x.toBits.toNat / 0x10000000000000 % 2048 = 0 at hexponent
    change x.toBits.toNat % 0x10000000000000 = 0 at hmantissa
    omega
  rcases hbits with hbits | hbits
  · exact .inl (Float.toBits_injective (UInt64.toNat_inj.mp hbits))
  · exact .inr (Float.toBits_injective (UInt64.toNat_inj.mp hbits))

end Float

namespace Binary

/-- Mantissas have at most 53 bits, and fewer only at the least exponent. -/
structure Canonical (mantissa : Nat) (exponent : Int) : Prop where
  lt : mantissa < 2 * fractions
  ge : -1074 ≤ exponent
  le : exponent ≤ 971
  normal : -1074 < exponent → fractions ≤ mantissa

variable {x y : Float} {negative : Bool} {m : Nat} {e : Int}

theorem Canonical.exponent_of_zero (h : Canonical 0 e) : e = -1074 := by
  have hge := h.ge
  have hzero : ¬ -1074 < e := fun hlt => absurd (h.normal hlt) (by decide)
  omega

theorem fields_of_ofFloat (h : ofFloat x = .finite negative m e) :
    let bits := x.toBits.toNat
    let biased := bits / fractions % 2048
    negative = decide (0x8000000000000000 ≤ bits) ∧
      (biased = 0 ∧ m = bits % fractions ∧ e = -1074 ∨
        (biased ≠ 0 ∧ biased ≠ 2047) ∧ m = bits % fractions + fractions ∧
          e = (biased : Int) - 1075) := by
  simp only [ofFloat] at h
  split at h
  · split at h <;> cases h
  · rename_i hfinite
    split at h
    · rename_i hzero
      cases h
      exact ⟨rfl, .inl ⟨hzero, rfl, rfl⟩⟩
    · rename_i hzero
      cases h
      exact ⟨rfl, .inr ⟨⟨hzero, hfinite⟩, rfl, rfl⟩⟩

theorem canonical_of_ofFloat (h : ofFloat x = .finite negative m e) : Canonical m e := by
  have hfraction : x.toBits.toNat % fractions < fractions := Nat.mod_lt _ (by decide)
  obtain ⟨-, ⟨-, rfl, rfl⟩ | ⟨⟨hzero, hfinite⟩, rfl, rfl⟩⟩ := fields_of_ofFloat h
  · exact ⟨by omega, by omega, by omega, fun h => absurd h (by omega)⟩
  · exact ⟨by omega, by omega, by omega, fun _ => by omega⟩

theorem ofFloat_injective (hx : ofFloat x = .finite negative m e)
    (hy : ofFloat y = .finite negative m e) : x = y := by
  have hbits : x.toBits.toNat = y.toBits.toNat := by
    have hxlt : x.toBits.toNat < 0x10000000000000000 := x.toBits.toNat_lt
    have hylt : y.toBits.toNat < 0x10000000000000000 := y.toBits.toNat_lt
    obtain ⟨hxs, hx⟩ := fields_of_ofFloat hx
    obtain ⟨hys, hy⟩ := fields_of_ofFloat hy
    have hsign := decide_eq_decide.mp (hxs.symm.trans hys)
    generalize x.toBits.toNat = a at *
    generalize y.toBits.toNat = b at *
    simp only [fractions] at *
    omega
  exact Float.toBits_injective (UInt64.toNat_inj.mp hbits)

end Binary

end AsOf
